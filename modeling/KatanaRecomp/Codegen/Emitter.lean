import KatanaRecomp.Ir.Lower
import KatanaRecomp.Sh4.Timing
import KatanaRecomp.Runtime.Exception

/-! # The meaning of the emitted C++

Each definition is the program whose text the function of the same name prints,
read as C++: a guest access is one access of the platform, a cast to a wider
unsigned type is `setWidth`, and signed 64-bit arithmetic is arithmetic on 64
bits. `Except` is a throw of the emitter itself, before any text exists.
`delta` is the distance by which the innermost active code-address mapping
relocates the code, zero when none is active. The register cache, the
direct-RAM fast path and the safepoints around a statement are left out. -/
namespace KatanaRecomp.Codegen
open KatanaRecomp.Runtime Ir

def relocatedCodeAddress (delta address : BitVec 32) : BitVec 32 := address + delta

/-! ## Special registers -/

def specialRegisterReadExpression : SpecialRegister → Except String (CpuState → BitVec 32)
  | .mach => .ok fun cpu => cpu.mach
  | .macl => .ok fun cpu => cpu.macl
  | .pr => .ok fun cpu => cpu.pr
  | .fpul => .ok fun cpu => cpu.fpul
  | .fpscr => .ok fun cpu => cpu.fpscr
  | .sr => .ok fun cpu => cpu.readSr
  | .gbr => .ok fun cpu => cpu.gbr
  | .vbr => .ok fun cpu => cpu.vbr
  | .ssr => .ok fun cpu => cpu.ssr
  | .spc => .ok fun cpu => cpu.spc
  | .sgr => .ok fun cpu => cpu.sgr
  | .dbr => .ok fun cpu => cpu.dbr
  | .bank0 => .ok fun cpu => cpu.rBank 0
  | .bank1 => .ok fun cpu => cpu.rBank 1
  | .bank2 => .ok fun cpu => cpu.rBank 2
  | .bank3 => .ok fun cpu => cpu.rBank 3
  | .bank4 => .ok fun cpu => cpu.rBank 4
  | .bank5 => .ok fun cpu => cpu.rBank 5
  | .bank6 => .ok fun cpu => cpu.rBank 6
  | .bank7 => .ok fun cpu => cpu.rBank 7
  | .none => .error "IR-Transfer ohne Spezialregister."

/-- `cpu.r_bank[k] = value`. -/
def setBank (k : Fin 8) (value : BitVec 32) (cpu : CpuState) : CpuState :=
  { cpu with rBank := Function.update cpu.rBank k value }

def emitSpecialRegisterWrite : SpecialRegister → Except String (BitVec 32 → CpuState → CpuState)
  | .mach => .ok fun value cpu => { cpu with mach := value }
  | .macl => .ok fun value cpu => { cpu with macl := value }
  | .pr => .ok fun value cpu => { cpu with pr := value }
  | .fpul => .ok fun value cpu => { cpu with fpul := value }
  | .fpscr => .ok fun value cpu => cpu.writeFpscr value
  | .sr => .ok fun value cpu => cpu.writeSr value
  | .gbr => .ok fun value cpu => { cpu with gbr := value }
  | .vbr => .ok fun value cpu => { cpu with vbr := value }
  | .ssr => .ok fun value cpu => { cpu with ssr := value }
  | .spc => .ok fun value cpu => { cpu with spc := value }
  | .sgr => .error "SGR kann nicht mit LDC geladen werden."
  | .dbr => .ok fun value cpu => { cpu with dbr := value }
  | .bank0 => .ok (setBank 0)
  | .bank1 => .ok (setBank 1)
  | .bank2 => .ok (setBank 2)
  | .bank3 => .ok (setBank 3)
  | .bank4 => .ok (setBank 4)
  | .bank5 => .ok (setBank 5)
  | .bank6 => .ok (setBank 6)
  | .bank7 => .ok (setBank 7)
  | .none => .error "IR-Transfer ohne Spezialregister."

/-! ## Register statements -/

/-- `cpu.t ? 1u : 0u`. -/
def tBit (w : Nat) (cpu : CpuState) : BitVec w := if cpu.t then 1 else 0

/-- `(value & 0x80000000u) != 0u`. -/
def signBit (value : BitVec 32) : Bool := value &&& 0x80000000 != 0

def shiftLogicalDynamic (value count : BitVec 32) : BitVec 32 :=
  if count &&& 0x80000000 == 0 then
    value <<< (count &&& 0x1F)
  else
    let amount := ((~~~count) &&& 0x1F) + 1
    if amount == 32 then 0 else value >>> amount

def shiftArithmeticDynamic (value count : BitVec 32) : BitVec 32 :=
  if count &&& 0x80000000 == 0 then
    value <<< (count &&& 0x1F)
  else
    let amount := ((~~~count) &&& 0x1F) + 1
    if amount == 32 then
      if signBit value then 0xFFFFFFFF else 0
    else
      let signFill := if signBit value then (0xFFFFFFFF : BitVec 32) <<< (32 - amount) else 0
      (value >>> amount) ||| signFill

def divideStep (cpu : CpuState) (n m : Fin 16) : CpuState :=
  let oldQ := cpu.q
  let q := signBit (cpu.r n)
  let divisor := cpu.r m
  let shifted := (cpu.r n <<< 1) ||| tBit 32 cpu
  let difference := shifted - divisor
  let sum := shifted + divisor
  let borrow := shifted.ult difference
  let carry := sum.ult shifted
  let (result, newQ) :=
    if !oldQ then
      if !cpu.m then (difference, q != borrow) else (sum, (!q) != carry)
    else
      if !cpu.m then (sum, q != carry) else (difference, (!q) != borrow)
  { cpu.setR n result with q := newQ, t := newQ == cpu.m }

/-- A word register as the emitted code makes it signed. -/
def signedWord (raw : BitVec 32) : BitVec 32 :=
  if raw &&& 0x00008000 != 0 then raw - 0x00010000 else raw

/-- A long register as the emitted code makes it signed in 64 bits. -/
def signedLong (raw : BitVec 32) : BitVec 64 :=
  if signBit raw then raw.setWidth 64 - 0x100000000 else raw.setWidth 64

/-- The statements that touch neither memory nor the FPU. -/
def registerStatement (delta : BitVec 32) (i : Instruction) (cpu : CpuState) : CpuState :=
  let n := registerIndex i.destinationRegister
  let m := registerIndex i.sourceRegister
  let rn := cpu.r n
  let rm := cpu.r m
  match i.operation with
  | .clearMac => { cpu with mach := 0, macl := 0 }
  | .movImmediate | .constant32 => cpu.setR n i.immediate
  | .addImmediate => cpu.setR n (rn + i.immediate)
  | .movRegister => cpu.setR n rm
  | .addRegister => cpu.setR n (rn + rm)
  | .subRegister => cpu.setR n (rn - rm)
  | .negateRegister => cpu.setR n (0 - rm)
  | .notRegister => cpu.setR n (~~~rm)
  | .addWithCarry =>
    let result := rn.setWidth 64 + rm.setWidth 64 + tBit 64 cpu
    { cpu.setR n (result.setWidth 32) with t := (0xFFFFFFFF : BitVec 64).ult result }
  | .addWithOverflow =>
    let result := rn + rm
    { cpu.setR n result with
      t := (~~~(rn ^^^ rm) &&& (rn ^^^ result)) &&& 0x80000000 != 0 }
  | .subWithCarry =>
    let minuend := rn.setWidth 64
    let subtrahend := rm.setWidth 64 + tBit 64 cpu
    { cpu.setR n ((minuend - subtrahend).setWidth 32) with t := minuend.ult subtrahend }
  | .subWithOverflow =>
    let result := rn - rm
    { cpu.setR n result with t := ((rn ^^^ rm) &&& (rn ^^^ result)) &&& 0x80000000 != 0 }
  | .negateWithCarry =>
    let subtrahend := rm.setWidth 64 + tBit 64 cpu
    { cpu.setR n ((0 - subtrahend).setWidth 32) with t := subtrahend != 0 }
  | .extendUnsignedByte => cpu.setR n (rm &&& 0x000000FF)
  | .extendUnsignedWord => cpu.setR n (rm &&& 0x0000FFFF)
  | .extendSignedByte =>
    let value := rm &&& 0x000000FF
    cpu.setR n (if value &&& 0x00000080 != 0 then value ||| 0xFFFFFF00 else value)
  | .extendSignedWord =>
    let value := rm &&& 0x0000FFFF
    cpu.setR n (if value &&& 0x00008000 != 0 then value ||| 0xFFFF0000 else value)
  | .swapBytes =>
    let high := rm &&& 0xFFFF0000
    let low := rm &&& 0x000000FF
    let second := rm &&& 0x0000FF00
    cpu.setR n (high ||| (low <<< 8) ||| (second >>> 8))
  | .swapWords => cpu.setR n ((rm <<< 16) ||| (rm >>> 16))
  | .extractMiddle => cpu.setR n ((rm <<< 16) ||| (rn >>> 16))
  | .decrementAndTest => { cpu.setR n (rn - 1) with t := rn - 1 == 0 }
  | .moveT => cpu.setR n (tBit 32 cpu)
  | .shiftLogicalLeftOne | .shiftArithmeticLeftOne =>
    { cpu with t := signBit rn }.setR n (rn <<< 1)
  | .shiftLogicalRightOne => { cpu with t := rn &&& 0x00000001 != 0 }.setR n (rn >>> 1)
  | .shiftArithmeticRightOne =>
    { cpu with t := rn &&& 0x00000001 != 0 }.setR n ((rn >>> 1) ||| (rn &&& 0x80000000))
  | .shiftLogicalLeftTwo => cpu.setR n (rn <<< 2)
  | .shiftLogicalLeftEight => cpu.setR n (rn <<< 8)
  | .shiftLogicalLeftSixteen => cpu.setR n (rn <<< 16)
  | .shiftLogicalRightTwo => cpu.setR n (rn >>> 2)
  | .shiftLogicalRightEight => cpu.setR n (rn >>> 8)
  | .shiftLogicalRightSixteen => cpu.setR n (rn >>> 16)
  | .rotateLeft => { cpu with t := signBit rn }.setR n ((rn <<< 1) ||| (rn >>> 31))
  | .rotateRight =>
    { cpu with t := rn &&& 0x00000001 != 0 }.setR n ((rn >>> 1) ||| (rn <<< 31))
  | .rotateLeftThroughT => { cpu with t := signBit rn }.setR n ((rn <<< 1) ||| tBit 32 cpu)
  | .rotateRightThroughT =>
    { cpu with t := rn &&& 0x00000001 != 0 }.setR n
      ((rn >>> 1) ||| (if cpu.t then 0x80000000 else 0))
  | .shiftLogicalDynamic => cpu.setR n (shiftLogicalDynamic rn rm)
  | .shiftArithmeticDynamic => cpu.setR n (shiftArithmeticDynamic rn rm)
  | .multiplyLong => { cpu with macl := (rn.setWidth 64 * rm.setWidth 64).setWidth 32 }
  | .multiplySignedWord =>
    { cpu with
      macl := signedWord (rm &&& 0x0000FFFF) * signedWord (rn &&& 0x0000FFFF) }
  | .multiplyUnsignedWord => { cpu with macl := (rn &&& 0x0000FFFF) * (rm &&& 0x0000FFFF) }
  | .doubleMultiplyUnsignedLong =>
    let product := rn.setWidth 64 * rm.setWidth 64
    { cpu with mach := (product >>> 32).setWidth 32, macl := product.setWidth 32 }
  | .doubleMultiplySignedLong =>
    let product := signedLong rm * signedLong rn
    { cpu with mach := (product >>> 32).setWidth 32, macl := product.setWidth 32 }
  | .divideInitializeUnsigned => { cpu with q := false, m := false, t := false }
  | .divideInitializeSigned =>
    { cpu with q := signBit rn, m := signBit rm, t := signBit rm != signBit rn }
  | .divideStep => divideStep cpu n m
  | .andRegister => cpu.setR n (rn &&& rm)
  | .orRegister => cpu.setR n (rn ||| rm)
  | .xorRegister => cpu.setR n (rn ^^^ rm)
  | .andImmediate => cpu.setR 0 (cpu.r 0 &&& i.immediate)
  | .orImmediate => cpu.setR 0 (cpu.r 0 ||| i.immediate)
  | .xorImmediate => cpu.setR 0 (cpu.r 0 ^^^ i.immediate)
  | .clearS => { cpu with s := false }
  | .setS => { cpu with s := true }
  | .clearT => { cpu with t := false }
  | .setT => { cpu with t := true }
  | .compareEqualImmediate => { cpu with t := cpu.r 0 == i.immediate }
  | .compareEqualRegister => { cpu with t := rn == rm }
  | .compareHigherOrSame => { cpu with t := rm.ule rn }
  | .compareGreaterOrEqual => { cpu with t := (rm ^^^ 0x80000000).ule (rn ^^^ 0x80000000) }
  | .compareHigher => { cpu with t := rm.ult rn }
  | .compareGreaterThan => { cpu with t := (rm ^^^ 0x80000000).ult (rn ^^^ 0x80000000) }
  | .comparePositiveOrZero => { cpu with t := rn &&& 0x80000000 == 0 }
  | .comparePositive => { cpu with t := rn != 0 && rn &&& 0x80000000 == 0 }
  | .compareString =>
    { cpu with
      t := (rn ^^^ rm) &&& 0x000000FF == 0 || (rn ^^^ rm) &&& 0x0000FF00 == 0 ||
        (rn ^^^ rm) &&& 0x00FF0000 == 0 || (rn ^^^ rm) &&& 0xFF000000 == 0 }
  | .testImmediate => { cpu with t := cpu.r 0 &&& i.immediate == 0 }
  | .testRegister => { cpu with t := rn &&& rm == 0 }
  | .moveAddressPcRelative =>
    match i.effectiveAddress with
    | some address => cpu.setR 0 (relocatedCodeAddress delta address)
    -- the emitter has thrown before it prints this statement
    | none => cpu
  -- NOP, and the cache operations on a coherent cache
  | _ => cpu

section
variable {M : Type} (P : Platform M) (H : FpuHelpers) (delta : BitVec 32)

/-! ## FPU statements -/

def callFpu (call : FpuHelperCall) : Guest M Bool := do
  let _ ← H.call call
  return false

/-- An FPU statement; `true` is the early return of a precise FPU exception.
The raising helpers take the owner of the slot as `emit_precise_fpu_instruction`
passes it. -/
def fpuStatement (i : Instruction) (owner : Option (BitVec 32)) : Guest M Bool := do
  let n := registerIndex i.destinationRegister
  let m := registerIndex i.sourceRegister
  match i.operation with
  | .fmovRegister =>
    Guest.modifyCpu fun cpu =>
      if cpu.fpscr &&& fpscrSzMask != 0 then cpu.writeFpuPairBits n (cpu.readFpuPairBits m)
      else cpu.setFr n (cpu.fr m)
    return false
  | .fldi0 =>
    Guest.modifyCpu fun cpu => cpu.setFr n 0x00000000
    return false
  | .fldi1 =>
    Guest.modifyCpu fun cpu => cpu.setFr n 0x3F800000
    return false
  | .flds =>
    Guest.modifyCpu fun cpu => { cpu with fpul := cpu.fr m }
    return false
  | .fsts =>
    Guest.modifyCpu fun cpu => cpu.setFr n cpu.fpul
    return false
  | .fabs => callFpu H (.absolute n)
  | .fadd => H.call (.binary .add m n owner)
  | .fsub => H.call (.binary .subtract m n owner)
  | .fmul => H.call (.binary .multiply m n owner)
  | .fdiv => H.call (.binary .divide m n owner)
  | .fcmpEqual => callFpu H (.compareEqual m n)
  | .fcmpGreater => callFpu H (.compareGreater m n)
  | .floatFromFpul => callFpu H (.floatFromFpul n)
  | .fmac => callFpu H (.multiplyAccumulate m n)
  | .fneg => callFpu H (.negate n)
  | .fsqrt => H.call (.squareRoot n owner)
  | .fsrra => H.call (.reciprocalSquareRoot n owner)
  | .fsca => H.call (.sineCosine n owner)
  | .fipr => callFpu H (.innerProduct m n)
  | .ftrv => callFpu H (.transformVector n)
  | .ftrc => callFpu H (.truncateToFpul m)
  | .fcnvDoubleToSingle => callFpu H (.convertDoubleToSingle m)
  | .fcnvSingleToDouble => callFpu H (.convertSingleToDouble n)
  | .frchg =>
    Guest.modifyCpu CpuState.toggleFpuRegisterBank
    return false
  | .fschg =>
    Guest.modifyCpu fun cpu => cpu.writeFpscr (cpu.fpscr ^^^ fpscrSzMask)
    return false
  | _ =>
    Guest.modifyCpu (registerStatement delta i)
    return false

/-! ## Memory statements -/

/-- `cpu.r[n] = read`. -/
def assignRead (n : Fin 16) (read : Guest M (BitVec 32)) : Guest M Unit := do
  let value ← read
  Guest.modifyCpu fun cpu => cpu.setR n value

def multiplyAccumulateWord (i : Instruction) : Guest M Unit := do
  let n := registerIndex i.destinationRegister
  let m := registerIndex i.sourceRegister
  let cpu ← Guest.getCpu
  let destinationAddress := cpu.r n
  let sourceAddress := cpu.r m + (if i.sourceRegister == i.destinationRegister then 2 else 0)
  let destinationRaw ← guestRead P 16 destinationAddress
  let sourceRaw ← guestRead P 16 sourceAddress
  let signed (raw : BitVec 32) : BitVec 64 :=
    if raw &&& 0x00008000 != 0 then raw.setWidth 64 - 0x00010000 else raw.setWidth 64
  let product := signed (sourceRaw.setWidth 32) * signed (destinationRaw.setWidth 32)
  Guest.modifyCpu fun cpu => cpu.setR n (cpu.r n + 2)
  Guest.modifyCpu fun cpu => cpu.setR m (cpu.r m + 2)
  Guest.modifyCpu fun cpu =>
    if cpu.s then
      let accumulator := signedLong cpu.macl
      let result := accumulator + product
      let result :=
        if (0x000000007FFFFFFF : BitVec 64).slt result then 0x000000007FFFFFFF
        else if result.slt 0xFFFFFFFF80000000 then 0xFFFFFFFF80000000
        else result
      { cpu with macl := result.setWidth 32 }
    else
      let accumulator := (cpu.mach.setWidth 64 <<< 32) ||| cpu.macl.setWidth 64
      let result := accumulator + product
      { cpu with mach := (result >>> 32).setWidth 32, macl := result.setWidth 32 }

def multiplyAccumulateLong (i : Instruction) : Guest M Unit := do
  let n := registerIndex i.destinationRegister
  let m := registerIndex i.sourceRegister
  let cpu ← Guest.getCpu
  let destinationAddress := cpu.r n
  let sourceAddress := cpu.r m + (if i.sourceRegister == i.destinationRegister then 4 else 0)
  let destinationRaw ← guestRead P 32 destinationAddress
  let sourceRaw ← guestRead P 32 sourceAddress
  let product := signedLong sourceRaw * signedLong destinationRaw
  Guest.modifyCpu fun cpu => cpu.setR n (cpu.r n + 4)
  Guest.modifyCpu fun cpu => cpu.setR m (cpu.r m + 4)
  Guest.modifyCpu fun cpu =>
    if cpu.s then
      let accumulatorRaw := ((cpu.mach &&& 0x0000FFFF).setWidth 64 <<< 32) ||| cpu.macl.setWidth 64
      let accumulator :=
        if accumulatorRaw &&& 0x0000800000000000 != 0 then accumulatorRaw - 0x0001000000000000
        else accumulatorRaw
      let result := accumulator + product
      let result :=
        if (0x00007FFFFFFFFFFF : BitVec 64).slt result then 0x00007FFFFFFFFFFF
        else if result.slt 0xFFFF800000000000 then 0xFFFF800000000000
        else result
      let resultBits := result &&& 0x0000FFFFFFFFFFFF
      { cpu with
        mach := ((resultBits >>> 32) &&& 0x0000FFFF).setWidth 32
        macl := resultBits.setWidth 32 }
    else
      let accumulator := (cpu.mach.setWidth 64 <<< 32) ||| cpu.macl.setWidth 64
      let result := accumulator + product
      { cpu with mach := (result >>> 32).setWidth 32, macl := result.setWidth 32 }

/-- AND.B, XOR.B and OR.B at `GBR + R0`. -/
def byteStatement (f : BitVec 8 → BitVec 8) : Guest M Unit := do
  let cpu ← Guest.getCpu
  let address := cpu.gbr + cpu.r 0
  let value ← guestRead P 8 address
  guestWrite P 8 address (f value)

def storePreDecrement (w : Nat) (n : Fin 16) (bytes value : BitVec 32) : Guest M Unit := do
  let cpu ← Guest.getCpu
  let address := cpu.r n - bytes
  guestWrite P w address (value.setWidth w)
  Guest.modifyCpu fun cpu => cpu.setR n address

def loadPostIncrement (i : Instruction) (bytes : BitVec 32)
    (read : BitVec 32 → Guest M (BitVec 32)) : Guest M Unit := do
  let n := registerIndex i.destinationRegister
  let m := registerIndex i.sourceRegister
  let sameRegister := i.sourceRegister == i.destinationRegister
  let cpu ← Guest.getCpu
  let address := cpu.r m
  let value ← read address
  Guest.modifyCpu fun cpu => cpu.setR n value
  if !sameRegister then
    Guest.modifyCpu fun cpu => cpu.setR m (address + bytes)

def fmovLoadStatement (n : Fin 16) (address : BitVec 32) : Guest M Unit := do
  let cpu ← Guest.getCpu
  if cpu.fpscr &&& fpscrSzMask != 0 then
    let low ← guestRead P 32 address
    let high ← guestRead P 32 (address + 4)
    Guest.modifyCpu fun cpu =>
      cpu.writeFpuPairBits n ((high.setWidth 64 <<< 32) ||| low.setWidth 64)
  else
    let value ← guestRead P 32 address
    Guest.modifyCpu fun cpu => cpu.setFr n value

def fmovStoreStatement (m : Fin 16) (address : BitVec 32) : Guest M Unit := do
  let cpu ← Guest.getCpu
  if cpu.fpscr &&& fpscrSzMask != 0 then
    let bits := cpu.readFpuPairBits m
    guestWrite P 32 address (bits.setWidth 32) .fpu
    guestWrite P 32 (address + 4) ((bits >>> 32).setWidth 32) .fpu
  else
    guestWrite P 32 address (cpu.fr m) .fpu

/-- The load that keeps its access but takes the value of a register. -/
def forwardedLoad (n m forwarded : Fin 16) : Guest M Unit := do
  let cpu ← Guest.getCpu
  let forwardedValue := cpu.r forwarded
  let _ ← guestRead P 32 (cpu.r m)
  Guest.modifyCpu fun cpu => cpu.setR n forwardedValue

def missingAddress (what : String) : Except String (Option (Guest M Unit)) :=
  .error (what ++ " fehlt die effektive Adresse.")

/-- The statements that access memory or a special register, if `i` has one. -/
def memoryStatement (i : Instruction) : Except String (Option (Guest M Unit)) :=
  let n := registerIndex i.destinationRegister
  let m := registerIndex i.sourceRegister
  let ok (program : Guest M Unit) : Except String (Option (Guest M Unit)) := .ok (some program)
  let withCpu (f : CpuState → Guest M Unit) := ok (Guest.getCpu >>= f)
  match i.operation with
  | .fmovLoad => withCpu fun cpu => fmovLoadStatement P n (cpu.r m)
  | .fmovLoadPostIncrement => withCpu fun cpu => do
    let address := cpu.r m
    fmovLoadStatement P n address
    Guest.modifyCpu fun cpu =>
      cpu.setR m (address + if cpu.fpscr &&& fpscrSzMask != 0 then 8 else 4)
  | .fmovLoadR0Indexed => withCpu fun cpu => fmovLoadStatement P n (cpu.r 0 + cpu.r m)
  | .fmovStore => withCpu fun cpu => fmovStoreStatement P m (cpu.r n)
  | .fmovStorePreDecrement => withCpu fun cpu => do
    let width := if cpu.fpscr &&& fpscrSzMask != 0 then 8 else 4
    let address := cpu.r n - width
    fmovStoreStatement P m address
    Guest.modifyCpu fun cpu => cpu.setR n address
  | .fmovStoreR0Indexed => withCpu fun cpu => fmovStoreStatement P m (cpu.r 0 + cpu.r n)
  | .prefetch => withCpu fun cpu => prefetch P (cpu.r m)
  | .loadTlb => ok (Guest.modifyMem P.loadTlb)
  | .movcaLong => withCpu fun cpu => guestWrite P 32 (cpu.r n) (cpu.r 0) .storeQueue
  | .multiplyAccumulateWord => ok (multiplyAccumulateWord P i)
  | .multiplyAccumulateLong => ok (multiplyAccumulateLong P i)
  | .testByteImmediate => withCpu fun cpu => do
    let value ← guestRead P 8 (cpu.gbr + cpu.r 0)
    Guest.modifyCpu fun cpu => { cpu with t := value &&& i.immediate.setWidth 8 == 0 }
  | .andByteImmediate => ok (byteStatement P fun value => value &&& i.immediate.setWidth 8)
  | .xorByteImmediate => ok (byteStatement P fun value => value ^^^ i.immediate.setWidth 8)
  | .orByteImmediate => ok (byteStatement P fun value => value ||| i.immediate.setWidth 8)
  | .testAndSetByte => withCpu fun cpu => do
    let address := cpu.r m
    let value ← guestRead P 8 address
    guestWrite P 8 address (value ||| 0x80)
    Guest.modifyCpu fun cpu => { cpu with t := value == 0 }
  | .loadByteSigned => withCpu fun cpu => assignRead n (guestReadSigned P 8 (cpu.r m))
  | .loadWordSigned => withCpu fun cpu => assignRead n (guestReadSigned P 16 (cpu.r m))
  | .loadLong =>
    match i.forwardedValueRegister with
    | some forwarded => ok (forwardedLoad P n m (registerIndex forwarded))
    | none => withCpu fun cpu => assignRead n (guestRead P 32 (cpu.r m))
  | .storeByte => withCpu fun cpu => guestWrite P 8 (cpu.r n) ((cpu.r m).setWidth 8)
  | .storeWord => withCpu fun cpu => guestWrite P 16 (cpu.r n) ((cpu.r m).setWidth 16)
  | .storeLong => withCpu fun cpu => guestWrite P 32 (cpu.r n) (cpu.r m)
  | .storeByteDisplacement => withCpu fun cpu =>
    guestWrite P 8 (cpu.r n + i.displacement) ((cpu.r m).setWidth 8)
  | .storeWordDisplacement => withCpu fun cpu =>
    guestWrite P 16 (cpu.r n + i.displacement) ((cpu.r m).setWidth 16)
  | .storeLongDisplacement => withCpu fun cpu =>
    guestWrite P 32 (cpu.r n + i.displacement) (cpu.r m)
  | .loadByteSignedDisplacement => withCpu fun cpu =>
    assignRead n (guestReadSigned P 8 (cpu.r m + i.displacement))
  | .loadWordSignedDisplacement => withCpu fun cpu =>
    assignRead n (guestReadSigned P 16 (cpu.r m + i.displacement))
  | .loadLongDisplacement => withCpu fun cpu =>
    assignRead n (guestRead P 32 (cpu.r m + i.displacement))
  | .storeByteR0Indexed => withCpu fun cpu =>
    guestWrite P 8 (cpu.r 0 + cpu.r n) ((cpu.r m).setWidth 8)
  | .storeWordR0Indexed => withCpu fun cpu =>
    guestWrite P 16 (cpu.r 0 + cpu.r n) ((cpu.r m).setWidth 16)
  | .storeLongR0Indexed => withCpu fun cpu => guestWrite P 32 (cpu.r 0 + cpu.r n) (cpu.r m)
  | .loadByteSignedR0Indexed => withCpu fun cpu =>
    assignRead n (guestReadSigned P 8 (cpu.r 0 + cpu.r m))
  | .loadWordSignedR0Indexed => withCpu fun cpu =>
    assignRead n (guestReadSigned P 16 (cpu.r 0 + cpu.r m))
  | .loadLongR0Indexed => withCpu fun cpu => assignRead n (guestRead P 32 (cpu.r 0 + cpu.r m))
  | .storeByteGbrDisplacement => withCpu fun cpu =>
    guestWrite P 8 (cpu.gbr + i.displacement) ((cpu.r 0).setWidth 8)
  | .storeWordGbrDisplacement => withCpu fun cpu =>
    guestWrite P 16 (cpu.gbr + i.displacement) ((cpu.r 0).setWidth 16)
  | .storeLongGbrDisplacement => withCpu fun cpu =>
    guestWrite P 32 (cpu.gbr + i.displacement) (cpu.r 0)
  | .loadByteSignedGbrDisplacement => withCpu fun cpu =>
    assignRead 0 (guestReadSigned P 8 (cpu.gbr + i.displacement))
  | .loadWordSignedGbrDisplacement => withCpu fun cpu =>
    assignRead 0 (guestReadSigned P 16 (cpu.gbr + i.displacement))
  | .loadLongGbrDisplacement => withCpu fun cpu =>
    assignRead 0 (guestRead P 32 (cpu.gbr + i.displacement))
  | .loadWordSignedPcRelative =>
    match i.effectiveAddress with
    | some address =>
      ok (assignRead n (guestReadSigned P 16 (relocatedCodeAddress delta address)))
    | none => missingAddress "PC-relativem Word-Load"
  | .loadLongPcRelative =>
    match i.effectiveAddress with
    | some address => ok (assignRead n (guestRead P 32 (relocatedCodeAddress delta address)))
    | none => missingAddress "PC-relativem Long-Load"
  | .moveAddressPcRelative =>
    match i.effectiveAddress with
    | some _ => .ok none
    | none => missingAddress "MOVA"
  | .storeSpecialRegister => do
    let read ← specialRegisterReadExpression i.specialRegister
    ok (Guest.modifyCpu fun cpu => cpu.setR n (read cpu))
  | .storeSpecialRegisterPreDecrement => do
    let read ← specialRegisterReadExpression i.specialRegister
    withCpu fun cpu => storePreDecrement P 32 n 4 (read cpu)
  | .loadSpecialRegister => do
    let write ← emitSpecialRegisterWrite i.specialRegister
    ok (Guest.modifyCpu fun cpu => write (cpu.r m) cpu)
  | .loadSpecialRegisterPostIncrement => do
    let write ← emitSpecialRegisterWrite i.specialRegister
    withCpu fun cpu => do
      let address := cpu.r m
      let value ← guestRead P 32 address
      Guest.modifyCpu fun cpu => cpu.setR m (address + 4)
      Guest.modifyCpu (write value)
  | .storeBytePreDecrement => withCpu fun cpu => storePreDecrement P 8 n 1 (cpu.r m)
  | .storeWordPreDecrement => withCpu fun cpu => storePreDecrement P 16 n 2 (cpu.r m)
  | .storeLongPreDecrement => withCpu fun cpu => storePreDecrement P 32 n 4 (cpu.r m)
  | .loadByteSignedPostIncrement => ok (loadPostIncrement i 1 (guestReadSigned P 8))
  | .loadWordSignedPostIncrement => ok (loadPostIncrement i 2 (guestReadSigned P 16))
  | .loadLongPostIncrement => ok (loadPostIncrement i 4 (guestRead P 32))
  | _ => .ok none

/-! ## One guarded instruction -/

def slotOwner (i : Instruction) : Option (BitVec 32) :=
  if i.delaySlot.role = .slot then
    i.delaySlot.counterpartAddress.map (relocatedCodeAddress delta)
  else none

def isControlFlow : Operation → Bool
  | .branch | .call | .branchIfTrue | .branchIfFalse | .jumpRegister | .callRegister | .return
  | .trapAlways | .returnFromException | .sleep => true
  | _ => false

/-- The statement `emit_simple_instruction_raw` prints, with the raising FPU
helpers as `emit_precise_fpu_instruction` prints them. -/
def emitSimpleInstructionRaw (i : Instruction) : Except String (Guest M Bool) := do
  if isControlFlow i.operation then
    return Guest.throwFault (.host "Kontrollfluss im Delay Slot wird nicht unterstuetzt")
  if i.operation = .unknown then
    return do
      Guest.modifyCpu fun cpu =>
        raiseIllegalInstruction P.manualResetSink cpu
          (relocatedCodeAddress delta i.sourceAddress) (slotOwner delta i)
      return true
  match ← memoryStatement P delta i with
  | some program => return do
    program
    return false
  | none => return fpuStatement H delta i (slotOwner delta i)

def isFpuOperation (i : Instruction) : Bool :=
  match i.operation with
  | .fmovRegister | .fmovLoad | .fmovLoadPostIncrement | .fmovLoadR0Indexed | .fmovStore
  | .fmovStorePreDecrement | .fmovStoreR0Indexed | .fldi0 | .fldi1 | .flds | .fsts | .fabs
  | .fadd | .fcmpEqual | .fcmpGreater | .fdiv | .floatFromFpul | .fmac | .fmul | .fneg | .fsqrt
  | .fsrra | .fsca | .fipr | .ftrv | .fsub | .ftrc | .fcnvDoubleToSingle | .fcnvSingleToDouble
  | .frchg | .fschg => true
  | .storeSpecialRegister | .storeSpecialRegisterPreDecrement | .loadSpecialRegister
  | .loadSpecialRegisterPostIncrement =>
    i.specialRegister == .fpul || i.specialRegister == .fpscr
  | _ => false

/-- The condition on FPSCR under which `emit_fpu_mode_guard` raises an
illegal-instruction exception. -/
def fpuModeInvalid (i : Instruction) (fpscr : BitVec 32) : Bool :=
  let pr := fpscr &&& fpscrPrMask != 0
  let sz := fpscr &&& fpscrSzMask != 0
  let rounding := (1 : BitVec 32).ult (fpscr &&& fpscrRoundingModeMask)
  let oddSource := i.sourceRegister &&& 1 != 0
  let oddDestination := i.destinationRegister &&& 1 != 0
  match i.operation with
  | .fmovRegister | .fmovLoad | .fmovLoadPostIncrement | .fmovLoadR0Indexed | .fmovStore
  | .fmovStorePreDecrement | .fmovStoreR0Indexed => pr && sz
  | .fldi0 | .fldi1 | .frchg | .fschg => pr
  | .fmac => pr || rounding
  | .fsrra | .fsca | .fipr | .ftrv => pr || rounding
  | .fcnvDoubleToSingle => !pr || (oddSource && pr) || rounding
  | .fcnvSingleToDouble => !pr || (oddDestination && pr) || rounding
  | .fadd | .fsub | .fmul | .fdiv | .fcmpEqual | .fcmpGreater =>
    (oddSource && pr) || (oddDestination && pr) || rounding
  | .ftrc => (oddSource && pr) || rounding
  | .fsqrt | .floatFromFpul => (oddDestination && pr) || rounding
  | .fabs | .fneg => oddDestination && pr
  | _ => false

/-- The guards in front of a statement: the exception that one of them enters. -/
def guardException (i : Instruction) (cpu : CpuState) : Option CpuState :=
  let pc := relocatedCodeAddress delta i.sourceAddress
  if i.isPrivileged && !cpu.privilegedMode then
    some (raiseIllegalInstruction P.manualResetSink cpu pc (slotOwner delta i))
  else if isFpuOperation i && cpu.sr &&& srFdMask != 0 then
    some (raiseFpuDisabled P.manualResetSink cpu pc (slotOwner delta i))
  else if fpuModeInvalid i cpu.fpscr then
    some (raiseIllegalInstruction P.manualResetSink cpu pc (slotOwner delta i))
  else none

/-- The cycles and the attempt in front of the guards. -/
def instructionPrologue (i : Instruction) : Guest M Unit := do
  let timing := Sh4.opcodeTiming i.originalOpcode
  if timing.requiresCycleFlush then
    Guest.host P.flushPendingGuestCycles
  beginAttempt (relocatedCodeAddress delta i.sourceAddress)
  Guest.modifyMem (P.addGuestInstructionCycles timing.guestCycles)

/-- `emit_guarded_simple_instruction` up to its handler for memory faults;
`true` is an early return from the block. -/
def emitGuardedSimpleInstruction (i : Instruction) : Except String (Guest M Bool) := do
  let statement ← emitSimpleInstructionRaw P H delta i
  return do
    instructionPrologue P delta i
    let cpu ← Guest.getCpu
    match guardException P delta i cpu with
    | some raised => do
      Guest.modifyCpu fun _ => raised
      return true
    | none => statement

end
end KatanaRecomp.Codegen
