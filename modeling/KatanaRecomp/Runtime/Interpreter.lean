import KatanaRecomp.Sh4.Timing
import KatanaRecomp.Runtime.Exception

/-! # The dynamic interpreter

`executeOne` fetches, decodes and runs one instruction, its delay slot included.
The one switch of the source is cut into four: control flow, memory accesses,
FPU instructions and the rest, which only compute on registers; each falls
through to the next. -/
namespace KatanaRecomp.Runtime
open Sh4 (DecodedInstruction InstructionKind)

structure StepResult where
  controlFlow : Bool := false
  endKind : BlockEndKind := .fallthrough
  cycles : Nat := 1
  instructions : Nat := 1

/-- `{true, BlockEndKind::Exception, 1u}`. -/
def exceptionResult : StepResult := { controlFlow := true, endKind := .exception }

namespace Interpreter

/-- The bank register a special register names. -/
def bankIndex : Sh4.SpecialRegister → Option (Fin 8)
  | .bank0 => some 0
  | .bank1 => some 1
  | .bank2 => some 2
  | .bank3 => some 3
  | .bank4 => some 4
  | .bank5 => some 5
  | .bank6 => some 6
  | .bank7 => some 7
  | _ => none

def specialRead (cpu : CpuState) (reg : Sh4.SpecialRegister) : Option (BitVec 32) :=
  match reg with
  | .mach => some cpu.mach
  | .macl => some cpu.macl
  | .pr => some cpu.pr
  | .fpul => some cpu.fpul
  | .fpscr => some cpu.readFpscr
  | .sr => some cpu.readSr
  | .gbr => some cpu.gbr
  | .vbr => some cpu.vbr
  | .ssr => some cpu.ssr
  | .spc => some cpu.spc
  | .sgr => some cpu.sgr
  | .dbr => some cpu.dbr
  | reg => (bankIndex reg).map cpu.rBank

def specialWrite (cpu : CpuState) (reg : Sh4.SpecialRegister) (value : BitVec 32) :
    Option CpuState :=
  match reg with
  | .mach => some { cpu with mach := value }
  | .macl => some { cpu with macl := value }
  | .pr => some { cpu with pr := value }
  | .fpul => some { cpu with fpul := value }
  | .fpscr => some (cpu.writeFpscr value)
  | .sr => some (cpu.writeSr value)
  | .gbr => some { cpu with gbr := value }
  | .vbr => some { cpu with vbr := value }
  | .ssr => some { cpu with ssr := value }
  | .spc => some { cpu with spc := value }
  | .sgr => some { cpu with sgr := value }
  | .dbr => some { cpu with dbr := value }
  | reg => (bankIndex reg).map fun k => { cpu with rBank := Function.update cpu.rBank k value }

def addDisplacement (base displacement : BitVec 32) : BitVec 32 := base + displacement

/-- `cpu.t ? 1u : 0u`. -/
def carry (cpu : CpuState) : BitVec 32 := if cpu.t then 1 else 0

/-- `std::clamp<std::int64_t>`. -/
def clamp (value low high : BitVec 64) : BitVec 64 :=
  if value.slt low then low else if high.slt value then high else value

def isFpuInstruction (i : DecodedInstruction) : Bool :=
  match i.kind with
  | .fmovRegister | .fmovLoad | .fmovLoadPostIncrement | .fmovLoadR0Indexed | .fmovStore
  | .fmovStorePreDecrement | .fmovStoreR0Indexed | .fldi0 | .fldi1 | .flds | .fsts | .fabs
  | .fadd | .fcmpEqual | .fcmpGreater | .fdiv | .floatFromFpul | .fmac | .fmul | .fneg | .fsqrt
  | .fsrra | .fsca | .fipr | .ftrv | .fsub | .ftrc | .fcnvDoubleToSingle | .fcnvSingleToDouble
  | .frchg | .fschg => true
  | .storeSpecialRegister | .storeSpecialRegisterPreDecrement | .loadSpecialRegister
  | .loadSpecialRegisterPostIncrement =>
    i.specialRegister == .fpul || i.specialRegister == .fpscr
  | _ => false

/-! ## Register instructions -/

/-- SHLD and SHAD. -/
def shiftDynamic (arithmetic : Bool) (value count : BitVec 32) : BitVec 32 :=
  if (0 : BitVec 32).sle count then
    if count &&& 0x1F == 0 then value else value <<< (count &&& 0x1F)
  else
    let shift := ((~~~count) &&& 0x1F) + 1
    if shift == 32 then
      if arithmetic && value.slt 0 then 0xFFFFFFFF else 0
    else
      if arithmetic then value.sshiftRight' shift else value >>> shift

/-- DIV1. -/
def divideStep (cpu : CpuState) (n m : Fin 16) : CpuState :=
  let oldQ := cpu.q
  let q := cpu.r n >>> 31 != 0
  let divisor := cpu.r m
  let shifted := (cpu.r n <<< 1) ||| carry cpu
  let difference := shifted - divisor
  let sum := shifted + divisor
  let borrow := shifted.ult difference
  let carryOut := sum.ult shifted
  let (result, newQ) :=
    if !oldQ then
      if !cpu.m then (difference, q != borrow) else (sum, (!q) != carryOut)
    else
      if !cpu.m then (sum, q != carryOut) else (difference, (!q) != borrow)
  { cpu.setR n result with q := newQ, t := newQ == cpu.m }

def executeRegister (i : DecodedInstruction) (pc : BitVec 32) (cpu : CpuState) : CpuState :=
  let n := i.destinationRegister
  let m := i.sourceRegister
  let rn := cpu.r n
  let rm := cpu.r m
  match i.kind with
  | .movImmediate => cpu.setR n i.immediate
  | .addImmediate => cpu.setR n (rn + i.immediate)
  | .movRegister => cpu.setR n rm
  | .addRegister => cpu.setR n (rn + rm)
  | .subRegister => cpu.setR n (rn - rm)
  | .negateRegister => cpu.setR n (0 - rm)
  | .notRegister => cpu.setR n (~~~rm)
  | .addWithCarry =>
    let sum := rn + rm
    let result := sum + carry cpu
    { cpu with t := sum.ult rn || result.ult sum }.setR n result
  | .subWithCarry =>
    let sub := rn - rm
    let result := sub - carry cpu
    { cpu with t := rn.ult rm || sub.ult (carry cpu) }.setR n result
  | .addWithOverflow =>
    let result := rn + rm
    { cpu with
      t := (!rn.slt 0 && !rm.slt 0 && result.slt 0) || (rn.slt 0 && rm.slt 0 && !result.slt 0)
      }.setR n result
  | .subWithOverflow =>
    let result := rn - rm
    { cpu with
      t := (!rn.slt 0 && rm.slt 0 && result.slt 0) || (rn.slt 0 && !rm.slt 0 && !result.slt 0)
      }.setR n result
  | .negateWithCarry =>
    let temporary := 0 - rm
    let result := temporary - carry cpu
    { cpu with t := rm != 0 || temporary.ult result }.setR n result
  | .extendUnsignedByte => cpu.setR n (rm &&& 0xFF)
  | .extendUnsignedWord => cpu.setR n (rm &&& 0xFFFF)
  | .extendSignedByte => cpu.setR n ((rm.setWidth 8).signExtend 32)
  | .extendSignedWord => cpu.setR n ((rm.setWidth 16).signExtend 32)
  | .swapBytes =>
    let high := rm &&& 0xFFFF0000
    let low := rm &&& 0xFF
    cpu.setR n (high ||| (low <<< 8) ||| ((rm >>> 8) &&& (0xFF : BitVec 32)))
  | .swapWords => cpu.setR n (rm.rotateLeft 16)
  | .extractMiddle => cpu.setR n ((rn >>> 16) ||| (rm <<< 16))
  | .decrementAndTest => { cpu.setR n (rn - 1) with t := rn - 1 == 0 }
  | .moveT => cpu.setR n (carry cpu)
  | .shiftLogicalLeftOne | .shiftArithmeticLeftOne =>
    { cpu with t := rn >>> 31 != 0 }.setR n (rn <<< 1)
  | .shiftLogicalRightOne => { cpu with t := rn &&& 1 != 0 }.setR n (rn >>> 1)
  | .shiftArithmeticRightOne => { cpu with t := rn &&& 1 != 0 }.setR n (rn.sshiftRight 1)
  | .shiftLogicalLeftTwo => cpu.setR n (rn <<< 2)
  | .shiftLogicalLeftEight => cpu.setR n (rn <<< 8)
  | .shiftLogicalLeftSixteen => cpu.setR n (rn <<< 16)
  | .shiftLogicalRightTwo => cpu.setR n (rn >>> 2)
  | .shiftLogicalRightEight => cpu.setR n (rn >>> 8)
  | .shiftLogicalRightSixteen => cpu.setR n (rn >>> 16)
  | .rotateLeft =>
    let bit := rn >>> 31
    { cpu.setR n ((rn <<< 1) ||| bit) with t := bit != 0 }
  | .rotateRight =>
    let bit := rn &&& 1
    { cpu.setR n ((rn >>> 1) ||| (bit <<< 31)) with t := bit != 0 }
  | .rotateLeftThroughT =>
    { cpu.setR n ((rn <<< 1) ||| carry cpu) with t := rn >>> 31 != 0 }
  | .rotateRightThroughT =>
    { cpu.setR n ((rn >>> 1) ||| (if cpu.t then 0x80000000 else 0)) with t := rn &&& 1 != 0 }
  | .shiftLogicalDynamic => cpu.setR n (shiftDynamic false rn rm)
  | .shiftArithmeticDynamic => cpu.setR n (shiftDynamic true rn rm)
  | .multiplyLong => { cpu with macl := rn * rm }
  | .multiplySignedWord =>
    { cpu with macl := (rn.setWidth 16).signExtend 32 * (rm.setWidth 16).signExtend 32 }
  | .multiplyUnsignedWord => { cpu with macl := (rn &&& 0xFFFF) * (rm &&& 0xFFFF) }
  | .doubleMultiplySignedLong =>
    let value := rn.signExtend 64 * rm.signExtend 64
    { cpu with macl := value.setWidth 32, mach := (value >>> 32).setWidth 32 }
  | .doubleMultiplyUnsignedLong =>
    let value := rn.setWidth 64 * rm.setWidth 64
    { cpu with macl := value.setWidth 32, mach := (value >>> 32).setWidth 32 }
  | .clearMac => { cpu with mach := 0, macl := 0 }
  | .divideInitializeUnsigned => { cpu with m := false, q := false, t := false }
  | .divideInitializeSigned =>
    let q := rn >>> 31 != 0
    let m := rm >>> 31 != 0
    { cpu with q := q, m := m, t := q != m }
  | .divideStep => divideStep cpu n m
  | .andRegister => cpu.setR n (rn &&& rm)
  | .orRegister => cpu.setR n (rn ||| rm)
  | .xorRegister => cpu.setR n (rn ^^^ rm)
  | .andImmediate => cpu.setR 0 (cpu.r 0 &&& i.immediate)
  | .orImmediate => cpu.setR 0 (cpu.r 0 ||| i.immediate)
  | .xorImmediate => cpu.setR 0 (cpu.r 0 ^^^ i.immediate)
  | .clearS => { cpu with s := false }
  | .setS => { cpu with s := true }
  | .clearT => { cpu with t := false }
  | .setT => { cpu with t := true }
  | .compareEqualImmediate => { cpu with t := cpu.r 0 == i.immediate }
  | .compareEqualRegister => { cpu with t := rn == rm }
  | .compareHigherOrSame => { cpu with t := rm.ule rn }
  | .compareGreaterOrEqual => { cpu with t := rm.sle rn }
  | .compareHigher => { cpu with t := rm.ult rn }
  | .compareGreaterThan => { cpu with t := rm.slt rn }
  | .comparePositiveOrZero => { cpu with t := (0 : BitVec 32).sle rn }
  | .comparePositive => { cpu with t := (0 : BitVec 32).slt rn }
  | .compareString =>
    let value := rn ^^^ rm
    { cpu with
      t := value &&& 0xFF == 0 || value &&& 0xFF00 == 0 || value &&& 0xFF0000 == 0 ||
        value &&& 0xFF000000 == 0 }
  | .testImmediate => { cpu with t := cpu.r 0 &&& i.immediate == 0 }
  | .testRegister => { cpu with t := rn &&& rm == 0 }
  | .moveAddressPcRelative =>
    cpu.setR 0 (addDisplacement ((pc + 4) &&& ~~~3) i.displacement)
  -- NOP, and the cache operations on a coherent cache
  | _ => cpu

/-- What MAC.W and MAC.L do with the product of their operands. -/
def accumulate (word : Bool) (product : BitVec 64) (cpu : CpuState) : CpuState :=
  if cpu.s && word then
    let accumulator := cpu.macl.signExtend 64
    let value := clamp (accumulator + product) 0xFFFFFFFF80000000 0x000000007FFFFFFF
    { cpu with macl := value.setWidth 32 }
  else if cpu.s then
    let raw := ((cpu.mach &&& 0xFFFF).setWidth 64 <<< 32) ||| cpu.macl.setWidth 64
    let accumulator :=
      if raw &&& 0x0000800000000000 != 0 then raw - 0x0001000000000000 else raw
    let value := clamp (accumulator + product) 0xFFFF800000000000 0x00007FFFFFFFFFFF
    let bits := value &&& 0x0000FFFFFFFFFFFF
    { cpu with
      mach := ((bits >>> 32) &&& 0xFFFF).setWidth 32
      macl := bits.setWidth 32 }
  else
    let accumulator := (cpu.mach.setWidth 64 <<< 32) ||| cpu.macl.setWidth 64
    let value := accumulator + product
    { cpu with mach := (value >>> 32).setWidth 32, macl := value.setWidth 32 }

section
variable {M : Type} (P : Platform M) (H : FpuHelpers)

/-! ## FPU instructions -/

/-- The helpers that report an FPU exception end the block. -/
def callRaising (call : FpuHelperCall) : Guest M StepResult := do
  if ← H.call call then
    return exceptionResult
  return {}

def callFpu (call : FpuHelperCall) : Guest M StepResult := do
  let _ ← H.call call
  return {}

def executeFpu (i : DecodedInstruction) (pc : BitVec 32) (owner : Option (BitVec 32)) :
    Guest M StepResult := do
  let n := i.destinationRegister
  let m := i.sourceRegister
  match i.kind with
  | .fmovRegister =>
    Guest.modifyCpu fun cpu =>
      if cpu.fpuTransferPair then cpu.writeFpuPairBits n (cpu.readFpuPairBits m)
      else cpu.setFr n (cpu.fr m)
    return {}
  | .fldi0 =>
    Guest.modifyCpu fun cpu => cpu.setFr n 0x00000000
    return {}
  | .fldi1 =>
    Guest.modifyCpu fun cpu => cpu.setFr n 0x3F800000
    return {}
  | .flds =>
    Guest.modifyCpu fun cpu => { cpu with fpul := cpu.fr m }
    return {}
  | .fsts =>
    Guest.modifyCpu fun cpu => cpu.setFr n cpu.fpul
    return {}
  | .fabs => callFpu H (.absolute n)
  | .fadd => callRaising H (.binary .add m n owner)
  | .fsub => callRaising H (.binary .subtract m n owner)
  | .fmul => callRaising H (.binary .multiply m n owner)
  | .fdiv => callRaising H (.binary .divide m n owner)
  | .fcmpEqual => callFpu H (.compareEqual m n)
  | .fcmpGreater => callFpu H (.compareGreater m n)
  | .floatFromFpul => callFpu H (.floatFromFpul n)
  | .fmac => callFpu H (.multiplyAccumulate m n)
  | .fneg => callFpu H (.negate n)
  | .fsqrt => callRaising H (.squareRoot n owner)
  | .fsrra => callRaising H (.reciprocalSquareRoot n owner)
  | .fsca => callRaising H (.sineCosine n owner)
  | .fipr => callFpu H (.innerProduct m n)
  | .ftrv => callFpu H (.transformVector n)
  -- the decoder put the register number of FTRC into the source field
  | .ftrc => callFpu H (.truncateToFpul n)
  | .fcnvDoubleToSingle => callFpu H (.convertDoubleToSingle m)
  | .fcnvSingleToDouble => callFpu H (.convertSingleToDouble n)
  | .frchg =>
    Guest.modifyCpu CpuState.toggleFpuRegisterBank
    return {}
  | .fschg =>
    Guest.modifyCpu fun cpu => cpu.writeFpscr (cpu.readFpscr ^^^ fpscrSzMask)
    return {}
  | _ =>
    Guest.modifyCpu (executeRegister i pc)
    return {}

/-! ## Memory instructions -/

/-- MAC.W and MAC.L: both operands are read before a register changes. -/
def multiplyAccumulate (word : Bool) (n m : Fin 16) : Guest M Unit := do
  let cpu ← Guest.getCpu
  let bytes : BitVec 32 := if word then 2 else 4
  let destinationAddress := cpu.r n
  let sourceAddress := cpu.r m + (if m = n then bytes else 0)
  let readOperand (address : BitVec 32) : Guest M (BitVec 64) :=
    if word then do
      let value ← guestReadSigned P 16 address
      return value.signExtend 64
    else do
      let value ← guestRead P 32 address
      return value.signExtend 64
  let destination ← readOperand destinationAddress
  let source ← readOperand sourceAddress
  Guest.modifyCpu fun cpu => cpu.setR n (cpu.r n + bytes)
  Guest.modifyCpu fun cpu => cpu.setR m (cpu.r m + bytes)
  Guest.modifyCpu (accumulate word (source * destination))

/-- The read-modify-write byte instructions at `GBR + R0`. -/
def modifyByte (f : BitVec 8 → BitVec 8) : Guest M Unit := do
  let cpu ← Guest.getCpu
  let address := cpu.gbr + cpu.r 0
  let value ← guestRead P 8 address
  guestWrite P 8 address (f value)

/-- `cpu.r[n] = read`. -/
def loadInto (n : Fin 16) (read : Guest M (BitVec 32)) : Guest M Unit := do
  let value ← read
  Guest.modifyCpu fun cpu => cpu.setR n value

def loadPostIncrement (n m : Fin 16) (bytes : BitVec 32)
    (read : BitVec 32 → Guest M (BitVec 32)) : Guest M Unit := do
  let cpu ← Guest.getCpu
  let value ← read (cpu.r m)
  Guest.modifyCpu fun cpu => cpu.setR n value
  if n ≠ m then
    Guest.modifyCpu fun cpu => cpu.setR m (cpu.r m + bytes)

/-- A store at the decremented address; the register follows the store. -/
def storePreDecrement (w : Nat) (n : Fin 16) (bytes : BitVec 32) (value : BitVec w) :
    Guest M Unit := do
  let cpu ← Guest.getCpu
  let address := cpu.r n - bytes
  guestWrite P w address value
  Guest.modifyCpu fun cpu => cpu.setR n address

/-- The load half of an FMOV from `address`. -/
def fmovLoad (n : Fin 16) (address : BitVec 32) : Guest M Unit := do
  let cpu ← Guest.getCpu
  if cpu.fpuTransferPair then
    let low ← guestRead P 32 address
    let high ← guestRead P 32 (address + 4)
    Guest.modifyCpu fun cpu =>
      cpu.writeFpuPairBits n ((high.setWidth 64 <<< 32) ||| low.setWidth 64)
  else
    let value ← guestRead P 32 address
    Guest.modifyCpu fun cpu => cpu.setFr n value

/-- The store half of an FMOV to `address`. -/
def fmovStore (m : Fin 16) (address : BitVec 32) : Guest M Unit := do
  let cpu ← Guest.getCpu
  if cpu.fpuTransferPair then
    let bits := cpu.readFpuPairBits m
    guestWrite P 32 address (bits.setWidth 32) .fpu
    guestWrite P 32 (address + 4) ((bits >>> 32).setWidth 32) .fpu
  else
    guestWrite P 32 address (cpu.fr m) .fpu

def unknownSpecialRead : Fault :=
  .host "Dynamischer SH-4-Pfad liest ein unbekanntes Spezialregister."

def unknownSpecialWrite : Fault :=
  .host "Dynamischer SH-4-Pfad schreibt ein unbekanntes Spezialregister."

def readSpecial (reg : Sh4.SpecialRegister) : Guest M (BitVec 32) := do
  let cpu ← Guest.getCpu
  match specialRead cpu reg with
  | some value => return value
  | none => Guest.throwFault unknownSpecialRead

def writeSpecial (reg : Sh4.SpecialRegister) (value : BitVec 32) : Guest M Unit := fun σ =>
  match specialWrite σ.cpu reg value with
  | some cpu => (.ok (), { σ with cpu := cpu })
  | none => (.error unknownSpecialWrite, σ)

/-- The instructions that access memory or a special register; the others have
no such program. -/
def executeMemory (i : DecodedInstruction) (pc : BitVec 32) : Option (Guest M Unit) :=
  let n := i.destinationRegister
  let m := i.sourceRegister
  let withCpu (f : CpuState → Guest M Unit) : Option (Guest M Unit) := some (Guest.getCpu >>= f)
  match i.kind with
  | .multiplyAccumulateWord => some (multiplyAccumulate P true n m)
  | .multiplyAccumulateLong => some (multiplyAccumulate P false n m)
  | .testByteImmediate => withCpu fun cpu => do
    let value ← guestRead P 8 (cpu.gbr + cpu.r 0)
    Guest.modifyCpu fun cpu => { cpu with t := value &&& i.immediate.setWidth 8 == 0 }
  | .andByteImmediate =>
    some (modifyByte P fun value => (value.setWidth 32 &&& i.immediate).setWidth 8)
  | .xorByteImmediate =>
    some (modifyByte P fun value => (value.setWidth 32 ^^^ i.immediate).setWidth 8)
  | .orByteImmediate =>
    some (modifyByte P fun value => (value.setWidth 32 ||| i.immediate).setWidth 8)
  | .testAndSetByte => withCpu fun cpu => do
    let value ← guestRead P 8 (cpu.r m)
    guestWrite P 8 (cpu.r m) (value ||| 0x80)
    Guest.modifyCpu fun cpu => { cpu with t := value == 0 }
  | .movByteStore => withCpu fun cpu => guestWrite P 8 (cpu.r n) ((cpu.r m).setWidth 8)
  | .movWordStore => withCpu fun cpu => guestWrite P 16 (cpu.r n) ((cpu.r m).setWidth 16)
  | .movLongStore => withCpu fun cpu => guestWrite P 32 (cpu.r n) (cpu.r m)
  | .movByteLoad => withCpu fun cpu => loadInto n (guestReadSigned P 8 (cpu.r m))
  | .movWordLoad => withCpu fun cpu => loadInto n (guestReadSigned P 16 (cpu.r m))
  | .movLongLoad => withCpu fun cpu => loadInto n (guestRead P 32 (cpu.r m))
  | .movByteStorePreDecrement => withCpu fun cpu =>
    storePreDecrement P 8 n 1 ((cpu.r m).setWidth 8)
  | .movWordStorePreDecrement => withCpu fun cpu =>
    storePreDecrement P 16 n 2 ((cpu.r m).setWidth 16)
  | .movLongStorePreDecrement => withCpu fun cpu => storePreDecrement P 32 n 4 (cpu.r m)
  | .movByteLoadPostIncrement => some (loadPostIncrement n m 1 (guestReadSigned P 8))
  | .movWordLoadPostIncrement => some (loadPostIncrement n m 2 (guestReadSigned P 16))
  | .movLongLoadPostIncrement => some (loadPostIncrement n m 4 (guestRead P 32))
  | .movByteStoreDisplacement => withCpu fun cpu =>
    guestWrite P 8 (addDisplacement (cpu.r n) i.displacement) ((cpu.r m).setWidth 8)
  | .movWordStoreDisplacement => withCpu fun cpu =>
    guestWrite P 16 (addDisplacement (cpu.r n) i.displacement) ((cpu.r m).setWidth 16)
  | .movLongStoreDisplacement => withCpu fun cpu =>
    guestWrite P 32 (addDisplacement (cpu.r n) i.displacement) (cpu.r m)
  | .movByteLoadDisplacement => withCpu fun cpu =>
    loadInto n (guestReadSigned P 8 (addDisplacement (cpu.r m) i.displacement))
  | .movWordLoadDisplacement => withCpu fun cpu =>
    loadInto n (guestReadSigned P 16 (addDisplacement (cpu.r m) i.displacement))
  | .movLongLoadDisplacement => withCpu fun cpu =>
    loadInto n (guestRead P 32 (addDisplacement (cpu.r m) i.displacement))
  | .movByteStoreR0Indexed => withCpu fun cpu =>
    guestWrite P 8 (cpu.r n + cpu.r 0) ((cpu.r m).setWidth 8)
  | .movWordStoreR0Indexed => withCpu fun cpu =>
    guestWrite P 16 (cpu.r n + cpu.r 0) ((cpu.r m).setWidth 16)
  | .movLongStoreR0Indexed => withCpu fun cpu => guestWrite P 32 (cpu.r n + cpu.r 0) (cpu.r m)
  | .movByteLoadR0Indexed => withCpu fun cpu =>
    loadInto n (guestReadSigned P 8 (cpu.r m + cpu.r 0))
  | .movWordLoadR0Indexed => withCpu fun cpu =>
    loadInto n (guestReadSigned P 16 (cpu.r m + cpu.r 0))
  | .movLongLoadR0Indexed => withCpu fun cpu => loadInto n (guestRead P 32 (cpu.r m + cpu.r 0))
  | .movByteStoreGbrDisplacement => withCpu fun cpu =>
    guestWrite P 8 (addDisplacement cpu.gbr i.displacement) ((cpu.r 0).setWidth 8)
  | .movWordStoreGbrDisplacement => withCpu fun cpu =>
    guestWrite P 16 (addDisplacement cpu.gbr i.displacement) ((cpu.r 0).setWidth 16)
  | .movLongStoreGbrDisplacement => withCpu fun cpu =>
    guestWrite P 32 (addDisplacement cpu.gbr i.displacement) (cpu.r 0)
  | .movByteLoadGbrDisplacement => withCpu fun cpu =>
    loadInto 0 (guestReadSigned P 8 (addDisplacement cpu.gbr i.displacement))
  | .movWordLoadGbrDisplacement => withCpu fun cpu =>
    loadInto 0 (guestReadSigned P 16 (addDisplacement cpu.gbr i.displacement))
  | .movLongLoadGbrDisplacement => withCpu fun cpu =>
    loadInto 0 (guestRead P 32 (addDisplacement cpu.gbr i.displacement))
  | .movWordLoadPcRelative =>
    some (loadInto n (guestReadSigned P 16 (addDisplacement (pc + 4) i.displacement)))
  | .movLongLoadPcRelative =>
    some (loadInto n (guestRead P 32 (addDisplacement ((pc + 4) &&& ~~~3) i.displacement)))
  | .storeSpecialRegister => some (loadInto n (readSpecial i.specialRegister))
  | .storeSpecialRegisterPreDecrement => some do
    let value ← readSpecial i.specialRegister
    storePreDecrement P 32 n 4 value
  | .loadSpecialRegister => withCpu fun cpu => writeSpecial i.specialRegister (cpu.r m)
  | .loadSpecialRegisterPostIncrement => withCpu fun cpu => do
    let value ← guestRead P 32 (cpu.r m)
    Guest.modifyCpu fun cpu => cpu.setR m (cpu.r m + 4)
    writeSpecial i.specialRegister value
  | .loadTlb => some (Guest.modifyMem P.loadTlb)
  | .prefetch => withCpu fun cpu => prefetch P (cpu.r m)
  | .movcaLong => withCpu fun cpu => guestWrite P 32 (cpu.r n) (cpu.r 0) .storeQueue
  | .fmovLoad => withCpu fun cpu => fmovLoad P n (cpu.r m)
  | .fmovLoadPostIncrement => withCpu fun cpu => do
    fmovLoad P n (cpu.r m)
    Guest.modifyCpu fun cpu => cpu.setR m (cpu.r m + if cpu.fpuTransferPair then 8 else 4)
  | .fmovLoadR0Indexed => withCpu fun cpu => fmovLoad P n (cpu.r m + cpu.r 0)
  | .fmovStore => withCpu fun cpu => fmovStore P m (cpu.r n)
  | .fmovStorePreDecrement => withCpu fun cpu => do
    let address := cpu.r n - if cpu.fpuTransferPair then 8 else 4
    fmovStore P m address
    Guest.modifyCpu fun cpu => cpu.setR n address
  | .fmovStoreR0Indexed => withCpu fun cpu => fmovStore P m (cpu.r n + cpu.r 0)
  | _ => none

/-- The instructions that are not control flow. -/
def executeData (i : DecodedInstruction) (pc : BitVec 32) (owner : Option (BitVec 32)) :
    Guest M StepResult :=
  match executeMemory P i pc with
  | some program => do
    program
    return {}
  | none => executeFpu H i pc owner

/-! ## Control flow -/

/-- The slot of the branch at `owner`, with a fault of the slot taken as an
exception at the owner. -/
def executeDelaySlot (executeSlot : Guest M StepResult) (next owner : BitVec 32) :
    Guest M StepResult := Guest.catchMemory executeSlot fun error => do
    Guest.modifyCpu fun cpu =>
      enterMemoryException P.manualResetSink cpu error next (some owner)
    return exceptionResult

/-- What follows the slot: its exception, or the transfer to `target`. -/
def afterSlot (slot : StepResult) (target : BitVec 32) (kind : BlockEndKind) :
    Guest M StepResult := do
  if slot.endKind = .exception then
    return ⟨true, .exception, 1 + slot.cycles, 1 + slot.instructions⟩
  Guest.modifyCpu fun cpu => cpu.withPc target
  return ⟨true, kind, 1 + slot.cycles, 1 + slot.instructions⟩

def delayThen (executeSlot : Guest M StepResult) (pc target : BitVec 32) (kind : BlockEndKind) :
    Guest M StepResult := do
  let slot ← executeDelaySlot P executeSlot (pc + 2) pc
  afterSlot slot target kind

def callDelayThen (executeSlot : Guest M StepResult) (pc target : BitVec 32) :
    Guest M StepResult := do
  let cpu ← Guest.getCpu
  let oldPr := cpu.pr
  Guest.modifyCpu fun cpu => { cpu with pr := pc + 4 }
  let result ← delayThen P executeSlot pc target .call
  if result.endKind = .exception then
    Guest.modifyCpu fun cpu => { cpu with pr := oldPr }
  return result

def directBranch (i : DecodedInstruction) (pc : BitVec 32)
    (f : BitVec 32 → Guest M StepResult) : Guest M StepResult :=
  match Sh4.calculateDirectBranchTarget i pc with
  | some target => f target
  | none => Guest.throwFault (.host "Direkter SH-4-Branch besitzt kein Ziel.")

def takenBranch (target : BitVec 32) : Guest M StepResult := do
  Guest.modifyCpu fun cpu => cpu.withPc target
  return { controlFlow := true, endKind := .staticBranch }

def executeInstruction (executeSlot : Guest M StepResult) (i : DecodedInstruction)
    (pc : BitVec 32) (owner : Option (BitVec 32)) : Guest M StepResult := do
  let cpu ← Guest.getCpu
  match i.kind with
  | .trapAlways =>
    Guest.modifyCpu fun cpu =>
      raiseTrapa P.manualResetSink cpu (i.immediate.setWidth 8) pc
    return exceptionResult
  | .returnFromException =>
    let target := cpu.spc
    Guest.modifyCpu returnFromException
    let slot ← executeDelaySlot P executeSlot (pc + 2) pc
    afterSlot slot target .exceptionReturn
  | .sleep =>
    Guest.modifyCpu fun cpu => { cpu with sleeping := true }
    return { controlFlow := true, endKind := .sleep }
  | .bra => directBranch i pc fun target => delayThen P executeSlot pc target .staticBranch
  | .bsr => directBranch i pc (callDelayThen P executeSlot pc)
  | .braf => delayThen P executeSlot pc (pc + 4 + cpu.r i.branchRegister) .dynamicBranch
  | .bsrf => callDelayThen P executeSlot pc (pc + 4 + cpu.r i.branchRegister)
  | .bt =>
    if cpu.t then directBranch i pc takenBranch else return {}
  | .bf =>
    if !cpu.t then directBranch i pc takenBranch else return {}
  | .btS =>
    if cpu.t then
      directBranch i pc fun target => delayThen P executeSlot pc target .conditionalBranch
    else delayThen P executeSlot pc (pc + 4) .conditionalBranch
  | .bfS =>
    if !cpu.t then
      directBranch i pc fun target => delayThen P executeSlot pc target .conditionalBranch
    else delayThen P executeSlot pc (pc + 4) .conditionalBranch
  | .jmp => delayThen P executeSlot pc (cpu.r i.branchRegister) .dynamicBranch
  | .jsr => callDelayThen P executeSlot pc (cpu.r i.branchRegister)
  | .rts => delayThen P executeSlot pc cpu.pr .return
  | .unknown =>
    Guest.modifyCpu fun cpu => raiseIllegalInstruction P.manualResetSink cpu pc owner
    return exceptionResult
  | _ => executeData P H i pc owner

/-- Fetch and decode, with the cycles of the instruction accounted for. -/
def fetchDecode (pc : BitVec 32) : Guest M DecodedInstruction := fun σ =>
  match P.fetchU16 σ.cpu.privilegedMode σ.mem pc with
  | (.error e, mem) => (.error (.memory e), { σ with mem := P.addGuestInstructionCycles 1 mem })
  | (.ok opcode, mem) => (.ok (Sh4.decode opcode), { σ with mem := mem })

def chargeCycles (i : DecodedInstruction) : Guest M Unit := do
  let timing := Sh4.instructionTiming i
  if timing.requiresCycleFlush then
    Guest.host P.flushPendingGuestCycles
  Guest.modifyMem (P.addGuestInstructionCycles timing.guestCycles)

/-- The instruction cannot run here: unknown, privileged in user mode, or a
branch in a delay slot. -/
def isIllegal (i : DecodedInstruction) (owner : Option (BitVec 32)) (cpu : CpuState) : Bool :=
  !i.isKnown || (i.isPrivileged && !cpu.privilegedMode) || (owner.isSome && i.changesControlFlow)

/-- `execute_one` with the execution of its delay slot as a parameter. -/
def executeWith (executeSlot : Guest M StepResult) (pc : BitVec 32)
    (owner : Option (BitVec 32)) : Guest M StepResult := do
  beginAttempt pc
  let i ← fetchDecode P pc
  chargeCycles P i
  let cpu ← Guest.getCpu
  if isIllegal i owner cpu then
    Guest.modifyCpu fun cpu => raiseIllegalInstruction P.manualResetSink cpu pc owner
    return exceptionResult
  if cpu.fpuDisabled && isFpuInstruction i then
    Guest.modifyCpu fun cpu => raiseFpuDisabled P.manualResetSink cpu pc owner
    return exceptionResult
  Guest.modifyCpu fun cpu => cpu.withPc (pc + 2)
  executeInstruction P H executeSlot i pc owner

/-- The slot at `pc` of the branch at `owner`. A branch there is illegal, so the
recursion of the source ends here. -/
def executeSlot (pc owner : BitVec 32) : Guest M StepResult :=
  executeWith P H (Guest.throwFault (.host "")) pc (some owner)

/-- `execute_one`. -/
def executeOne (pc : BitVec 32) (owner : Option (BitVec 32)) : Guest M StepResult :=
  executeWith P H (executeSlot P H (pc + 2) pc) pc owner

/-- The body of the loop of `execute_dynamic_sh4_block`. -/
def step : Guest M StepResult := do
  let cpu ← Guest.getCpu
  Guest.catchMemory (executeOne P H cpu.pc none) fun error => do
    Guest.modifyCpu fun cpu' => enterMemoryException P.manualResetSink cpu' error cpu.pc none
    return exceptionResult

/-- The loop of `execute_dynamic_sh4_block`; it counts attempts from
`attemptsBefore` on. Every round attempts an instruction, so the budget bounds
the fuel a run needs. -/
def blockLoop (attemptsBefore maximumInstructions : BitVec 64) : Nat → Guest M BlockEndKind
  | 0 => Guest.throwFault (.host "")
  | fuel + 1 => do
    let cpu ← Guest.getCpu
    if (cpu.attemptedGuestInstructions - attemptsBefore).ult maximumInstructions then
      let result ← step P H
      if result.controlFlow then
        return result.endKind
      blockLoop attemptsBefore maximumInstructions fuel
    else
      return .dynamicBranch

def executeDynamicSh4Block (fuel : Nat) (maximumInstructions : BitVec 64) :
    Guest M BlockEndKind := do
  if maximumInstructions = 0 then
    Guest.throwFault (.host "Dynamischer SH-4-Block braucht ein Instruktionsbudget.")
  else
    let cpu ← Guest.getCpu
    blockLoop P H cpu.attemptedGuestInstructions maximumInstructions fuel

end
end Interpreter
end KatanaRecomp.Runtime
