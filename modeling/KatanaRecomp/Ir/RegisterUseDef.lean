import KatanaRecomp.Ir.Effects

/-! # The registers an instruction uses and defines

The scalar registers that native code may keep in host locals, as bits of a
mask, and for every operation the registers it reads and writes. -/
namespace KatanaRecomp.Ir

inductive TrackedRegister
  | r0 | r1 | r2 | r3 | r4 | r5 | r6 | r7 | r8 | r9 | r10 | r11 | r12 | r13 | r14 | r15
  | t | pr | gbr | mach | macl | fpul

abbrev RegisterMask := BitVec 32

/-- The value of the enumerator. -/
def TrackedRegister.index : TrackedRegister → Nat
  | .r0 => 0 | .r1 => 1 | .r2 => 2 | .r3 => 3 | .r4 => 4 | .r5 => 5 | .r6 => 6 | .r7 => 7
  | .r8 => 8 | .r9 => 9 | .r10 => 10 | .r11 => 11 | .r12 => 12 | .r13 => 13 | .r14 => 14
  | .r15 => 15 | .t => 16 | .pr => 17 | .gbr => 18 | .mach => 19 | .macl => 20 | .fpul => 21

def registerBit (value : TrackedRegister) : RegisterMask := 1#32 <<< value.index

def gprRegisterBit (index : BitVec 8) : RegisterMask :=
  if index.toNat < 16 then 1#32 <<< index.toNat else 0

def generalRegisterMask : RegisterMask := 0xffff
def scalarRegisterMask : RegisterMask :=
  registerBit .t ||| registerBit .pr ||| registerBit .gbr ||| registerBit .mach |||
    registerBit .macl ||| registerBit .fpul
def trackedRegisterMask : RegisterMask := generalRegisterMask ||| scalarRegisterMask

def registerMaskContains (mask : RegisterMask) (value : TrackedRegister) : Bool :=
  mask &&& registerBit value != 0

structure InstructionRegisterUseDef where
  uses : RegisterMask := 0
  defs : RegisterMask := 0

namespace InstructionRegisterUseDef

def useGpr (result : InstructionRegisterUseDef) (index : BitVec 8) : InstructionRegisterUseDef :=
  { result with uses := result.uses ||| gprRegisterBit index }

def defGpr (result : InstructionRegisterUseDef) (index : BitVec 8) : InstructionRegisterUseDef :=
  { result with defs := result.defs ||| gprRegisterBit index }

def useMask (result : InstructionRegisterUseDef) (mask : RegisterMask) :
    InstructionRegisterUseDef := { result with uses := result.uses ||| mask }

def defMask (result : InstructionRegisterUseDef) (mask : RegisterMask) :
    InstructionRegisterUseDef := { result with defs := result.defs ||| mask }

def useDestination (result : InstructionRegisterUseDef) (i : Instruction) :=
  result.useGpr i.destinationRegister

def defDestination (result : InstructionRegisterUseDef) (i : Instruction) :=
  result.defGpr i.destinationRegister

def useSource (result : InstructionRegisterUseDef) (i : Instruction) :=
  result.useGpr i.sourceRegister

def useBinaryAndDefDestination (result : InstructionRegisterUseDef) (i : Instruction) :=
  ((result.useDestination i).useSource i).defDestination i

def useUnaryAndDefDestination (result : InstructionRegisterUseDef) (i : Instruction) :=
  (result.useSource i).defDestination i

end InstructionRegisterUseDef

def specialRegisterBit : SpecialRegister → RegisterMask
  | .pr => registerBit .pr
  | .gbr => registerBit .gbr
  | .mach => registerBit .mach
  | .macl => registerBit .macl
  | .fpul => registerBit .fpul
  | _ => 0

/-- A `Full` effect contains every named bit. -/
def containsStatusBit (effects bit : BitVec 8) : Bool :=
  let named := StatusRegisterBit.t ||| StatusRegisterBit.s ||| StatusRegisterBit.q |||
    StatusRegisterBit.m
  if effects &&& StatusRegisterBit.full != 0 && bit != 0 && bit &&& ~~~named == 0 then true
  else bit != 0 && effects &&& bit == bit

def containsAccumulatorRegister (effects accumulator : BitVec 8) : Bool :=
  accumulator != 0 && effects &&& accumulator == accumulator

namespace InstructionRegisterUseDef

def addStatusEffects (result : InstructionRegisterUseDef) (effects : StatusRegisterEffects) :
    InstructionRegisterUseDef where
  uses := result.uses |||
    if containsStatusBit effects.reads StatusRegisterBit.t then registerBit .t else 0
  defs := result.defs |||
    if containsStatusBit effects.writes StatusRegisterBit.t then registerBit .t else 0

def addAccumulatorEffects (result : InstructionRegisterUseDef) (effects : AccumulatorEffects) :
    InstructionRegisterUseDef :=
  let reads := effects.readsIfSClear ||| effects.readsIfSSet
  let writes := effects.writesIfSClear ||| effects.writesIfSSet
  let bits := fun (effects : BitVec 8) =>
    (if containsAccumulatorRegister effects AccumulatorRegister.mach then registerBit .mach
      else 0) |||
    if containsAccumulatorRegister effects AccumulatorRegister.macl then registerBit .macl else 0
  { uses := result.uses ||| bits reads, defs := result.defs ||| bits writes }

def addCanonicalScalarEffects (result : InstructionRegisterUseDef) (i : Instruction) :
    InstructionRegisterUseDef := (((result.addStatusEffects i.statusEffects).addStatusEffects
    (instructionStatusEffects i.operation i.specialRegister)).addAccumulatorEffects
      i.accumulatorEffects).addAccumulatorEffects
        (operationAccumulatorEffects i.operation i.specialRegister)

end InstructionRegisterUseDef

open InstructionRegisterUseDef in
/-- The switch over the operation, the effects every operation shares apart. -/
def operationRegisterUseDef (i : Instruction) : InstructionRegisterUseDef :=
  let result : InstructionRegisterUseDef := {}
  match i.operation with
  -- The illegal-instruction path is an architectural boundary: nothing is lost across it.
  | .unknown => { uses := trackedRegisterMask, defs := trackedRegisterMask }
  | .nop | .clearS | .setS | .clearT | .setT | .clearMac | .divideInitializeUnsigned | .loadTlb
  | .sleep | .returnFromException | .trapAlways | .branch | .fmovRegister | .fldi0 | .fldi1
  | .fabs | .fadd | .fcmpEqual | .fcmpGreater | .fdiv | .fmac | .fmul | .fneg | .fsqrt | .fsrra
  | .fipr | .ftrv | .fsub | .frchg | .fschg => result
  | .movImmediate | .constant32 | .loadWordSignedPcRelative | .loadLongPcRelative =>
    result.defDestination i
  | .moveAddressPcRelative => result.defGpr 0
  | .addImmediate | .decrementAndTest | .shiftLogicalLeftOne | .shiftLogicalRightOne
  | .shiftArithmeticLeftOne | .shiftArithmeticRightOne | .shiftLogicalLeftTwo
  | .shiftLogicalLeftEight | .shiftLogicalLeftSixteen | .shiftLogicalRightTwo
  | .shiftLogicalRightEight | .shiftLogicalRightSixteen | .rotateLeft | .rotateRight
  | .rotateLeftThroughT | .rotateRightThroughT => (result.useDestination i).defDestination i
  | .movRegister | .negateRegister | .notRegister | .negateWithCarry | .extendUnsignedByte
  | .extendUnsignedWord | .extendSignedByte | .extendSignedWord | .swapBytes | .swapWords =>
    result.useUnaryAndDefDestination i
  | .addRegister | .subRegister | .addWithCarry | .addWithOverflow | .subWithCarry
  | .subWithOverflow | .extractMiddle | .shiftArithmeticDynamic | .shiftLogicalDynamic
  | .divideStep | .andRegister | .orRegister | .xorRegister => result.useBinaryAndDefDestination i
  | .multiplyLong | .multiplySignedWord | .multiplyUnsignedWord | .doubleMultiplySignedLong
  | .doubleMultiplyUnsignedLong | .divideInitializeSigned | .compareEqualRegister
  | .compareHigherOrSame | .compareGreaterOrEqual | .compareHigher | .compareGreaterThan
  | .compareString | .testRegister => (result.useDestination i).useSource i
  | .multiplyAccumulateWord | .multiplyAccumulateLong =>
    (result.useBinaryAndDefDestination i).defGpr i.sourceRegister
  | .andImmediate | .orImmediate | .xorImmediate => (result.useGpr 0).defGpr 0
  | .compareEqualImmediate | .testImmediate => result.useGpr 0
  | .comparePositiveOrZero | .comparePositive => result.useDestination i
  | .moveT => result.defDestination i
  | .testByteImmediate | .andByteImmediate | .xorByteImmediate | .orByteImmediate =>
    (result.useGpr 0).useMask (registerBit .gbr)
  | .testAndSetByte | .prefetch | .ocbi | .ocbp | .ocbwb => result.useSource i
  | .loadByteSigned | .loadWordSigned | .loadLong | .loadByteSignedDisplacement
  | .loadWordSignedDisplacement | .loadLongDisplacement =>
    (i.forwardedValueRegister.elim (result.useSource i) fun register =>
      (result.useSource i).useGpr register).defDestination i
  | .storeByte | .storeWord | .storeLong | .storeByteDisplacement | .storeWordDisplacement
  | .storeLongDisplacement => (result.useDestination i).useSource i
  | .storeBytePreDecrement | .storeWordPreDecrement | .storeLongPreDecrement =>
    ((result.useDestination i).useSource i).defDestination i
  | .loadByteSignedPostIncrement | .loadWordSignedPostIncrement | .loadLongPostIncrement =>
    ((result.useSource i).defGpr i.sourceRegister).defDestination i
  | .storeByteR0Indexed | .storeWordR0Indexed | .storeLongR0Indexed =>
    ((result.useGpr 0).useDestination i).useSource i
  | .loadByteSignedR0Indexed | .loadWordSignedR0Indexed | .loadLongR0Indexed =>
    ((result.useGpr 0).useSource i).defDestination i
  | .storeByteGbrDisplacement | .storeWordGbrDisplacement | .storeLongGbrDisplacement =>
    (result.useGpr 0).useMask (registerBit .gbr)
  | .loadByteSignedGbrDisplacement | .loadWordSignedGbrDisplacement
  | .loadLongGbrDisplacement => (result.useMask (registerBit .gbr)).defGpr 0
  | .storeSpecialRegister =>
    (result.useMask (specialRegisterBit i.specialRegister)).defDestination i
  | .storeSpecialRegisterPreDecrement =>
    ((result.useMask (specialRegisterBit i.specialRegister)).useDestination i).defDestination i
  | .loadSpecialRegister => (result.useSource i).defMask (specialRegisterBit i.specialRegister)
  | .loadSpecialRegisterPostIncrement =>
    ((result.useSource i).defGpr i.sourceRegister).defMask (specialRegisterBit i.specialRegister)
  | .movcaLong => (result.useGpr 0).useDestination i
  | .fmovLoad => result.useSource i
  | .fmovLoadPostIncrement => (result.useSource i).defGpr i.sourceRegister
  | .fmovLoadR0Indexed => (result.useGpr 0).useSource i
  | .fmovStore => result.useDestination i
  | .fmovStorePreDecrement => (result.useDestination i).defDestination i
  | .fmovStoreR0Indexed => (result.useGpr 0).useDestination i
  | .flds | .ftrc | .fcnvDoubleToSingle => result.defMask (registerBit .fpul)
  | .fsts | .floatFromFpul | .fsca | .fcnvSingleToDouble => result.useMask (registerBit .fpul)
  | .call => result.defMask (registerBit .pr)
  | .branchIfTrue | .branchIfFalse => result
  | .jumpRegister => result.useGpr i.branchRegister
  | .callRegister => (result.useGpr i.branchRegister).defMask (registerBit .pr)
  | .return => result.useMask (registerBit .pr)

/-- The scalar registers an instruction reads and writes. -/
def instructionRegisterUseDef (i : Instruction) : InstructionRegisterUseDef :=
  let result := (operationRegisterUseDef i).addCanonicalScalarEffects i
  { uses := result.uses &&& trackedRegisterMask, defs := result.defs &&& trackedRegisterMask }

/-! ## Masks as sets of registers -/

theorem index_lt (register : TrackedRegister) : register.index < 22 := by
  cases register <;> decide

/-- A mask contains a register where its bit is set. -/
theorem registerMaskContains_eq (mask : RegisterMask) (register : TrackedRegister) :
    registerMaskContains mask register = mask.getLsbD register.index := by
  have hbit : registerBit register ≠ 0 := by
    cases register <;> decide
  unfold registerMaskContains
  unfold registerBit at hbit ⊢
  rw [← BitVec.twoPow_eq] at hbit ⊢
  rw [BitVec.and_twoPow]
  cases mask.getLsbD register.index
  · rfl
  · simpa using hbit

@[simp] theorem registerMaskContains_zero (register : TrackedRegister) :
    registerMaskContains 0#32 register = false := by
  simp [registerMaskContains]

@[simp] theorem registerMaskContains_or (left right : RegisterMask) (register : TrackedRegister) :
    registerMaskContains (left ||| right) register =
      (registerMaskContains left register || registerMaskContains right register) := by
  simp [registerMaskContains_eq]

@[simp] theorem registerMaskContains_and (left right : RegisterMask) (register : TrackedRegister) :
    registerMaskContains (left &&& right) register =
      (registerMaskContains left register && registerMaskContains right register) := by
  simp [registerMaskContains_eq]

@[simp] theorem registerMaskContains_not (mask : RegisterMask) (register : TrackedRegister) :
    registerMaskContains (~~~mask) register = !registerMaskContains mask register := by
  have hlt : register.index < 32 := Nat.lt_trans (index_lt register) (by decide)
  simp [registerMaskContains_eq, hlt]

@[simp] theorem registerMaskContains_tracked (register : TrackedRegister) :
    registerMaskContains trackedRegisterMask register = true := by
  cases register <;> decide

end KatanaRecomp.Ir
