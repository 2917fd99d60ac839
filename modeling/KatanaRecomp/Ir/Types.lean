import KatanaRecomp.Lib.Word

/-! # The intermediate representation

`std::uint8_t` register numbers are eight-bit vectors: that they name one of
the sixteen general registers is for the verifier to say. An `int32_t` is its
32 bits, and the bit-set enumerations are vectors with one bit an enumerator. -/
namespace KatanaRecomp.Ir

/-- Decides membership in a list of addresses. -/
instance addressLawfulBEq : LawfulBEq (BitVec 32) := inferInstance

inductive OperandWidth
  | none | bit1 | bits4 | bits8 | bits12 | bits16 | bits32 | bits64
  deriving DecidableEq

structure OperandWidths where
  result : OperandWidth := .none
  input : OperandWidth := .none
  immediate : OperandWidth := .none
  displacement : OperandWidth := .none
  memory : OperandWidth := .none
  address : OperandWidth := .none
  deriving DecidableEq

namespace StatusRegisterBit

def none : BitVec 8 := 0
def t : BitVec 8 := 0x01
def s : BitVec 8 := 0x02
def q : BitVec 8 := 0x04
def m : BitVec 8 := 0x08
def full : BitVec 8 := 0x80

end StatusRegisterBit

structure StatusRegisterEffects where
  reads : BitVec 8 := StatusRegisterBit.none
  writes : BitVec 8 := StatusRegisterBit.none
  deriving DecidableEq

inductive MemoryAccessKind
  | none | read | write
  deriving DecidableEq

inductive AddressUpdateKind
  | none | preDecrement | postIncrement
  deriving DecidableEq

inductive MemoryRegionKind
  | unknown | normalRam | volatile
  deriving DecidableEq

structure MemoryEffects where
  access : MemoryAccessKind := .none
  width : OperandWidth := .none
  accessCount : BitVec 8 := 0
  addressUpdate : AddressUpdateKind := .none
  updatedRegisterCount : BitVec 8 := 0
  region : MemoryRegionKind := .unknown
  deriving DecidableEq

namespace AccumulatorRegister

def none : BitVec 8 := 0
def mach : BitVec 8 := 0x01
def macl : BitVec 8 := 0x02

end AccumulatorRegister

structure AccumulatorEffects where
  readsIfSClear : BitVec 8 := AccumulatorRegister.none
  readsIfSSet : BitVec 8 := AccumulatorRegister.none
  writesIfSClear : BitVec 8 := AccumulatorRegister.none
  writesIfSSet : BitVec 8 := AccumulatorRegister.none
  deriving DecidableEq

inductive DelaySlotRole
  | none | owner | slot
  deriving DecidableEq

structure DelaySlotRelation where
  role : DelaySlotRole := .none
  counterpartAddress : Option (BitVec 32) := Option.none
  deriving DecidableEq

inductive SpecialRegister
  | none | mach | macl | pr | fpul | fpscr | sr | gbr | vbr | ssr | spc | sgr | dbr | bank0
  | bank1 | bank2 | bank3 | bank4 | bank5 | bank6 | bank7
  deriving DecidableEq

inductive Operation
  | unknown | nop | movImmediate | constant32 | addImmediate | movRegister | addRegister
  | subRegister | negateRegister | notRegister | addWithCarry | addWithOverflow | subWithCarry
  | subWithOverflow | negateWithCarry | extendUnsignedByte | extendUnsignedWord
  | extendSignedByte | extendSignedWord | swapBytes | swapWords | extractMiddle
  | decrementAndTest | moveT | shiftLogicalLeftOne | shiftLogicalRightOne
  | shiftArithmeticLeftOne | shiftArithmeticRightOne | shiftLogicalLeftTwo
  | shiftLogicalLeftEight | shiftLogicalLeftSixteen | shiftLogicalRightTwo
  | shiftLogicalRightEight | shiftLogicalRightSixteen | rotateLeft | rotateRight
  | rotateLeftThroughT | rotateRightThroughT | shiftArithmeticDynamic | shiftLogicalDynamic
  | multiplyLong | multiplySignedWord | multiplyUnsignedWord | doubleMultiplySignedLong
  | doubleMultiplyUnsignedLong | multiplyAccumulateWord | multiplyAccumulateLong
  | divideInitializeUnsigned | divideInitializeSigned | divideStep | clearMac | andRegister
  | orRegister | xorRegister | andImmediate | orImmediate | xorImmediate | clearS | setS
  | clearT | setT | compareEqualImmediate | compareEqualRegister | compareHigherOrSame
  | compareGreaterOrEqual | compareHigher | compareGreaterThan | comparePositiveOrZero
  | comparePositive | compareString | testImmediate | testRegister | testByteImmediate
  | andByteImmediate | xorByteImmediate | orByteImmediate | testAndSetByte | loadByteSigned
  | loadWordSigned | loadLong | storeByte | storeWord | storeLong | storeBytePreDecrement
  | storeWordPreDecrement | storeLongPreDecrement | loadByteSignedPostIncrement
  | loadWordSignedPostIncrement | loadLongPostIncrement | storeByteDisplacement
  | storeWordDisplacement | storeLongDisplacement | loadByteSignedDisplacement
  | loadWordSignedDisplacement | loadLongDisplacement | storeByteR0Indexed | storeWordR0Indexed
  | storeLongR0Indexed | loadByteSignedR0Indexed | loadWordSignedR0Indexed | loadLongR0Indexed
  | storeByteGbrDisplacement | storeWordGbrDisplacement | storeLongGbrDisplacement
  | loadByteSignedGbrDisplacement | loadWordSignedGbrDisplacement | loadLongGbrDisplacement
  | loadWordSignedPcRelative | loadLongPcRelative | moveAddressPcRelative | storeSpecialRegister
  | storeSpecialRegisterPreDecrement | loadSpecialRegister | loadSpecialRegisterPostIncrement
  | trapAlways | returnFromException | sleep | loadTlb | prefetch | ocbi | ocbp | ocbwb
  | movcaLong | fmovRegister | fmovLoad | fmovLoadPostIncrement | fmovLoadR0Indexed | fmovStore
  | fmovStorePreDecrement | fmovStoreR0Indexed | fldi0 | fldi1 | flds | fsts | fabs | fadd
  | fcmpEqual | fcmpGreater | fdiv | floatFromFpul | fmac | fmul | fneg | fsqrt | fsrra | fsca
  | fipr | ftrv | fsub | ftrc | fcnvDoubleToSingle | fcnvSingleToDouble | frchg | fschg | branch
  | call | branchIfTrue | branchIfFalse | jumpRegister | callRegister | return
  deriving DecidableEq

inductive DynamicTargetClass
  | notApplicable | guardedComplete | guardedPartial | runtimeOnly | unresolved | exactGuarded
  deriving DecidableEq

/-- A register field as an index into the sixteen general registers. -/
def registerIndex (register : BitVec 8) : Fin 16 := Fin.ofNat 16 register.toNat

/-- A general register in the eight bits of a register field. -/
def registerByte (n : Fin 16) : BitVec 8 := BitVec.ofNat 8 n.val

structure Instruction where
  sourceAddress : BitVec 32 := 0
  originalOpcode : BitVec 16 := 0
  originalOperation : Operation := .unknown
  operation : Operation := .unknown
  widths : OperandWidths := {}
  statusEffects : StatusRegisterEffects := {}
  memoryEffects : MemoryEffects := {}
  accumulatorEffects : AccumulatorEffects := {}
  destinationRegister : BitVec 8 := 0
  sourceRegister : BitVec 8 := 0
  branchRegister : BitVec 8 := 0
  immediate : BitVec 32 := 0
  displacement : BitVec 32 := 0
  specialRegister : SpecialRegister := .none
  effectiveAddress : Option (BitVec 32) := Option.none
  targetAddress : Option (BitVec 32) := Option.none
  resolvedTargets : List (BitVec 32) := []
  forwardedValueRegister : Option (BitVec 8) := Option.none
  dynamicTargetClass : DynamicTargetClass := .notApplicable
  delaySlot : DelaySlotRelation := {}
  isPrivileged : Bool := false
  branchRegisterRelative : Bool := false
  deriving DecidableEq

structure BasicBlock where
  startAddress : BitVec 32 := 0
  instructions : List Instruction := []
  successors : List (BitVec 32) := []
  guardedCaseOwnershipTargets : List (BitVec 32) := []
  hasIndirectSuccessor : Bool := false

structure Function where
  entryAddress : BitVec 32 := 0
  blocks : List BasicBlock := []
  directCallees : List (BitVec 32) := []
  indirectCallSites : List (BitVec 32) := []

end KatanaRecomp.Ir
