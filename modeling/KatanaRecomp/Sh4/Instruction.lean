import KatanaRecomp.Lib.Word

/-! # Decoded SH-4 instructions

The decoder's view of one 16-bit opcode. Register numbers are four-bit fields
of the opcode, so they are `Fin 16` here; an `int32_t` is its 32 bits. -/
namespace KatanaRecomp.Sh4

inductive SpecialRegister
  | none | mach | macl | pr | fpul | fpscr | sr | gbr | vbr | ssr | spc | sgr | dbr | bank0
  | bank1 | bank2 | bank3 | bank4 | bank5 | bank6 | bank7
  deriving DecidableEq

inductive InstructionKind
  | unknown | nop | rts | movImmediate | addImmediate | movRegister | addRegister | subRegister
  | negateRegister | notRegister | addWithCarry | addWithOverflow | subWithCarry
  | subWithOverflow | negateWithCarry | extendUnsignedByte | extendUnsignedWord
  | extendSignedByte | extendSignedWord | swapBytes | swapWords | extractMiddle
  | decrementAndTest | moveT | shiftLogicalLeftOne | shiftLogicalRightOne
  | shiftArithmeticLeftOne | shiftArithmeticRightOne | shiftLogicalLeftTwo
  | shiftLogicalLeftEight | shiftLogicalLeftSixteen | shiftLogicalRightTwo
  | shiftLogicalRightEight | shiftLogicalRightSixteen | rotateLeft | rotateRight
  | rotateLeftThroughT | rotateRightThroughT | shiftArithmeticDynamic | shiftLogicalDynamic
  | multiplyLong | multiplySignedWord | multiplyUnsignedWord | doubleMultiplySignedLong
  | doubleMultiplyUnsignedLong | multiplyAccumulateWord | multiplyAccumulateLong
  | divideInitializeUnsigned | divideInitializeSigned | divideStep | clearMac | andRegister
  | orRegister | xorRegister | andImmediate | orImmediate | xorImmediate | clearS | setS
  | clearT | setT | compareEqualImmediate | compareEqualRegister | compareHigherOrSame
  | compareGreaterOrEqual | compareHigher | compareGreaterThan | comparePositiveOrZero
  | comparePositive | compareString | testImmediate | testRegister | testByteImmediate
  | andByteImmediate | xorByteImmediate | orByteImmediate | testAndSetByte | movByteStore
  | movWordStore | movLongStore | movByteLoad | movWordLoad | movLongLoad
  | movByteStorePreDecrement | movWordStorePreDecrement | movLongStorePreDecrement
  | movByteLoadPostIncrement | movWordLoadPostIncrement | movLongLoadPostIncrement
  | movByteStoreDisplacement | movWordStoreDisplacement | movLongStoreDisplacement
  | movByteLoadDisplacement | movWordLoadDisplacement | movLongLoadDisplacement
  | movByteStoreR0Indexed | movWordStoreR0Indexed | movLongStoreR0Indexed | movByteLoadR0Indexed
  | movWordLoadR0Indexed | movLongLoadR0Indexed | movByteStoreGbrDisplacement
  | movWordStoreGbrDisplacement | movLongStoreGbrDisplacement | movByteLoadGbrDisplacement
  | movWordLoadGbrDisplacement | movLongLoadGbrDisplacement | movWordLoadPcRelative
  | movLongLoadPcRelative | moveAddressPcRelative | storeSpecialRegister
  | storeSpecialRegisterPreDecrement | loadSpecialRegister | loadSpecialRegisterPostIncrement
  | trapAlways | returnFromException | sleep | loadTlb | prefetch | ocbi | ocbp | ocbwb
  | movcaLong | bra | bsr | braf | bsrf | bt | bf | btS | bfS | jmp | jsr | fmovRegister
  | fmovLoad | fmovLoadPostIncrement | fmovLoadR0Indexed | fmovStore | fmovStorePreDecrement
  | fmovStoreR0Indexed | fldi0 | fldi1 | flds | fsts | fabs | fadd | fcmpEqual | fcmpGreater
  | fdiv | floatFromFpul | fmac | fmul | fneg | fsqrt | fsrra | fsca | fipr | ftrv | fsub | ftrc
  | fcnvDoubleToSingle | fcnvSingleToDouble | frchg | fschg
  deriving DecidableEq

inductive ControlFlowKind
  | none | unconditionalBranch | conditionalBranch | call | return | indirectBranch
  | indirectCall | trap | exceptionReturn | halt
  deriving DecidableEq

structure DecodedInstruction where
  opcode : BitVec 16 := 0
  kind : InstructionKind := .unknown
  destinationRegister : Fin 16 := 0
  sourceRegister : Fin 16 := 0
  branchRegister : Fin 16 := 0
  immediate : BitVec 32 := 0
  displacement : BitVec 32 := 0
  specialRegister : SpecialRegister := .none
  controlFlow : ControlFlowKind := .none
  hasDelaySlot : Bool := false
  isPrivileged : Bool := false
  deriving DecidableEq

namespace DecodedInstruction

def isKnown (i : DecodedInstruction) : Bool := i.kind != .unknown

def changesControlFlow (i : DecodedInstruction) : Bool := i.controlFlow != .none

end DecodedInstruction
end KatanaRecomp.Sh4
