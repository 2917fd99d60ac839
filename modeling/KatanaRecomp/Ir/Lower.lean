import KatanaRecomp.Sh4.Decoder
import KatanaRecomp.Ir.Effects

/-! # Lowering one instruction -/
namespace KatanaRecomp.Ir
open Sh4 (DisassemblyLine)

def lowerSpecialRegister : Sh4.SpecialRegister → SpecialRegister
  | .none => .none
  | .mach => .mach
  | .macl => .macl
  | .pr => .pr
  | .fpul => .fpul
  | .fpscr => .fpscr
  | .sr => .sr
  | .gbr => .gbr
  | .vbr => .vbr
  | .ssr => .ssr
  | .spc => .spc
  | .sgr => .sgr
  | .dbr => .dbr
  | .bank0 => .bank0
  | .bank1 => .bank1
  | .bank2 => .bank2
  | .bank3 => .bank3
  | .bank4 => .bank4
  | .bank5 => .bank5
  | .bank6 => .bank6
  | .bank7 => .bank7

def lowerOperation : Sh4.InstructionKind → Operation
  | .nop => .nop
  | .movImmediate => .movImmediate
  | .addImmediate => .addImmediate
  | .movRegister => .movRegister
  | .addRegister => .addRegister
  | .subRegister => .subRegister
  | .negateRegister => .negateRegister
  | .notRegister => .notRegister
  | .addWithCarry => .addWithCarry
  | .addWithOverflow => .addWithOverflow
  | .subWithCarry => .subWithCarry
  | .subWithOverflow => .subWithOverflow
  | .negateWithCarry => .negateWithCarry
  | .extendUnsignedByte => .extendUnsignedByte
  | .extendUnsignedWord => .extendUnsignedWord
  | .extendSignedByte => .extendSignedByte
  | .extendSignedWord => .extendSignedWord
  | .swapBytes => .swapBytes
  | .swapWords => .swapWords
  | .extractMiddle => .extractMiddle
  | .decrementAndTest => .decrementAndTest
  | .moveT => .moveT
  | .shiftLogicalLeftOne => .shiftLogicalLeftOne
  | .shiftLogicalRightOne => .shiftLogicalRightOne
  | .shiftArithmeticLeftOne => .shiftArithmeticLeftOne
  | .shiftArithmeticRightOne => .shiftArithmeticRightOne
  | .shiftLogicalLeftTwo => .shiftLogicalLeftTwo
  | .shiftLogicalLeftEight => .shiftLogicalLeftEight
  | .shiftLogicalLeftSixteen => .shiftLogicalLeftSixteen
  | .shiftLogicalRightTwo => .shiftLogicalRightTwo
  | .shiftLogicalRightEight => .shiftLogicalRightEight
  | .shiftLogicalRightSixteen => .shiftLogicalRightSixteen
  | .rotateLeft => .rotateLeft
  | .rotateRight => .rotateRight
  | .rotateLeftThroughT => .rotateLeftThroughT
  | .rotateRightThroughT => .rotateRightThroughT
  | .shiftArithmeticDynamic => .shiftArithmeticDynamic
  | .shiftLogicalDynamic => .shiftLogicalDynamic
  | .multiplyLong => .multiplyLong
  | .multiplySignedWord => .multiplySignedWord
  | .multiplyUnsignedWord => .multiplyUnsignedWord
  | .doubleMultiplySignedLong => .doubleMultiplySignedLong
  | .doubleMultiplyUnsignedLong => .doubleMultiplyUnsignedLong
  | .multiplyAccumulateWord => .multiplyAccumulateWord
  | .multiplyAccumulateLong => .multiplyAccumulateLong
  | .divideInitializeUnsigned => .divideInitializeUnsigned
  | .divideInitializeSigned => .divideInitializeSigned
  | .divideStep => .divideStep
  | .clearMac => .clearMac
  | .andRegister => .andRegister
  | .orRegister => .orRegister
  | .xorRegister => .xorRegister
  | .andImmediate => .andImmediate
  | .orImmediate => .orImmediate
  | .xorImmediate => .xorImmediate
  | .clearS => .clearS
  | .setS => .setS
  | .clearT => .clearT
  | .setT => .setT
  | .compareEqualImmediate => .compareEqualImmediate
  | .compareEqualRegister => .compareEqualRegister
  | .compareHigherOrSame => .compareHigherOrSame
  | .compareGreaterOrEqual => .compareGreaterOrEqual
  | .compareHigher => .compareHigher
  | .compareGreaterThan => .compareGreaterThan
  | .comparePositiveOrZero => .comparePositiveOrZero
  | .comparePositive => .comparePositive
  | .compareString => .compareString
  | .testImmediate => .testImmediate
  | .testRegister => .testRegister
  | .testByteImmediate => .testByteImmediate
  | .andByteImmediate => .andByteImmediate
  | .xorByteImmediate => .xorByteImmediate
  | .orByteImmediate => .orByteImmediate
  | .testAndSetByte => .testAndSetByte
  | .movByteLoad => .loadByteSigned
  | .movWordLoad => .loadWordSigned
  | .movLongLoad => .loadLong
  | .movByteStore => .storeByte
  | .movWordStore => .storeWord
  | .movLongStore => .storeLong
  | .movByteStorePreDecrement => .storeBytePreDecrement
  | .movWordStorePreDecrement => .storeWordPreDecrement
  | .movLongStorePreDecrement => .storeLongPreDecrement
  | .movByteLoadPostIncrement => .loadByteSignedPostIncrement
  | .movWordLoadPostIncrement => .loadWordSignedPostIncrement
  | .movLongLoadPostIncrement => .loadLongPostIncrement
  | .movByteStoreDisplacement => .storeByteDisplacement
  | .movWordStoreDisplacement => .storeWordDisplacement
  | .movLongStoreDisplacement => .storeLongDisplacement
  | .movByteLoadDisplacement => .loadByteSignedDisplacement
  | .movWordLoadDisplacement => .loadWordSignedDisplacement
  | .movLongLoadDisplacement => .loadLongDisplacement
  | .movByteStoreR0Indexed => .storeByteR0Indexed
  | .movWordStoreR0Indexed => .storeWordR0Indexed
  | .movLongStoreR0Indexed => .storeLongR0Indexed
  | .movByteLoadR0Indexed => .loadByteSignedR0Indexed
  | .movWordLoadR0Indexed => .loadWordSignedR0Indexed
  | .movLongLoadR0Indexed => .loadLongR0Indexed
  | .movByteStoreGbrDisplacement => .storeByteGbrDisplacement
  | .movWordStoreGbrDisplacement => .storeWordGbrDisplacement
  | .movLongStoreGbrDisplacement => .storeLongGbrDisplacement
  | .movByteLoadGbrDisplacement => .loadByteSignedGbrDisplacement
  | .movWordLoadGbrDisplacement => .loadWordSignedGbrDisplacement
  | .movLongLoadGbrDisplacement => .loadLongGbrDisplacement
  | .movWordLoadPcRelative => .loadWordSignedPcRelative
  | .movLongLoadPcRelative => .loadLongPcRelative
  | .moveAddressPcRelative => .moveAddressPcRelative
  | .storeSpecialRegister => .storeSpecialRegister
  | .storeSpecialRegisterPreDecrement => .storeSpecialRegisterPreDecrement
  | .loadSpecialRegister => .loadSpecialRegister
  | .loadSpecialRegisterPostIncrement => .loadSpecialRegisterPostIncrement
  | .trapAlways => .trapAlways
  | .returnFromException => .returnFromException
  | .sleep => .sleep
  | .loadTlb => .loadTlb
  | .prefetch => .prefetch
  | .ocbi => .ocbi
  | .ocbp => .ocbp
  | .ocbwb => .ocbwb
  | .movcaLong => .movcaLong
  | .fmovRegister => .fmovRegister
  | .fmovLoad => .fmovLoad
  | .fmovLoadPostIncrement => .fmovLoadPostIncrement
  | .fmovLoadR0Indexed => .fmovLoadR0Indexed
  | .fmovStore => .fmovStore
  | .fmovStorePreDecrement => .fmovStorePreDecrement
  | .fmovStoreR0Indexed => .fmovStoreR0Indexed
  | .fldi0 => .fldi0
  | .fldi1 => .fldi1
  | .flds => .flds
  | .fsts => .fsts
  | .fabs => .fabs
  | .fadd => .fadd
  | .fcmpEqual => .fcmpEqual
  | .fcmpGreater => .fcmpGreater
  | .fdiv => .fdiv
  | .floatFromFpul => .floatFromFpul
  | .fmac => .fmac
  | .fmul => .fmul
  | .fneg => .fneg
  | .fsqrt => .fsqrt
  | .fsrra => .fsrra
  | .fsca => .fsca
  | .fipr => .fipr
  | .ftrv => .ftrv
  | .fsub => .fsub
  | .ftrc => .ftrc
  | .fcnvDoubleToSingle => .fcnvDoubleToSingle
  | .fcnvSingleToDouble => .fcnvSingleToDouble
  | .frchg => .frchg
  | .fschg => .fschg
  | .bra => .branch
  | .bsr => .call
  | .braf => .jumpRegister
  | .bsrf => .callRegister
  | .bt => .branchIfTrue
  | .btS => .branchIfTrue
  | .bf => .branchIfFalse
  | .bfS => .branchIfFalse
  | .jmp => .jumpRegister
  | .jsr => .callRegister
  | .rts => .return
  | .unknown => .unknown

def loweredEffectiveAddress (operation : Operation) (address displacement : BitVec 32) :
    Option (BitVec 32) :=
  match operation with
  | .loadWordSignedPcRelative => some (address + 4 + displacement)
  | .loadLongPcRelative | .moveAddressPcRelative =>
    some ((address &&& 0xFFFFFFFC) + 4 + displacement)
  | _ => none

/-- The position decides: an opcode in a slot stays a slot even where it would
own one itself. -/
def loweredDelaySlot (line : DisassemblyLine) : DelaySlotRelation :=
  if line.isDelaySlot then ⟨.slot, some (line.address - 2)⟩
  else if line.instruction.hasDelaySlot then ⟨.owner, some (line.address + 2)⟩
  else {}

def lowerInstruction (line : DisassemblyLine) : Instruction :=
  let operation := lowerOperation line.instruction.kind
  let specialRegister := lowerSpecialRegister line.instruction.specialRegister
  let destinationRegister := registerByte line.instruction.destinationRegister
  let sourceRegister := registerByte line.instruction.sourceRegister
  { sourceAddress := line.address
    originalOpcode := line.opcode
    originalOperation := operation
    operation := operation
    widths := operationOperandWidths operation
    statusEffects := instructionStatusEffects operation specialRegister
    memoryEffects := instructionMemoryEffects operation destinationRegister sourceRegister
    accumulatorEffects := operationAccumulatorEffects operation specialRegister
    destinationRegister := destinationRegister
    sourceRegister := sourceRegister
    branchRegister := registerByte line.instruction.branchRegister
    immediate := line.instruction.immediate
    displacement := line.instruction.displacement
    specialRegister := specialRegister
    effectiveAddress := loweredEffectiveAddress operation line.address line.instruction.displacement
    targetAddress := line.targetAddress
    dynamicTargetClass :=
      match operation with
      | .jumpRegister | .callRegister => .unresolved
      | _ => .notApplicable
    delaySlot := loweredDelaySlot line
    isPrivileged := line.instruction.isPrivileged
    branchRegisterRelative :=
      match line.instruction.kind with
      | .braf | .bsrf => true
      | _ => false }

end KatanaRecomp.Ir
