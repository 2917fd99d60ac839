import KatanaRecomp.Ir.Types

/-! # Canonical metadata of an operation

The widths and effects that lowering records for an operation, that the
verifier demands and that the optimizer restores after each rewrite. -/
namespace KatanaRecomp.Ir

/-! ## Operand widths -/

def registerBinary : OperandWidths := ⟨.bits32, .bits32, .none, .none, .none, .none⟩

def registerUnary : OperandWidths := ⟨.bits32, .bits32, .none, .none, .none, .none⟩

def memoryLoad (memoryWidth : OperandWidth) : OperandWidths :=
  ⟨.bits32, .none, .none, .none, memoryWidth, .bits32⟩

def memoryStore (memoryWidth : OperandWidth) : OperandWidths :=
  ⟨.none, .bits32, .none, .none, memoryWidth, .bits32⟩

def operationOperandWidths (operation : Operation) : OperandWidths :=
  match operation with
  | .unknown | .nop | .clearS | .setS | .clearT | .setT | .divideInitializeUnsigned | .clearMac
  | .sleep | .loadTlb | .frchg | .fschg =>
    {}
  | .prefetch | .ocbi | .ocbp | .ocbwb =>
    ⟨.none, .bits32, .none, .none, .none, .bits32⟩
  | .movcaLong =>
    memoryStore .bits32
  | .divideInitializeSigned =>
    ⟨.none, .bits32, .none, .none, .none, .none⟩
  | .returnFromException =>
    ⟨.none, .bits32, .none, .none, .none, .bits32⟩
  | .movImmediate =>
    ⟨.bits32, .none, .bits8, .none, .none, .none⟩
  | .constant32 =>
    ⟨.bits32, .none, .bits32, .none, .none, .none⟩
  | .addImmediate | .andImmediate | .orImmediate | .xorImmediate =>
    ⟨.bits32, .bits32, .bits8, .none, .none, .none⟩
  | .compareEqualImmediate | .testImmediate =>
    ⟨.bit1, .bits32, .bits8, .none, .none, .none⟩
  | .testByteImmediate =>
    ⟨.bit1, .bits8, .bits8, .none, .bits8, .bits32⟩
  | .andByteImmediate | .xorByteImmediate | .orByteImmediate =>
    ⟨.none, .bits8, .bits8, .none, .bits8, .bits32⟩
  | .testAndSetByte =>
    ⟨.bit1, .bits8, .none, .none, .bits8, .bits32⟩
  | .moveT =>
    ⟨.bits32, .bit1, .none, .none, .none, .none⟩
  | .fldi0 | .fldi1 =>
    ⟨.bits32, .none, .none, .none, .none, .none⟩
  | .flds | .fsts | .floatFromFpul | .ftrc =>
    registerUnary
  | .fcnvDoubleToSingle =>
    ⟨.bits32, .bits64, .none, .none, .none, .none⟩
  | .fcnvSingleToDouble =>
    ⟨.bits64, .bits32, .none, .none, .none, .none⟩
  | .extendUnsignedByte | .extendSignedByte =>
    ⟨.bits32, .bits8, .none, .none, .none, .none⟩
  | .extendUnsignedWord | .extendSignedWord =>
    ⟨.bits32, .bits16, .none, .none, .none, .none⟩
  | .multiplySignedWord | .multiplyUnsignedWord =>
    ⟨.bits32, .bits16, .none, .none, .none, .none⟩
  | .doubleMultiplySignedLong | .doubleMultiplyUnsignedLong =>
    ⟨.bits64, .bits32, .none, .none, .none, .none⟩
  | .multiplyAccumulateWord =>
    ⟨.none, .bits16, .none, .none, .bits16, .bits32⟩
  | .multiplyAccumulateLong =>
    ⟨.none, .bits32, .none, .none, .bits32, .bits32⟩
  | .storeByte | .storeBytePreDecrement | .storeByteR0Indexed =>
    memoryStore .bits8
  | .loadByteSigned | .loadByteSignedPostIncrement | .loadByteSignedR0Indexed =>
    memoryLoad .bits8
  | .storeWord | .storeWordPreDecrement | .storeWordR0Indexed =>
    memoryStore .bits16
  | .loadWordSigned | .loadWordSignedPostIncrement | .loadWordSignedR0Indexed =>
    memoryLoad .bits16
  | .storeLong | .storeLongPreDecrement | .storeLongR0Indexed =>
    memoryStore .bits32
  | .fmovStore | .fmovStorePreDecrement | .fmovStoreR0Indexed =>
    memoryStore .bits64
  | .loadLong | .loadLongPostIncrement | .loadLongR0Indexed =>
    memoryLoad .bits32
  | .fmovLoad | .fmovLoadPostIncrement | .fmovLoadR0Indexed =>
    memoryLoad .bits64
  | .storeByteDisplacement =>
    ⟨.none, .bits32, .none, .bits4, .bits8, .bits32⟩
  | .loadByteSignedDisplacement =>
    ⟨.bits32, .none, .none, .bits4, .bits8, .bits32⟩
  | .storeWordDisplacement =>
    ⟨.none, .bits32, .none, .bits4, .bits16, .bits32⟩
  | .loadWordSignedDisplacement =>
    ⟨.bits32, .none, .none, .bits4, .bits16, .bits32⟩
  | .storeLongDisplacement =>
    ⟨.none, .bits32, .none, .bits4, .bits32, .bits32⟩
  | .loadLongDisplacement =>
    ⟨.bits32, .none, .none, .bits4, .bits32, .bits32⟩
  | .storeByteGbrDisplacement =>
    ⟨.none, .bits32, .none, .bits8, .bits8, .bits32⟩
  | .loadByteSignedGbrDisplacement =>
    ⟨.bits32, .none, .none, .bits8, .bits8, .bits32⟩
  | .storeWordGbrDisplacement =>
    ⟨.none, .bits32, .none, .bits8, .bits16, .bits32⟩
  | .loadWordSignedGbrDisplacement | .loadWordSignedPcRelative =>
    ⟨.bits32, .none, .none, .bits8, .bits16, .bits32⟩
  | .storeLongGbrDisplacement =>
    ⟨.none, .bits32, .none, .bits8, .bits32, .bits32⟩
  | .loadLongGbrDisplacement | .loadLongPcRelative =>
    ⟨.bits32, .none, .none, .bits8, .bits32, .bits32⟩
  | .moveAddressPcRelative =>
    ⟨.bits32, .none, .none, .bits8, .none, .bits32⟩
  | .storeSpecialRegister | .loadSpecialRegister =>
    registerBinary
  | .storeSpecialRegisterPreDecrement =>
    ⟨.none, .bits32, .none, .none, .bits32, .bits32⟩
  | .loadSpecialRegisterPostIncrement =>
    ⟨.bits32, .none, .none, .none, .bits32, .bits32⟩
  | .branch | .call =>
    ⟨.none, .none, .none, .bits12, .none, .bits32⟩
  | .branchIfTrue | .branchIfFalse =>
    ⟨.none, .bit1, .none, .bits8, .none, .bits32⟩
  | .jumpRegister | .callRegister =>
    ⟨.none, .bits32, .none, .none, .none, .bits32⟩
  | .return =>
    ⟨.none, .bits32, .none, .none, .none, .bits32⟩
  | .trapAlways =>
    ⟨.none, .none, .bits8, .none, .none, .bits32⟩
  | .compareEqualRegister | .compareHigherOrSame | .compareGreaterOrEqual | .compareHigher
  | .compareGreaterThan | .compareString | .testRegister =>
    ⟨.bit1, .bits32, .none, .none, .none, .none⟩
  | .comparePositiveOrZero | .comparePositive =>
    ⟨.bit1, .bits32, .none, .none, .none, .none⟩
  | .fcmpEqual | .fcmpGreater =>
    ⟨.bit1, .bits32, .none, .none, .none, .none⟩
  | .movRegister | .addRegister | .subRegister | .negateRegister | .notRegister | .addWithCarry
  | .addWithOverflow | .subWithCarry | .subWithOverflow | .negateWithCarry | .swapBytes
  | .swapWords | .extractMiddle | .shiftArithmeticDynamic | .shiftLogicalDynamic | .multiplyLong
  | .divideStep | .andRegister | .orRegister | .xorRegister | .fmovRegister | .fadd | .fdiv
  | .fmac | .fmul | .fsub =>
    registerBinary
  | .decrementAndTest | .shiftLogicalLeftOne | .shiftLogicalRightOne | .shiftArithmeticLeftOne
  | .shiftArithmeticRightOne | .shiftLogicalLeftTwo | .shiftLogicalLeftEight
  | .shiftLogicalLeftSixteen | .shiftLogicalRightTwo | .shiftLogicalRightEight
  | .shiftLogicalRightSixteen | .rotateLeft | .rotateRight | .rotateLeftThroughT
  | .rotateRightThroughT | .fabs | .fneg | .fsqrt | .fsrra =>
    registerUnary
  | .fsca =>
    ⟨.bits64, .bits32, .none, .none, .none, .none⟩
  | .fipr | .ftrv =>
    ⟨.bits32, .bits32, .none, .none, .none, .none⟩

/-! ## Memory effects -/

def read (width : OperandWidth) : MemoryEffects := ⟨.read, width, 1, .none, 0, .unknown⟩

def write (width : OperandWidth) : MemoryEffects := ⟨.write, width, 1, .none, 0, .unknown⟩

def predecrementWrite (width : OperandWidth) : MemoryEffects :=
  ⟨.write, width, 1, .preDecrement, 1, .unknown⟩

def postincrementRead (width : OperandWidth) : MemoryEffects :=
  ⟨.read, width, 1, .postIncrement, 1, .unknown⟩

def instructionMemoryEffects (operation : Operation)
    (destinationRegister sourceRegister : BitVec 8) : MemoryEffects :=
  match operation with
  | .loadByteSigned | .loadByteSignedDisplacement | .loadByteSignedR0Indexed
  | .loadByteSignedGbrDisplacement | .testByteImmediate =>
    read .bits8
  | .loadWordSigned | .loadWordSignedDisplacement | .loadWordSignedR0Indexed
  | .loadWordSignedGbrDisplacement | .loadWordSignedPcRelative =>
    read .bits16
  | .loadLong | .loadLongDisplacement | .loadLongR0Indexed | .loadLongGbrDisplacement
  | .loadLongPcRelative =>
    read .bits32
  | .fmovLoad | .fmovLoadR0Indexed =>
    { access := .read, width := .bits64, accessCount := 2 }
  | .storeByte | .storeByteDisplacement | .storeByteR0Indexed | .storeByteGbrDisplacement =>
    write .bits8
  | .storeWord | .storeWordDisplacement | .storeWordR0Indexed | .storeWordGbrDisplacement =>
    write .bits16
  | .storeLong | .movcaLong | .storeLongDisplacement | .storeLongR0Indexed
  | .storeLongGbrDisplacement =>
    write .bits32
  | .fmovStore | .fmovStoreR0Indexed =>
    { access := .write, width := .bits64, accessCount := 2 }
  | .andByteImmediate | .xorByteImmediate | .orByteImmediate | .testAndSetByte =>
    { access := .write, width := .bits8, accessCount := 2 }
  | .storeBytePreDecrement =>
    predecrementWrite .bits8
  | .storeWordPreDecrement =>
    predecrementWrite .bits16
  | .storeLongPreDecrement =>
    predecrementWrite .bits32
  | .storeSpecialRegisterPreDecrement =>
    predecrementWrite .bits32
  | .fmovStorePreDecrement =>
    { access := .write, width := .bits64, accessCount := 2,
      addressUpdate := .preDecrement, updatedRegisterCount := 1 }
  | .loadByteSignedPostIncrement =>
    if destinationRegister == sourceRegister then read .bits8 else postincrementRead .bits8
  | .loadWordSignedPostIncrement =>
    if destinationRegister == sourceRegister then read .bits16 else postincrementRead .bits16
  | .loadLongPostIncrement =>
    if destinationRegister == sourceRegister then read .bits32 else postincrementRead .bits32
  | .loadSpecialRegisterPostIncrement =>
    postincrementRead .bits32
  | .fmovLoadPostIncrement =>
    { access := .read, width := .bits64, accessCount := 2,
      addressUpdate := .postIncrement, updatedRegisterCount := 1 }
  | .multiplyAccumulateWord =>
    { access := .read, width := .bits16, accessCount := 2,
      addressUpdate := .postIncrement, updatedRegisterCount := 2 }
  | .multiplyAccumulateLong =>
    { access := .read, width := .bits32, accessCount := 2,
      addressUpdate := .postIncrement, updatedRegisterCount := 2 }
  | _ => {}

/-! ## Status effects -/

open StatusRegisterBit in
def instructionStatusEffects (operation : Operation) (specialRegister : SpecialRegister) :
    StatusRegisterEffects :=
  let tqm := t ||| q ||| m
  match operation with
  | .moveT | .branchIfTrue | .branchIfFalse =>
    ⟨t, none⟩
  | .addWithCarry | .subWithCarry | .negateWithCarry | .rotateLeftThroughT
  | .rotateRightThroughT =>
    ⟨t, t⟩
  | .addWithOverflow | .subWithOverflow | .decrementAndTest | .shiftLogicalLeftOne
  | .shiftLogicalRightOne | .shiftArithmeticLeftOne | .shiftArithmeticRightOne | .rotateLeft
  | .rotateRight | .clearT | .setT | .compareEqualImmediate | .compareEqualRegister
  | .compareHigherOrSame | .compareGreaterOrEqual | .compareHigher | .compareGreaterThan
  | .comparePositiveOrZero | .comparePositive | .compareString | .testImmediate | .testRegister
  | .testByteImmediate | .testAndSetByte | .fcmpEqual | .fcmpGreater =>
    ⟨none, t⟩
  | .clearS | .setS =>
    ⟨none, s⟩
  | .multiplyAccumulateWord | .multiplyAccumulateLong =>
    ⟨s, none⟩
  | .divideInitializeUnsigned | .divideInitializeSigned =>
    ⟨none, tqm⟩
  | .divideStep =>
    ⟨tqm, (t ||| q)⟩
  | .trapAlways =>
    ⟨full, full⟩
  | .returnFromException =>
    ⟨none, full⟩
  | .storeSpecialRegister | .storeSpecialRegisterPreDecrement =>
    if specialRegister == .sr then ⟨full, none⟩ else {}
  | .loadSpecialRegister | .loadSpecialRegisterPostIncrement =>
    if specialRegister == .sr then ⟨none, full⟩ else {}
  | _ => {}

/-! ## Accumulator effects -/

def operationAccumulatorEffects (operation : Operation) (specialRegister : SpecialRegister) :
    AccumulatorEffects :=
  let none := AccumulatorRegister.none
  let mach := AccumulatorRegister.mach
  let macl := AccumulatorRegister.macl
  let both := mach ||| macl
  match operation with
  | .clearMac => ⟨none, none, both, both⟩
  | .multiplyLong | .multiplySignedWord | .multiplyUnsignedWord => ⟨none, none, macl, macl⟩
  | .doubleMultiplySignedLong | .doubleMultiplyUnsignedLong => ⟨none, none, both, both⟩
  | .multiplyAccumulateWord => ⟨both, macl, both, macl⟩
  | .multiplyAccumulateLong => ⟨both, both, both, both⟩
  | .storeSpecialRegister | .storeSpecialRegisterPreDecrement =>
    match specialRegister with
    | .mach => ⟨mach, mach, none, none⟩
    | .macl => ⟨macl, macl, none, none⟩
    | _ => {}
  | .loadSpecialRegister | .loadSpecialRegisterPostIncrement =>
    match specialRegister with
    | .mach => ⟨none, none, mach, mach⟩
    | .macl => ⟨none, none, macl, macl⟩
    | _ => {}
  | _ => {}

end KatanaRecomp.Ir
