import KatanaRecomp.Sh4.Metadata

/-! # The opcode decoder

`decode` tries the special-register transfers, then the FPU encodings, then the
remaining kinds in the order of the source's chain of tests; the first encoding
that matches decides. -/
namespace KatanaRecomp.Sh4

/-- `(opcode >> 8u) & 0x0Fu`. -/
def fieldN (opcode : BitVec 16) : Fin 16 := (opcode.extractLsb' 8 4).toFin

/-- `(opcode >> 4u) & 0x0Fu`. -/
def fieldM (opcode : BitVec 16) : Fin 16 := (opcode.extractLsb' 4 4).toFin

def low8 (opcode : BitVec 16) : BitVec 32 := (opcode &&& 0x00FF).setWidth 32

def low4 (opcode : BitVec 16) : BitVec 32 := (opcode &&& 0x000F).setWidth 32

def signExtend8 (value : BitVec 16) : BitVec 32 :=
  let raw := value &&& 0x00FF
  if raw &&& 0x80 == 0 then raw.setWidth 32 else raw.setWidth 32 - 0x100

def signExtend12 (value : BitVec 16) : BitVec 32 :=
  let raw := value &&& 0x0FFF
  if raw &&& 0x0800 == 0 then raw.setWidth 32 else raw.setWidth 32 - 0x1000

def matchesMetadata (opcode : BitVec 16) (kind : InstructionKind) : Bool :=
  match metadataForKind kind with
  | some metadata => metadata.matches opcode
  | none => false

def decodeSpecialRegisterTransfer (opcode : BitVec 16) : Option DecodedInstruction :=
  (specialRegisterEncodingMetadata.find? (·.matches opcode)).map fun encoding =>
    { opcode := opcode
      kind := encoding.kind
      specialRegister := encoding.specialRegister
      isPrivileged := encoding.isPrivileged
      sourceRegister := if encoding.registerIsSource then fieldN opcode else 0
      destinationRegister := if encoding.registerIsSource then 0 else fieldN opcode }

def fpuKinds : List InstructionKind := [
  .fmovRegister, .fmovLoad, .fmovLoadPostIncrement, .fmovLoadR0Indexed, .fmovStore,
  .fmovStorePreDecrement, .fmovStoreR0Indexed, .fldi0, .fldi1, .flds, .fsts, .fabs, .fadd,
  .fcmpEqual, .fcmpGreater, .fdiv, .floatFromFpul, .fmac, .fmul, .fneg, .fsqrt, .fsrra, .fsca,
  .fipr, .ftrv, .fsub, .ftrc, .fcnvDoubleToSingle, .fcnvSingleToDouble, .frchg, .fschg]

/-- The register fields of an FPU instruction: which of the two the number
moves to depends on the kind. -/
def fpuOperands (kind : InstructionKind) (opcode : BitVec 16) : Fin 16 × Fin 16 :=
  let n := fieldN opcode
  let m := fieldM opcode
  match kind with
  | .flds | .ftrc | .fcnvDoubleToSingle => (0, n)
  | .fldi0 | .fldi1 | .fsts | .fabs | .floatFromFpul | .fneg | .fsqrt | .fcnvSingleToDouble =>
    (n, 0)
  | .fsca => (n &&& 0x0E, 0)
  | .fipr => (((n >>> 2) &&& 3) * 4, (n &&& 3) * 4)
  | .ftrv => (n &&& 0x0C, 0)
  | .frchg | .fschg => (0, 0)
  | _ => (n, m)

def decodeFpuInstruction (opcode : BitVec 16) : Option DecodedInstruction :=
  (fpuKinds.find? (matchesMetadata opcode)).map fun kind =>
    { opcode := opcode
      kind := kind
      destinationRegister := (fpuOperands kind opcode).1
      sourceRegister := (fpuOperands kind opcode).2 }

/-- The kinds `decode` tests after the two tables, in order. -/
def decodeOrder : List InstructionKind := [
  .nop, .clearMac, .rts, .returnFromException, .sleep, .loadTlb, .prefetch, .ocbi, .ocbp, .ocbwb,
  .movcaLong, .testAndSetByte, .trapAlways, .bra, .bsr, .braf, .bsrf, .bt, .bf, .btS, .bfS, .jmp,
  .jsr, .subRegister, .negateRegister, .notRegister, .addWithCarry, .addWithOverflow,
  .subWithCarry, .subWithOverflow, .negateWithCarry, .extendUnsignedByte, .extendUnsignedWord,
  .extendSignedByte, .extendSignedWord, .swapBytes, .swapWords, .extractMiddle,
  .decrementAndTest, .moveT, .shiftLogicalLeftOne, .shiftLogicalRightOne,
  .shiftArithmeticLeftOne, .shiftArithmeticRightOne, .shiftLogicalLeftTwo,
  .shiftLogicalLeftEight, .shiftLogicalLeftSixteen, .shiftLogicalRightTwo,
  .shiftLogicalRightEight, .shiftLogicalRightSixteen, .rotateLeft, .rotateRight,
  .rotateLeftThroughT, .rotateRightThroughT, .shiftArithmeticDynamic, .shiftLogicalDynamic,
  .divideInitializeUnsigned, .divideInitializeSigned, .divideStep, .multiplyAccumulateWord,
  .multiplyAccumulateLong, .doubleMultiplySignedLong, .doubleMultiplyUnsignedLong, .multiplyLong,
  .multiplySignedWord, .multiplyUnsignedWord, .andRegister, .xorRegister, .orRegister,
  .andImmediate, .xorImmediate, .orImmediate, .clearS, .setS, .clearT, .setT,
  .compareEqualImmediate, .compareEqualRegister, .compareHigherOrSame, .compareGreaterOrEqual,
  .compareHigher, .compareGreaterThan, .comparePositiveOrZero, .comparePositive, .compareString,
  .testImmediate, .testRegister, .testByteImmediate, .andByteImmediate, .xorByteImmediate,
  .orByteImmediate, .movByteStorePreDecrement, .movWordStorePreDecrement,
  .movLongStorePreDecrement, .movByteLoadPostIncrement, .movWordLoadPostIncrement,
  .movLongLoadPostIncrement, .movByteStoreDisplacement, .movWordStoreDisplacement,
  .movLongStoreDisplacement, .movByteLoadDisplacement, .movWordLoadDisplacement,
  .movLongLoadDisplacement, .movByteStoreR0Indexed, .movWordStoreR0Indexed,
  .movLongStoreR0Indexed, .movByteLoadR0Indexed, .movWordLoadR0Indexed, .movLongLoadR0Indexed,
  .movByteStoreGbrDisplacement, .movWordStoreGbrDisplacement, .movLongStoreGbrDisplacement,
  .movByteLoadGbrDisplacement, .movWordLoadGbrDisplacement, .movLongLoadGbrDisplacement,
  .movWordLoadPcRelative, .movLongLoadPcRelative, .moveAddressPcRelative, .movByteStore,
  .movWordStore, .movLongStore, .movByteLoad, .movWordLoad, .movLongLoad, .movImmediate,
  .addImmediate, .movRegister, .addRegister]

/-- The assignments of the branch of `decode` that accepts `kind`. -/
def decodeOperands (kind : InstructionKind) (opcode : BitVec 16) : DecodedInstruction :=
  let i : DecodedInstruction := { opcode := opcode, kind := kind }
  match kind with
  | .nop | .clearMac | .divideInitializeUnsigned | .clearS | .setS | .clearT | .setT =>
    i
  | .rts =>
    { i with controlFlow := .return, hasDelaySlot := true }
  | .returnFromException =>
    { i with controlFlow := .exceptionReturn, hasDelaySlot := true, isPrivileged := true }
  | .sleep =>
    { i with controlFlow := .halt, isPrivileged := true }
  | .loadTlb =>
    { i with isPrivileged := true }
  | .prefetch | .ocbi | .ocbp | .ocbwb | .testAndSetByte =>
    { i with sourceRegister := fieldN opcode }
  | .movcaLong =>
    { i with destinationRegister := fieldN opcode, sourceRegister := 0 }
  | .trapAlways =>
    { i with immediate := low8 opcode, controlFlow := .trap }
  | .bra =>
    { i with
      displacement := signExtend12 opcode * 2
      controlFlow := .unconditionalBranch
      hasDelaySlot := true }
  | .bsr =>
    { i with
      displacement := signExtend12 opcode * 2
      controlFlow := .call
      hasDelaySlot := true }
  | .braf | .jmp =>
    { i with
      branchRegister := fieldN opcode
      controlFlow := .indirectBranch
      hasDelaySlot := true }
  | .bsrf | .jsr =>
    { i with
      branchRegister := fieldN opcode
      controlFlow := .indirectCall
      hasDelaySlot := true }
  | .bt | .bf =>
    { i with displacement := signExtend8 opcode * 2, controlFlow := .conditionalBranch }
  | .btS | .bfS =>
    { i with
      displacement := signExtend8 opcode * 2
      controlFlow := .conditionalBranch
      hasDelaySlot := true }
  | .subRegister | .negateRegister | .notRegister | .addWithCarry | .addWithOverflow
  | .subWithCarry | .subWithOverflow | .negateWithCarry | .extendUnsignedByte
  | .extendUnsignedWord | .extendSignedByte | .extendSignedWord | .swapBytes | .swapWords
  | .extractMiddle | .shiftArithmeticDynamic | .shiftLogicalDynamic | .divideInitializeSigned
  | .divideStep | .multiplyAccumulateWord | .multiplyAccumulateLong | .doubleMultiplySignedLong
  | .doubleMultiplyUnsignedLong | .multiplyLong | .multiplySignedWord | .multiplyUnsignedWord
  | .andRegister | .xorRegister | .orRegister | .compareEqualRegister | .compareHigherOrSame
  | .compareGreaterOrEqual | .compareHigher | .compareGreaterThan | .compareString
  | .testRegister | .movByteStorePreDecrement | .movWordStorePreDecrement
  | .movLongStorePreDecrement | .movByteLoadPostIncrement | .movWordLoadPostIncrement
  | .movLongLoadPostIncrement | .movByteStoreR0Indexed | .movWordStoreR0Indexed
  | .movLongStoreR0Indexed | .movByteLoadR0Indexed | .movWordLoadR0Indexed
  | .movLongLoadR0Indexed | .movByteStore | .movWordStore | .movLongStore | .movByteLoad
  | .movWordLoad | .movLongLoad | .movRegister | .addRegister =>
    { i with destinationRegister := fieldN opcode, sourceRegister := fieldM opcode }
  | .decrementAndTest | .moveT | .shiftLogicalLeftOne | .shiftLogicalRightOne
  | .shiftArithmeticLeftOne | .shiftArithmeticRightOne | .shiftLogicalLeftTwo
  | .shiftLogicalLeftEight | .shiftLogicalLeftSixteen | .shiftLogicalRightTwo
  | .shiftLogicalRightEight | .shiftLogicalRightSixteen | .rotateLeft | .rotateRight
  | .rotateLeftThroughT | .rotateRightThroughT | .comparePositiveOrZero | .comparePositive =>
    { i with destinationRegister := fieldN opcode }
  | .andImmediate | .xorImmediate | .orImmediate | .testImmediate =>
    { i with destinationRegister := 0, immediate := low8 opcode }
  | .compareEqualImmediate =>
    { i with destinationRegister := 0, immediate := signExtend8 opcode }
  | .testByteImmediate | .andByteImmediate | .xorByteImmediate | .orByteImmediate =>
    { i with immediate := low8 opcode }
  | .movByteStoreDisplacement =>
    { i with
      sourceRegister := 0
      destinationRegister := fieldM opcode
      displacement := low4 opcode }
  | .movWordStoreDisplacement =>
    { i with
      sourceRegister := 0
      destinationRegister := fieldM opcode
      displacement := low4 opcode * 2 }
  | .movLongStoreDisplacement | .movLongLoadDisplacement =>
    { i with
      destinationRegister := fieldN opcode
      sourceRegister := fieldM opcode
      displacement := low4 opcode * 4 }
  | .movByteLoadDisplacement =>
    { i with
      destinationRegister := 0
      sourceRegister := fieldM opcode
      displacement := low4 opcode }
  | .movWordLoadDisplacement =>
    { i with
      destinationRegister := 0
      sourceRegister := fieldM opcode
      displacement := low4 opcode * 2 }
  | .movByteStoreGbrDisplacement =>
    { i with sourceRegister := 0, displacement := low8 opcode }
  | .movWordStoreGbrDisplacement =>
    { i with sourceRegister := 0, displacement := low8 opcode * 2 }
  | .movLongStoreGbrDisplacement =>
    { i with sourceRegister := 0, displacement := low8 opcode * 4 }
  | .movByteLoadGbrDisplacement =>
    { i with destinationRegister := 0, displacement := low8 opcode }
  | .movWordLoadGbrDisplacement =>
    { i with destinationRegister := 0, displacement := low8 opcode * 2 }
  | .movLongLoadGbrDisplacement | .moveAddressPcRelative =>
    { i with destinationRegister := 0, displacement := low8 opcode * 4 }
  | .movWordLoadPcRelative =>
    { i with destinationRegister := fieldN opcode, displacement := low8 opcode * 2 }
  | .movLongLoadPcRelative =>
    { i with destinationRegister := fieldN opcode, displacement := low8 opcode * 4 }
  | .movImmediate | .addImmediate =>
    { i with destinationRegister := fieldN opcode, immediate := signExtend8 opcode }
  | _ => i

def decode (opcode : BitVec 16) : DecodedInstruction :=
  match decodeSpecialRegisterTransfer opcode with
  | some instruction => instruction
  | none =>
    match decodeFpuInstruction opcode with
    | some instruction => instruction
    | none =>
      match decodeOrder.find? (matchesMetadata opcode) with
      | some kind => decodeOperands kind opcode
      | none => { opcode := opcode }

structure DisassemblyLine where
  address : BitVec 32
  opcode : BitVec 16
  instruction : DecodedInstruction
  isDelaySlot : Bool := false
  targetAddress : Option (BitVec 32) := none
  deriving DecidableEq

/-- `calculate_direct_branch_target`. -/
def calculateDirectBranchTarget (i : DecodedInstruction) (address : BitVec 32) :
    Option (BitVec 32) :=
  match i.kind with
  | .bra | .bsr | .bt | .bf | .btS | .bfS =>
    some (address + 4 + i.displacement)
  | _ => none

end KatanaRecomp.Sh4
