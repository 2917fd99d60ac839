import KatanaRecomp.Sh4.Decoder

/-! # Instruction timing -/
namespace KatanaRecomp.Sh4

inductive InstructionTimingClass
  | simpleInteger | controlFlow | memory | macDiv | simpleFpu | complexFpu | deviceBusBoundary

structure InstructionTiming where
  timingClass : InstructionTimingClass
  guestCycles : Nat
  requiresCycleFlush : Bool

def instructionTiming (i : DecodedInstruction) : InstructionTiming :=
  match i.kind with
  | .rts | .trapAlways | .returnFromException | .sleep | .bra | .bsr | .braf | .bsrf | .bt | .bf
  | .btS | .bfS | .jmp | .jsr =>
    ⟨.controlFlow, 2, false⟩
  | .movByteStore | .movWordStore | .movLongStore | .movByteLoad | .movWordLoad | .movLongLoad
  | .movByteStorePreDecrement | .movWordStorePreDecrement | .movLongStorePreDecrement
  | .movByteLoadPostIncrement | .movWordLoadPostIncrement | .movLongLoadPostIncrement
  | .movByteStoreDisplacement | .movWordStoreDisplacement | .movLongStoreDisplacement
  | .movByteLoadDisplacement | .movWordLoadDisplacement | .movLongLoadDisplacement
  | .movByteStoreR0Indexed | .movWordStoreR0Indexed | .movLongStoreR0Indexed
  | .movByteLoadR0Indexed | .movWordLoadR0Indexed | .movLongLoadR0Indexed
  | .movByteStoreGbrDisplacement | .movWordStoreGbrDisplacement | .movLongStoreGbrDisplacement
  | .movByteLoadGbrDisplacement | .movWordLoadGbrDisplacement | .movLongLoadGbrDisplacement
  | .movWordLoadPcRelative | .movLongLoadPcRelative | .storeSpecialRegisterPreDecrement
  | .loadSpecialRegisterPostIncrement | .testByteImmediate | .andByteImmediate
  | .xorByteImmediate | .orByteImmediate | .testAndSetByte | .fmovLoad | .fmovLoadPostIncrement
  | .fmovLoadR0Indexed | .fmovStore | .fmovStorePreDecrement | .fmovStoreR0Indexed =>
    ⟨.memory, 2, true⟩
  | .multiplyLong | .multiplySignedWord | .multiplyUnsignedWord | .doubleMultiplySignedLong
  | .doubleMultiplyUnsignedLong | .multiplyAccumulateWord | .multiplyAccumulateLong
  | .divideInitializeUnsigned | .divideInitializeSigned | .divideStep =>
    ⟨.macDiv, 3, false⟩
  | .fmovRegister | .fldi0 | .fldi1 | .flds | .fsts | .fabs | .fadd | .fcmpEqual | .fcmpGreater
  | .floatFromFpul | .fmac | .fmul | .fneg | .fsub | .ftrc | .frchg | .fschg =>
    ⟨.simpleFpu, 2, false⟩
  | .fdiv | .fsqrt | .fsrra | .fsca | .fipr | .ftrv | .fcnvDoubleToSingle | .fcnvSingleToDouble =>
    ⟨.complexFpu, 4, false⟩
  | .loadTlb | .prefetch | .ocbi | .ocbp | .ocbwb | .movcaLong =>
    ⟨.deviceBusBoundary, 3, true⟩
  | _ =>
    ⟨.simpleInteger, 1, false⟩

/-- The overload that takes the opcode. -/
def opcodeTiming (opcode : BitVec 16) : InstructionTiming := instructionTiming (decode opcode)

end KatanaRecomp.Sh4
