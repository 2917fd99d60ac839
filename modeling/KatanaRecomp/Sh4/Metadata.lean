import KatanaRecomp.Sh4.Instruction

/-! # Instruction encodings

The two tables the decoder consults. An encoding matches an opcode when the
opcode agrees with the pattern on the bits of the mask. The operand formats and
the mnemonics of the source tables only serve the disassembly text. -/
namespace KatanaRecomp.Sh4

structure InstructionMetadata where
  kind : InstructionKind
  mask : BitVec 16
  pattern : BitVec 16
  controlFlow : ControlFlowKind
  hasDelaySlot : Bool
  isPrivileged : Bool

def InstructionMetadata.matches (m : InstructionMetadata) (opcode : BitVec 16) : Bool :=
  opcode &&& m.mask == m.pattern

structure SpecialRegisterEncodingMetadata where
  kind : InstructionKind
  mask : BitVec 16
  pattern : BitVec 16
  specialRegister : SpecialRegister
  memoryForm : Bool
  registerIsSource : Bool
  isPrivileged : Bool

def SpecialRegisterEncodingMetadata.matches (m : SpecialRegisterEncodingMetadata)
    (opcode : BitVec 16) : Bool := opcode &&& m.mask == m.pattern

/-- `KATANA_RULE`. -/
def rule (kind : InstructionKind) (mask pattern : BitVec 16) : InstructionMetadata :=
  ⟨kind, mask, pattern, .none, false, false⟩

/-- `KATANA_FLOW`. -/
def flow (kind : InstructionKind) (mask pattern : BitVec 16) (controlFlow : ControlFlowKind)
    (hasDelaySlot isPrivileged : Bool) : InstructionMetadata :=
  ⟨kind, mask, pattern, controlFlow, hasDelaySlot, isPrivileged⟩

/-- `KATANA_SPECIAL`. -/
def special (kind : InstructionKind) (pattern : BitVec 16) (register : SpecialRegister)
    (memoryForm registerIsSource isPrivileged : Bool) : SpecialRegisterEncodingMetadata :=
  ⟨kind, 0xF0FF, pattern, register, memoryForm, registerIsSource, isPrivileged⟩

def instructionMetadata : List InstructionMetadata := [
  rule .nop 0xFFFF 0x0009, flow .rts 0xFFFF 0x000B .return true false,
  flow .returnFromException 0xFFFF 0x002B .exceptionReturn true true,
  flow .sleep 0xFFFF 0x001B .halt false true, flow .loadTlb 0xFFFF 0x0038 .none false true,
  rule .prefetch 0xF0FF 0x0083, rule .ocbi 0xF0FF 0x0093, rule .ocbp 0xF0FF 0x00A3,
  rule .ocbwb 0xF0FF 0x00B3, rule .movcaLong 0xF0FF 0x00C3,
  flow .trapAlways 0xFF00 0xC300 .trap false false,
  flow .bra 0xF000 0xA000 .unconditionalBranch true false, flow .bsr 0xF000 0xB000 .call true false,
  flow .braf 0xF0FF 0x0023 .indirectBranch true false,
  flow .bsrf 0xF0FF 0x0003 .indirectCall true false,
  flow .bt 0xFF00 0x8900 .conditionalBranch false false,
  flow .bf 0xFF00 0x8B00 .conditionalBranch false false,
  flow .btS 0xFF00 0x8D00 .conditionalBranch true false,
  flow .bfS 0xFF00 0x8F00 .conditionalBranch true false,
  flow .jmp 0xF0FF 0x402B .indirectBranch true false,
  flow .jsr 0xF0FF 0x400B .indirectCall true false, rule .fmovRegister 0xF00F 0xF00C,
  rule .fmovLoad 0xF00F 0xF008, rule .fmovLoadPostIncrement 0xF00F 0xF009,
  rule .fmovLoadR0Indexed 0xF00F 0xF006, rule .fmovStore 0xF00F 0xF00A,
  rule .fmovStorePreDecrement 0xF00F 0xF00B, rule .fmovStoreR0Indexed 0xF00F 0xF007,
  rule .fldi0 0xF0FF 0xF08D, rule .fldi1 0xF0FF 0xF09D, rule .flds 0xF0FF 0xF01D,
  rule .fsts 0xF0FF 0xF00D, rule .fabs 0xF0FF 0xF05D, rule .fadd 0xF00F 0xF000,
  rule .fcmpEqual 0xF00F 0xF004, rule .fcmpGreater 0xF00F 0xF005, rule .fdiv 0xF00F 0xF003,
  rule .floatFromFpul 0xF0FF 0xF02D, rule .fmac 0xF00F 0xF00E, rule .fmul 0xF00F 0xF002,
  rule .fneg 0xF0FF 0xF04D, rule .fsqrt 0xF0FF 0xF06D, rule .fsrra 0xF0FF 0xF07D,
  rule .fsca 0xF1FF 0xF0FD, rule .fipr 0xF0FF 0xF0ED, rule .ftrv 0xF3FF 0xF1FD,
  rule .fsub 0xF00F 0xF001, rule .ftrc 0xF0FF 0xF03D, rule .fcnvDoubleToSingle 0xF1FF 0xF0BD,
  rule .fcnvSingleToDouble 0xF1FF 0xF0AD, rule .frchg 0xFFFF 0xFBFD, rule .fschg 0xFFFF 0xF3FD,
  rule .subRegister 0xF00F 0x3008, rule .negateRegister 0xF00F 0x600B,
  rule .notRegister 0xF00F 0x6007, rule .addWithCarry 0xF00F 0x300E,
  rule .addWithOverflow 0xF00F 0x300F, rule .subWithCarry 0xF00F 0x300A,
  rule .subWithOverflow 0xF00F 0x300B, rule .negateWithCarry 0xF00F 0x600A,
  rule .extendUnsignedByte 0xF00F 0x600C, rule .extendUnsignedWord 0xF00F 0x600D,
  rule .extendSignedByte 0xF00F 0x600E, rule .extendSignedWord 0xF00F 0x600F,
  rule .swapBytes 0xF00F 0x6008, rule .swapWords 0xF00F 0x6009, rule .extractMiddle 0xF00F 0x200D,
  rule .decrementAndTest 0xF0FF 0x4010, rule .moveT 0xF0FF 0x0029,
  rule .shiftLogicalLeftOne 0xF0FF 0x4000, rule .shiftLogicalRightOne 0xF0FF 0x4001,
  rule .shiftArithmeticLeftOne 0xF0FF 0x4020, rule .shiftArithmeticRightOne 0xF0FF 0x4021,
  rule .shiftLogicalLeftTwo 0xF0FF 0x4008, rule .shiftLogicalLeftEight 0xF0FF 0x4018,
  rule .shiftLogicalLeftSixteen 0xF0FF 0x4028, rule .shiftLogicalRightTwo 0xF0FF 0x4009,
  rule .shiftLogicalRightEight 0xF0FF 0x4019, rule .shiftLogicalRightSixteen 0xF0FF 0x4029,
  rule .rotateLeft 0xF0FF 0x4004, rule .rotateRight 0xF0FF 0x4005,
  rule .rotateLeftThroughT 0xF0FF 0x4024, rule .rotateRightThroughT 0xF0FF 0x4025,
  rule .shiftArithmeticDynamic 0xF00F 0x400C, rule .shiftLogicalDynamic 0xF00F 0x400D,
  rule .divideInitializeUnsigned 0xFFFF 0x0019, rule .clearMac 0xFFFF 0x0028,
  rule .divideInitializeSigned 0xF00F 0x2007, rule .divideStep 0xF00F 0x3004,
  rule .multiplyAccumulateWord 0xF00F 0x400F, rule .multiplyAccumulateLong 0xF00F 0x000F,
  rule .doubleMultiplySignedLong 0xF00F 0x300D, rule .doubleMultiplyUnsignedLong 0xF00F 0x3005,
  rule .multiplyLong 0xF00F 0x0007, rule .multiplySignedWord 0xF00F 0x200F,
  rule .multiplyUnsignedWord 0xF00F 0x200E, rule .andRegister 0xF00F 0x2009,
  rule .xorRegister 0xF00F 0x200A, rule .orRegister 0xF00F 0x200B, rule .andImmediate 0xFF00 0xC900,
  rule .xorImmediate 0xFF00 0xCA00, rule .orImmediate 0xFF00 0xCB00, rule .clearS 0xFFFF 0x0048,
  rule .setS 0xFFFF 0x0058, rule .clearT 0xFFFF 0x0008, rule .setT 0xFFFF 0x0018,
  rule .compareEqualImmediate 0xFF00 0x8800, rule .compareEqualRegister 0xF00F 0x3000,
  rule .compareHigherOrSame 0xF00F 0x3002, rule .compareGreaterOrEqual 0xF00F 0x3003,
  rule .compareHigher 0xF00F 0x3006, rule .compareGreaterThan 0xF00F 0x3007,
  rule .comparePositiveOrZero 0xF0FF 0x4011, rule .comparePositive 0xF0FF 0x4015,
  rule .compareString 0xF00F 0x200C, rule .testImmediate 0xFF00 0xC800,
  rule .testRegister 0xF00F 0x2008, rule .testByteImmediate 0xFF00 0xCC00,
  rule .andByteImmediate 0xFF00 0xCD00, rule .xorByteImmediate 0xFF00 0xCE00,
  rule .orByteImmediate 0xFF00 0xCF00, rule .testAndSetByte 0xF0FF 0x401B,
  rule .movByteStorePreDecrement 0xF00F 0x2004, rule .movWordStorePreDecrement 0xF00F 0x2005,
  rule .movLongStorePreDecrement 0xF00F 0x2006, rule .movByteLoadPostIncrement 0xF00F 0x6004,
  rule .movWordLoadPostIncrement 0xF00F 0x6005, rule .movLongLoadPostIncrement 0xF00F 0x6006,
  rule .movByteStoreDisplacement 0xFF00 0x8000, rule .movWordStoreDisplacement 0xFF00 0x8100,
  rule .movLongStoreDisplacement 0xF000 0x1000, rule .movByteLoadDisplacement 0xFF00 0x8400,
  rule .movWordLoadDisplacement 0xFF00 0x8500, rule .movLongLoadDisplacement 0xF000 0x5000,
  rule .movByteStoreR0Indexed 0xF00F 0x0004, rule .movWordStoreR0Indexed 0xF00F 0x0005,
  rule .movLongStoreR0Indexed 0xF00F 0x0006, rule .movByteLoadR0Indexed 0xF00F 0x000C,
  rule .movWordLoadR0Indexed 0xF00F 0x000D, rule .movLongLoadR0Indexed 0xF00F 0x000E,
  rule .movByteStoreGbrDisplacement 0xFF00 0xC000, rule .movWordStoreGbrDisplacement 0xFF00 0xC100,
  rule .movLongStoreGbrDisplacement 0xFF00 0xC200, rule .movByteLoadGbrDisplacement 0xFF00 0xC400,
  rule .movWordLoadGbrDisplacement 0xFF00 0xC500, rule .movLongLoadGbrDisplacement 0xFF00 0xC600,
  rule .movWordLoadPcRelative 0xF000 0x9000, rule .movLongLoadPcRelative 0xF000 0xD000,
  rule .moveAddressPcRelative 0xFF00 0xC700, rule .movByteStore 0xF00F 0x2000,
  rule .movWordStore 0xF00F 0x2001, rule .movLongStore 0xF00F 0x2002,
  rule .movByteLoad 0xF00F 0x6000, rule .movWordLoad 0xF00F 0x6001, rule .movLongLoad 0xF00F 0x6002,
  rule .movImmediate 0xF000 0xE000, rule .addImmediate 0xF000 0x7000,
  rule .movRegister 0xF00F 0x6003, rule .addRegister 0xF00F 0x300C]

def specialRegisterEncodingMetadata : List SpecialRegisterEncodingMetadata := [
  special .storeSpecialRegister 0x000A .mach false false false,
  special .storeSpecialRegister 0x001A .macl false false false,
  special .storeSpecialRegister 0x002A .pr false false false,
  special .storeSpecialRegister 0x005A .fpul false false false,
  special .storeSpecialRegister 0x006A .fpscr false false false,
  special .storeSpecialRegisterPreDecrement 0x4002 .mach true false false,
  special .storeSpecialRegisterPreDecrement 0x4012 .macl true false false,
  special .storeSpecialRegisterPreDecrement 0x4022 .pr true false false,
  special .storeSpecialRegisterPreDecrement 0x4052 .fpul true false false,
  special .storeSpecialRegisterPreDecrement 0x4062 .fpscr true false false,
  special .loadSpecialRegister 0x400A .mach false true false,
  special .loadSpecialRegister 0x401A .macl false true false,
  special .loadSpecialRegister 0x402A .pr false true false,
  special .loadSpecialRegister 0x405A .fpul false true false,
  special .loadSpecialRegister 0x406A .fpscr false true false,
  special .loadSpecialRegisterPostIncrement 0x4006 .mach true true false,
  special .loadSpecialRegisterPostIncrement 0x4016 .macl true true false,
  special .loadSpecialRegisterPostIncrement 0x4026 .pr true true false,
  special .loadSpecialRegisterPostIncrement 0x4056 .fpul true true false,
  special .loadSpecialRegisterPostIncrement 0x4066 .fpscr true true false,
  special .storeSpecialRegister 0x0002 .sr false false true,
  special .storeSpecialRegister 0x0012 .gbr false false false,
  special .storeSpecialRegister 0x0022 .vbr false false true,
  special .storeSpecialRegister 0x0032 .ssr false false true,
  special .storeSpecialRegister 0x0042 .spc false false true,
  special .storeSpecialRegister 0x003A .sgr false false true,
  special .storeSpecialRegister 0x00FA .dbr false false true,
  special .storeSpecialRegisterPreDecrement 0x4003 .sr true false true,
  special .storeSpecialRegisterPreDecrement 0x4013 .gbr true false false,
  special .storeSpecialRegisterPreDecrement 0x4023 .vbr true false true,
  special .storeSpecialRegisterPreDecrement 0x4033 .ssr true false true,
  special .storeSpecialRegisterPreDecrement 0x4043 .spc true false true,
  special .storeSpecialRegisterPreDecrement 0x4032 .sgr true false true,
  special .storeSpecialRegisterPreDecrement 0x40F2 .dbr true false true,
  special .loadSpecialRegister 0x400E .sr false true true,
  special .loadSpecialRegister 0x401E .gbr false true false,
  special .loadSpecialRegister 0x402E .vbr false true true,
  special .loadSpecialRegister 0x403E .ssr false true true,
  special .loadSpecialRegister 0x404E .spc false true true,
  special .loadSpecialRegister 0x40FA .dbr false true true,
  special .loadSpecialRegisterPostIncrement 0x4007 .sr true true true,
  special .loadSpecialRegisterPostIncrement 0x4017 .gbr true true false,
  special .loadSpecialRegisterPostIncrement 0x4027 .vbr true true true,
  special .loadSpecialRegisterPostIncrement 0x4037 .ssr true true true,
  special .loadSpecialRegisterPostIncrement 0x4047 .spc true true true,
  special .loadSpecialRegisterPostIncrement 0x40F6 .dbr true true true,
  special .storeSpecialRegister 0x0082 .bank0 false false true,
  special .storeSpecialRegister 0x0092 .bank1 false false true,
  special .storeSpecialRegister 0x00A2 .bank2 false false true,
  special .storeSpecialRegister 0x00B2 .bank3 false false true,
  special .storeSpecialRegister 0x00C2 .bank4 false false true,
  special .storeSpecialRegister 0x00D2 .bank5 false false true,
  special .storeSpecialRegister 0x00E2 .bank6 false false true,
  special .storeSpecialRegister 0x00F2 .bank7 false false true,
  special .storeSpecialRegisterPreDecrement 0x4083 .bank0 true false true,
  special .storeSpecialRegisterPreDecrement 0x4093 .bank1 true false true,
  special .storeSpecialRegisterPreDecrement 0x40A3 .bank2 true false true,
  special .storeSpecialRegisterPreDecrement 0x40B3 .bank3 true false true,
  special .storeSpecialRegisterPreDecrement 0x40C3 .bank4 true false true,
  special .storeSpecialRegisterPreDecrement 0x40D3 .bank5 true false true,
  special .storeSpecialRegisterPreDecrement 0x40E3 .bank6 true false true,
  special .storeSpecialRegisterPreDecrement 0x40F3 .bank7 true false true,
  special .loadSpecialRegister 0x408E .bank0 false true true,
  special .loadSpecialRegister 0x409E .bank1 false true true,
  special .loadSpecialRegister 0x40AE .bank2 false true true,
  special .loadSpecialRegister 0x40BE .bank3 false true true,
  special .loadSpecialRegister 0x40CE .bank4 false true true,
  special .loadSpecialRegister 0x40DE .bank5 false true true,
  special .loadSpecialRegister 0x40EE .bank6 false true true,
  special .loadSpecialRegister 0x40FE .bank7 false true true,
  special .loadSpecialRegisterPostIncrement 0x4087 .bank0 true true true,
  special .loadSpecialRegisterPostIncrement 0x4097 .bank1 true true true,
  special .loadSpecialRegisterPostIncrement 0x40A7 .bank2 true true true,
  special .loadSpecialRegisterPostIncrement 0x40B7 .bank3 true true true,
  special .loadSpecialRegisterPostIncrement 0x40C7 .bank4 true true true,
  special .loadSpecialRegisterPostIncrement 0x40D7 .bank5 true true true,
  special .loadSpecialRegisterPostIncrement 0x40E7 .bank6 true true true,
  special .loadSpecialRegisterPostIncrement 0x40F7 .bank7 true true true]

def metadataForKind (kind : InstructionKind) : Option InstructionMetadata :=
  instructionMetadata.find? fun m => m.kind == kind

end KatanaRecomp.Sh4
