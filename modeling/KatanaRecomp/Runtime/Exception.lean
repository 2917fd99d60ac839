import KatanaRecomp.Runtime.Cpu

/-! # Exception entry and return

`enterException` saves SR, the return address and R15, raises MD, RB and BL and
jumps to the vector; writing RB exchanges R0..R7 with the other bank. A general
exception under SR.BL and a TLB multiple hit reset the CPU instead. The physical
addresses and the fault provenance that the source keeps for diagnostics are
left out. -/
namespace KatanaRecomp.Runtime

def generalExceptionVector : BitVec 32 := 0x00000100
def tlbMissExceptionVector : BitVec 32 := 0x00000400
def interruptVector : BitVec 32 := 0x00000600
def tlbMultipleHitResetVector : BitVec 32 := 0xA0000000

def eventAddressErrorRead : BitVec 32 := 0x000000E0
def eventAddressErrorWrite : BitVec 32 := 0x00000100
def eventTlbMissRead : BitVec 32 := 0x00000040
def eventTlbMissWrite : BitVec 32 := 0x00000060
def eventInitialPageWrite : BitVec 32 := 0x00000080
def eventTlbProtectionRead : BitVec 32 := 0x000000A0
def eventTlbProtectionWrite : BitVec 32 := 0x000000C0
def eventTlbMultipleHit : BitVec 32 := 0x00000140
def eventTrapa : BitVec 32 := 0x00000160
def eventIllegalInstruction : BitVec 32 := 0x00000180
def eventSlotIllegalInstruction : BitVec 32 := 0x000001A0
def eventFpuDisabled : BitVec 32 := 0x00000800
def eventSlotFpuDisabled : BitVec 32 := 0x00000820
def eventFpuException : BitVec 32 := 0x00000120

structure ExceptionMetadata where
  cause : ExceptionCause
  eventCode : BitVec 32
  vectorOffset : BitVec 32
  interrupt : Bool

/-- `exception_table`. Host-side bus failures enter the data-address class. -/
def exceptionTable : ExceptionCause → ExceptionMetadata
  | .none => ⟨.none, 0, generalExceptionVector, false⟩
  | .trap => ⟨.trap, eventTrapa, generalExceptionVector, false⟩
  | .illegalInstruction =>
    ⟨.illegalInstruction, eventIllegalInstruction, generalExceptionVector, false⟩
  | .slotIllegalInstruction =>
    ⟨.slotIllegalInstruction, eventSlotIllegalInstruction, generalExceptionVector, false⟩
  | .fpuDisabled => ⟨.fpuDisabled, eventFpuDisabled, generalExceptionVector, false⟩
  | .slotFpuDisabled => ⟨.slotFpuDisabled, eventSlotFpuDisabled, generalExceptionVector, false⟩
  | .addressErrorRead | .busErrorRead =>
    ⟨.addressErrorRead, eventAddressErrorRead, generalExceptionVector, false⟩
  | .addressErrorWrite | .busErrorWrite =>
    ⟨.addressErrorWrite, eventAddressErrorWrite, generalExceptionVector, false⟩
  | .tlbMissRead => ⟨.tlbMissRead, eventTlbMissRead, tlbMissExceptionVector, false⟩
  | .tlbMissWrite => ⟨.tlbMissWrite, eventTlbMissWrite, tlbMissExceptionVector, false⟩
  | .initialPageWrite => ⟨.initialPageWrite, eventInitialPageWrite, generalExceptionVector, false⟩
  | .tlbProtectionRead =>
    ⟨.tlbProtectionRead, eventTlbProtectionRead, generalExceptionVector, false⟩
  | .tlbProtectionWrite =>
    ⟨.tlbProtectionWrite, eventTlbProtectionWrite, generalExceptionVector, false⟩
  | .tlbMultipleHit => ⟨.tlbMultipleHit, eventTlbMultipleHit, generalExceptionVector, false⟩
  | .interrupt => ⟨.interrupt, 0, interruptVector, true⟩
  | .fpuException => ⟨.fpuException, eventFpuException, generalExceptionVector, false⟩

def exceptionMetadata (cause : ExceptionCause) (interruptEventCode : BitVec 32 := 0) :
    ExceptionMetadata :=
  let metadata := exceptionTable cause
  if metadata.interrupt then { metadata with eventCode := interruptEventCode } else metadata

structure ExceptionRequest where
  cause : ExceptionCause
  eventCode : BitVec 32
  returnPc : BitVec 32
  faultAddress : Option (BitVec 32) := Option.none
  inDelaySlot : Bool := false
  instructionPc : BitVec 32
  delaySlotOwnerPc : Option (BitVec 32) := Option.none

def nextExceptionGeneration (current : BitVec 64) : BitVec 64 :=
  if current = BitVec.allOnes 64 then 1 else current + 1

def exceptionUpdatesPteh : ExceptionCause → Bool
  | .addressErrorRead | .addressErrorWrite | .tlbMissRead | .tlbMissWrite | .initialPageWrite
  | .tlbProtectionRead | .tlbProtectionWrite | .tlbMultipleHit => true
  | _ => false

/-- The page number of a faulting address beside the ASID already there. -/
def faultPteh (pteh address : BitVec 32) : BitVec 32 :=
  (pteh &&& 0x000000FF) ||| (address &&& 0xFFFFFC00)

/-- SR after a manual reset. -/
def resetSr : BitVec 32 := srMdMask ||| srRbMask ||| srBlMask ||| srInterruptMask

/-- `reset_cpu` with the reset state a manual reset uses. -/
def resetCpu : CpuState :=
  ({ pc := tlbMultipleHitResetVector : CpuState }.writeFpscr 0).writeSr resetSr

section

-- the host's manual-reset callback, when one is installed
variable (sink : Option (CpuState → ManualResetRequest → CpuState))

def requestManualReset (cpu : CpuState) (request : ManualResetRequest) : CpuState :=
  let generation := nextExceptionGeneration cpu.exceptionGeneration
  let pteh := request.faultAddress.map (faultPteh cpu.pteh)
  let after := match sink with
    | some callback => callback cpu request
    | none => resetCpu
  let recorded : CpuState :=
    { after with
      exceptionGeneration := generation
      attemptedGuestInstructions := cpu.attemptedGuestInstructions
      lastExceptionGeneration := generation
      lastExceptionCause := request.cause
      lastExceptionInstructionPc := request.instructionPc
      lastExceptionOwnerPc := request.ownerPc
      exceptionInDelaySlot := request.inDelaySlot
      expevt := request.eventCode
      tea := request.faultAddress.getD after.tea
      pteh := if exceptionUpdatesPteh request.cause then pteh.getD after.pteh else after.pteh
      pc := tlbMultipleHitResetVector }
  { recorded.writeSr resetSr with trapPending := false, sleeping := false }

def enterException (cpu : CpuState) (request : ExceptionRequest) : CpuState :=
  let metadata := exceptionMetadata request.cause request.eventCode
  let savedSr := cpu.readSr
  let ownerPc := request.delaySlotOwnerPc.getD request.instructionPc
  if !metadata.interrupt && metadata.vectorOffset == generalExceptionVector &&
      savedSr &&& srBlMask != 0 then
    requestManualReset sink cpu
      { reason := .blockedGeneralException
        cause := metadata.cause
        eventCode := metadata.eventCode
        faultAddress := request.faultAddress
        instructionPc := request.instructionPc
        ownerPc := ownerPc
        inDelaySlot := request.inDelaySlot }
  else
    let generation := nextExceptionGeneration cpu.exceptionGeneration
    let entered : CpuState :=
      { cpu with
        exceptionGeneration := generation
        ssr := savedSr
        spc := request.returnPc
        sgr := cpu.r 15
        tea := request.faultAddress.getD cpu.tea
        intevt := if metadata.interrupt then metadata.eventCode else cpu.intevt
        expevt := if metadata.interrupt then cpu.expevt else metadata.eventCode
        lastExceptionCause := metadata.cause
        exceptionInDelaySlot := request.inDelaySlot
        lastExceptionInstructionPc := request.instructionPc
        lastExceptionOwnerPc := ownerPc
        lastExceptionGeneration := generation
        trapPending := true
        sleeping := false }
    { entered.writeSr (savedSr ||| srMdMask ||| srRbMask ||| srBlMask) with
      pc := cpu.vbr + metadata.vectorOffset }

def raiseTrapa (cpu : CpuState) (immediate : BitVec 8) (instructionPc : BitVec 32) : CpuState :=
  enterException sink { cpu with tra := immediate.setWidth 32 <<< 2 }
    { cause := .trap
      eventCode := eventTrapa
      returnPc := instructionPc + 2
      instructionPc := instructionPc }

def raiseIllegalInstruction (cpu : CpuState) (instructionPc : BitVec 32)
    (delaySlotOwner : Option (BitVec 32)) : CpuState := enterException sink cpu
    { cause := if delaySlotOwner.isSome then .slotIllegalInstruction else .illegalInstruction
      eventCode :=
        if delaySlotOwner.isSome then eventSlotIllegalInstruction else eventIllegalInstruction
      returnPc := delaySlotOwner.getD instructionPc
      inDelaySlot := delaySlotOwner.isSome
      instructionPc := instructionPc
      delaySlotOwnerPc := delaySlotOwner }

def raiseFpuDisabled (cpu : CpuState) (instructionPc : BitVec 32)
    (delaySlotOwner : Option (BitVec 32)) : CpuState := enterException sink cpu
    { cause := if delaySlotOwner.isSome then .slotFpuDisabled else .fpuDisabled
      eventCode := if delaySlotOwner.isSome then eventSlotFpuDisabled else eventFpuDisabled
      returnPc := delaySlotOwner.getD instructionPc
      inDelaySlot := delaySlotOwner.isSome
      instructionPc := instructionPc
      delaySlotOwnerPc := delaySlotOwner }

def memoryExceptionCause (error : MemoryAccessError) : ExceptionCause :=
  let write := error.operation == .write
  match error.reason with
  | .tlbMiss => if write then .tlbMissWrite else .tlbMissRead
  | .tlbMultipleHit => .tlbMultipleHit
  | .initialPageWrite => .initialPageWrite
  | .tlbProtection => if write then .tlbProtectionWrite else .tlbProtectionRead
  | .deviceRejected => if write then .busErrorWrite else .busErrorRead
  | _ => if write then .addressErrorWrite else .addressErrorRead

def enterMemoryException (cpu : CpuState) (error : MemoryAccessError) (instructionPc : BitVec 32)
    (delaySlotOwner : Option (BitVec 32)) : CpuState :=
  let cause := memoryExceptionCause error
  let metadata := exceptionMetadata cause
  let cpu := if exceptionUpdatesPteh metadata.cause then
      { cpu with pteh := faultPteh cpu.pteh error.address } else cpu
  if cause = .tlbMultipleHit then
    requestManualReset sink cpu
      { reason := .tlbMultipleHit
        cause := cause
        eventCode := eventTlbMultipleHit
        faultAddress := error.address
        instructionPc := instructionPc
        ownerPc := delaySlotOwner.getD instructionPc
        inDelaySlot := delaySlotOwner.isSome }
  else
    enterException sink cpu
      { cause := cause
        eventCode := metadata.eventCode
        returnPc := delaySlotOwner.getD instructionPc
        faultAddress := error.address
        inDelaySlot := delaySlotOwner.isSome
        instructionPc := instructionPc
        delaySlotOwnerPc := delaySlotOwner }

end

def returnFromException (cpu : CpuState) : CpuState :=
  { cpu.writeSr cpu.ssr with
    pc := cpu.spc
    trapPending := false
    lastExceptionCause := .none
    exceptionInDelaySlot := false }

end KatanaRecomp.Runtime
