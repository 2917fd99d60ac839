import KatanaRecomp.Runtime.Scif

/-! # The handoff payload of the serial port

The encoder and the decoder check a snapshot with one list of conditions, the
restoring port with another one, which says the same in other words. The
transmitted bytes travel as a vector with a 32-bit length. -/
namespace KatanaRecomp.Runtime.Scif
open Lib ByteFormat Scheduler

inductive HandoffError
  | tooLarge | trailingBytes | truncated | invalidMagic | unknownVersion
  | invalidRegisters | missingEvent | eventWithoutFrame | eventNotAhead | eventWithoutDeadline
  | inconsistentStatus | wrongCycle

/-- The port's members with the cycle they were taken at. -/
structure Sh4ScifSnapshot extends Sh4Scif where
  schedulerCycle : BitVec 64

def Port.snapshot (s : Port) : Sh4ScifSnapshot :=
  { s.device with schedulerCycle := BitVec.ofNat 64 s.scheduler.currentCycle }

/-! ## The checks -/

/-- The register conditions that all three checks share. -/
def Sh4ScifSnapshot.BadRegisters (state : Sh4ScifSnapshot) : Prop :=
  state.transmitFifo.length > fifoCapacity ∨ state.receiveFifo.length > fifoCapacity ∨
    state.mode &&& ~~~0x007B ≠ 0 ∨ state.control &&& ~~~0x00FA ≠ 0 ∨
    state.status &&& ~~~0x00FF ≠ 0 ∨ state.statusLastRead &&& ~~~0x00FF ≠ 0 ∨
    state.fifoControl &&& ~~~0x00FF ≠ 0 ∨ state.port &&& ~~~0x00F3 ≠ 0 ∨
    state.lineStatus &&& ~~~0x0001 ≠ 0 ∨
    state.transmitEvent.isSome ∧ state.transmitEventRehydrationPending

instance (state : Sh4ScifSnapshot) : Decidable state.BadRegisters :=
  inferInstanceAs (Decidable (_ ∨ _))

/-- There is an event, its deadline or the promise of one. -/
def Sh4ScifSnapshot.anyEvent (state : Sh4ScifSnapshot) : Bool :=
  state.transmitEvent.isSome || state.transmitEventDeadline.isSome ||
    state.transmitEventRehydrationPending

/-- The deadline is there and not behind the cycle of the snapshot. -/
def Sh4ScifSnapshot.Overdue (state : Sh4ScifSnapshot) : Prop :=
  ∃ deadline ∈ state.transmitEventDeadline, deadline ≤ state.schedulerCycle.toNat

instance (state : Sh4ScifSnapshot) : Decidable state.Overdue :=
  inferInstanceAs (Decidable (∃ deadline ∈ state.transmitEventDeadline, _))

def derivedBits : BitVec 16 :=
  statusTransmitEnd ||| statusTransmitEmpty ||| statusReceiveFull ||| statusReceiveReady

def Sh4ScifSnapshot.expectedStatus (state : Sh4ScifSnapshot) : BitVec 16 :=
  derivedStatus state.status state.fifoControl state.transmitFifo state.receiveFifo
    (!state.requiresEvent && state.transmitFifo.isEmpty)

def validateScifPortableShape (state : Sh4ScifSnapshot) (requireLiveEvent : Bool) :
    Except HandoffError Unit :=
  if state.BadRegisters then .error .invalidRegisters
  else if requireLiveEvent ∧ state.requiresEvent ∧
      (¬ (state.transmitEvent.isSome ∨ state.transmitEventRehydrationPending) ∨
        state.transmitEventDeadline.isNone) then
    .error .missingEvent
  else if ¬ state.requiresEvent ∧ state.anyEvent then .error .eventWithoutFrame
  else if state.Overdue then .error .eventNotAhead
  else if state.expectedStatus &&& derivedBits ≠ state.status &&& derivedBits then
    .error .inconsistentStatus
  else .ok ()

def validateStateRestore (state : Sh4ScifSnapshot) (expectedSchedulerCycle : BitVec 64) :
    Except HandoffError Unit :=
  if state.schedulerCycle ≠ expectedSchedulerCycle then .error .wrongCycle
  else if state.BadRegisters then .error .invalidRegisters
  else if ¬ state.requiresEvent ∧ state.anyEvent then .error .eventWithoutFrame
  else if state.Overdue then .error .eventNotAhead
  else if (state.transmitEvent.isSome ∨ state.transmitEventRehydrationPending) ∧
      state.transmitEventDeadline.isNone then
    .error .eventWithoutDeadline
  else if state.expectedStatus &&& derivedBits ≠ state.status &&& derivedBits then
    .error .inconsistentStatus
  else .ok ()

/-! ## The codec -/

/-- `KATSCF1\n`. -/
def sh4ScifStateMagic : List Byte := [0x4B, 0x41, 0x54, 0x53, 0x43, 0x46, 0x31, 0x0A]

def contractVersion : BitVec 32 := 1

def uint32Max : Nat := 2 ^ 32 - 1

def writeState (state : Sh4ScifSnapshot) : List Byte :=
  [ sh4ScifStateMagic, littleEndian 4 contractVersion, littleEndian 8 state.schedulerCycle,
    writeByteVector state.transmitFifo, writeByteVector state.receiveFifo,
    writeByteVector state.transmittedBytes, littleEndian 2 state.mode, littleEndian 1 state.bitRate,
    littleEndian 2 state.control, littleEndian 2 state.status, littleEndian 2 state.statusLastRead,
    littleEndian 2 state.fifoControl, littleEndian 2 state.port,
    littleEndian 2 state.lineStatus ].flatten

/-- Each `byte_vector` refuses a length that does not fit its 32 bits. -/
def encodeSh4ScifState (state : Sh4ScifSnapshot) : Except HandoffError (List Byte) := do
  validateScifPortableShape state true
  if state.transmitFifo.length > uint32Max ∨ state.receiveFifo.length > uint32Max ∨
      state.transmittedBytes.length > uint32Max then
    throw .tooLarge
  else pure (writeState state)

abbrev ScifStateReader := Reader HandoffError

def readU8 : ScifStateReader (BitVec 8) := word .truncated 1 8
def readU16 : ScifStateReader (BitVec 16) := word .truncated 2 16
def readU32 : ScifStateReader (BitVec 32) := word .truncated 4 32
def readU64 : ScifStateReader (BitVec 64) := word .truncated 8 64

def readByteVector : ScifStateReader (List Byte) := byteVector .truncated

def expectMagic : ScifStateReader Unit := do
  let magic ← take .truncated sh4ScifStateMagic.length
  reject (magic ≠ sh4ScifStateMagic) .invalidMagic

def expectVersion : ScifStateReader Unit := do
  let version ← readU32
  reject (version ≠ contractVersion) .unknownVersion

/-- A check of the source inside a reader. -/
def checked (result : Except HandoffError Unit) : ScifStateReader Unit := fun bytes =>
  match result with
  | .ok _ => .ok ((), bytes)
  | .error e => .error e

def readState : ScifStateReader Sh4ScifSnapshot := do
  expectMagic
  expectVersion
  let schedulerCycle ← readU64
  let transmitFifo ← readByteVector
  let receiveFifo ← readByteVector
  let transmittedBytes ← readByteVector
  let mode ← readU16
  let bitRate ← readU8
  let control ← readU16
  let status ← readU16
  let statusLastRead ← readU16
  let fifoControl ← readU16
  let port ← readU16
  let lineStatus ← readU16
  let state : Sh4ScifSnapshot :=
    { schedulerCycle, transmitFifo, receiveFifo, transmittedBytes, mode, bitRate, control, status
      statusLastRead, fifoControl, port, lineStatus
      transmitEvent := none, transmitEventDeadline := none
      transmitEventRehydrationPending := false }
  checked (validateScifPortableShape state false)
  pure state

def decodeSh4ScifState (bytes : List Byte) : Except HandoffError Sh4ScifSnapshot :=
  readAll .trailingBytes readState bytes

end KatanaRecomp.Runtime.Scif
