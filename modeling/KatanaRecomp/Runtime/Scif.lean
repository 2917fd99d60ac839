import KatanaRecomp.Lib.ByteFormat
import KatanaRecomp.Lib.StateExcept
import KatanaRecomp.Runtime.Scheduler

/-! # The serial port with its FIFOs

`Sh4Scif` sends the bytes of its transmit FIFO one frame at a time: while there
is a byte to send and sending is on, an event of the scheduler stands at the
end of the frame. Four status bits are derived from the FIFOs and recomputed
by `refreshStatus`. A snapshot travels as bytes without the event, which
belongs to the scheduler's own payload. -/
namespace KatanaRecomp.Runtime.Scif
open Lib ByteFormat Scheduler

inductive MemoryAccessWidth
  | byte | halfword | word
  deriving DecidableEq

inductive ScifError
  | width (name : String)
  | unknownRead | unknownWrite
  | frameOverflow | deadlineOverflow | noActiveTransfer
  | resetDuringAdvance | resetGenerationOverflow
  | scheduler (error : SchedulerError)

/-! ## The registers -/

def fifoCapacity : Nat := 16

def statusError : BitVec 16 := 0x0080
def statusTransmitEnd : BitVec 16 := 0x0040
def statusTransmitEmpty : BitVec 16 := 0x0020
def statusBreak : BitVec 16 := 0x0010
def statusFramingError : BitVec 16 := 0x0008
def statusParityError : BitVec 16 := 0x0004
def statusReceiveFull : BitVec 16 := 0x0002
def statusReceiveReady : BitVec 16 := 0x0001

structure Sh4Scif where
  transmitEvent : Option Nat := none
  transmitEventDeadline : Option Nat := none
  transmitEventRehydrationPending : Bool := false
  transmitFifo : List Byte := []
  receiveFifo : List Byte := []
  transmittedBytes : List Byte := []
  mode : BitVec 16 := 0
  bitRate : BitVec 8 := 0xFF
  control : BitVec 16 := 0
  status : BitVec 16 := statusTransmitEnd ||| statusTransmitEmpty
  statusLastRead : BitVec 16 := 0
  fifoControl : BitVec 16 := 0
  port : BitVec 16 := 0
  lineStatus : BitVec 16 := 0

def receiveLevels : List Nat := [1, 4, 8, 14]

def transmitLevels : List Nat := [8, 4, 2, 1]

def receiveLevel (fifoControl : BitVec 16) : Nat :=
  receiveLevels.getD ((fifoControl >>> 6) &&& 3).toNat 0

def transmitLevel (fifoControl : BitVec 16) : Nat :=
  transmitLevels.getD ((fifoControl >>> 4) &&& 3).toNat 0

/-- The status with the derived bits recomputed; `idle` is what the transmit-end bit shows. -/
def derivedStatus (status fifoControl : BitVec 16) (transmitFifo receiveFifo : List Byte)
    (idle : Bool) : BitVec 16 :=
  let status :=
    if transmitFifo.length ≤ transmitLevel fifoControl then status ||| statusTransmitEmpty
    else status &&& ~~~statusTransmitEmpty
  let status :=
    if idle then status ||| statusTransmitEnd else status &&& ~~~statusTransmitEnd
  if receiveFifo.isEmpty then status &&& ~~~(statusReceiveFull ||| statusReceiveReady)
  else
    let status := status ||| statusReceiveReady
    if receiveFifo.length ≥ receiveLevel fifoControl then status ||| statusReceiveFull
    else status &&& ~~~statusReceiveFull

namespace Sh4Scif

/-- The rest of the expression cannot wrap: the frame has at most 12 bits. -/
def frameCycles (scif : Sh4Scif) : Except ScifError Nat :=
  let clockScale := 1 <<< ((scif.mode &&& 3).toNat * 2)
  let dataBits := if scif.mode &&& 0x40 ≠ 0 then 7 else 8
  let parityBits := if scif.mode &&& 0x20 ≠ 0 then 1 else 0
  let stopBits := if scif.mode &&& 0x08 ≠ 0 then 2 else 1
  let frameBits := 1 + dataBits + parityBits + stopBits
  let divisor := 128 * (scif.bitRate.toNat + 1) * clockScale
  if divisor > Scheduler.uint64Max / frameBits then .error .frameOverflow
  else .ok (divisor * frameBits)

def refreshStatus (scif : Sh4Scif) : Sh4Scif :=
  { scif with
    status := derivedStatus scif.status scif.fifoControl scif.transmitFifo scif.receiveFifo
      (scif.transmitEvent.isNone && !scif.transmitEventRehydrationPending &&
        scif.transmitFifo.isEmpty) }

/-- There is a byte to send and sending is on. -/
def requiresEvent (scif : Sh4Scif) : Bool :=
  !scif.transmitFifo.isEmpty && scif.control &&& 0x20 != 0 && scif.fifoControl &&& 0x04 == 0

def withoutEvent (scif : Sh4Scif) : Sh4Scif :=
  { scif with
    transmitEvent := none
    transmitEventDeadline := none
    transmitEventRehydrationPending := false }

end Sh4Scif

inductive Sh4ScifInterrupt
  | error | receive | break | transmit

/-- The levels `update_interrupts` passes to the observer. -/
def Sh4Scif.interruptLevel (scif : Sh4Scif) : Sh4ScifInterrupt → Bool
  | .transmit => scif.control &&& 0x80 != 0 && scif.status &&& statusTransmitEmpty != 0
  | .receive =>
    scif.control &&& 0x40 != 0 && scif.status &&& (statusReceiveFull ||| statusReceiveReady) != 0
  | .break =>
    scif.control &&& (0x40 ||| 0x08) != 0 && scif.status &&& statusBreak != 0
  | .error =>
    scif.control &&& (0x40 ||| 0x08) != 0 &&
      (scif.status &&& (statusError ||| statusFramingError ||| statusParityError) != 0 ||
        scif.lineStatus &&& 1 != 0)

/-- The only event the port puts on the scheduler. -/
inductive ScifCallback
  | completeTransmit

/-- The port on its scheduler; `phase` is where the scheduler's `advance_to` stands and `lines`
what the interrupt observer was last told. -/
structure Port where
  scheduler : EventScheduler ScifCallback
  phase : Phase := .idle
  resetGeneration : Nat := 0
  device : Sh4Scif := {}
  lines : Sh4ScifInterrupt → Bool := fun _ => false

abbrev ScifM := EStateM ScifError Port

def onDevice (f : Sh4Scif → Sh4Scif) : ScifM Unit := modify fun s => { s with device := f s.device }

def updateInterrupts : ScifM Unit := modify fun s =>
  let device := s.device.refreshStatus
  { s with device, lines := device.interruptLevel }

/-- `scheduler_.schedule_at` with the error passed on. -/
def schedule (guestCycle : Nat) : ScifM Nat := fun s =>
  match scheduleAt s.scheduler guestCycle (some .completeTransmit) .scifTransmit with
  | .ok (id, scheduler) => .ok id { s with scheduler }
  | .error e => .error (.scheduler e) s

def scheduleTransmit : ScifM Unit := do
  let s ← get
  if s.device.transmitEvent.isSome || s.device.transmitEventRehydrationPending ||
      !s.device.requiresEvent then
    pure ()
  else do
    let cycles ← ofChecked s.device.frameCycles
    if cycles > Scheduler.uint64Max - s.scheduler.currentCycle then throw .deadlineOverflow
    else do
      let deadline := s.scheduler.currentCycle + cycles
      let eventId ← schedule deadline
      onDevice fun device =>
        { device with
          transmitEvent := some eventId
          transmitEventDeadline := some deadline
          transmitEventRehydrationPending := false }
      updateInterrupts

/-- The byte at the head of the FIFO goes out; the transmit observer is given it too. -/
def Sh4Scif.sent (scif : Sh4Scif) : Sh4Scif :=
  { scif.withoutEvent with
    transmitFifo := scif.transmitFifo.tail
    transmittedBytes := scif.transmittedBytes ++ scif.transmitFifo.take 1 }

def completeTransmit (eventId : Nat) : ScifM Unit := do
  let s ← get
  if s.device.transmitEvent ≠ some eventId ∨ s.device.transmitFifo = [] then
    throw .noActiveTransfer
  else do
    onDevice Sh4Scif.sent
    updateInterrupts
    scheduleTransmit

def cancelTransmit : ScifM Unit := modify fun s =>
  { s with
    scheduler := match s.device.transmitEvent with
      | some id => (cancel s.scheduler id).2
      | none => s.scheduler
    device := s.device.withoutEvent }

def requireWidth (actual expected : MemoryAccessWidth) (name : String) : ScifM Unit :=
  if actual ≠ expected then throw (.width name) else pure ()

def Sh4Scif.received (scif : Sh4Scif) : Sh4Scif := { scif with receiveFifo := scif.receiveFifo.tail }

def read (offset : BitVec 32) (width : MemoryAccessWidth) : ScifM (BitVec 32) := do
  let s ← get
  let scif := s.device
  match offset.toNat with
  | 0x00 => do
    requireWidth width .halfword "SCSMR2"
    pure (scif.mode.setWidth 32)
  | 0x04 => do
    requireWidth width .byte "SCBRR2"
    pure (scif.bitRate.setWidth 32)
  | 0x08 => do
    requireWidth width .halfword "SCSCR2"
    pure (scif.control.setWidth 32)
  | 0x10 => do
    requireWidth width .halfword "SCFSR2"
    onDevice fun scif => { scif with statusLastRead := scif.status }
    pure (scif.status.setWidth 32)
  | 0x14 => do
    requireWidth width .byte "SCFRDR2"
    onDevice Sh4Scif.received
    updateInterrupts
    pure ((scif.receiveFifo.headD 0).setWidth 32)
  | 0x18 => do
    requireWidth width .halfword "SCFCR2"
    pure (scif.fifoControl.setWidth 32)
  | 0x1C => do
    requireWidth width .halfword "SCFDR2"
    pure (BitVec.ofNat 32 (scif.transmitFifo.length <<< 8 ||| scif.receiveFifo.length))
  | 0x20 => do
    requireWidth width .halfword "SCSPTR2"
    pure ((scif.port &&& ~~~0x10).setWidth 32)
  | 0x24 => do
    requireWidth width .halfword "SCLSR2"
    pure (scif.lineStatus.setWidth 32)
  | _ => throw .unknownRead

/-- The byte as the line carries it: seven bits in the seven-bit mode. -/
def Sh4Scif.lineByte (scif : Sh4Scif) (value : Byte) : Byte :=
  if scif.mode &&& 0x40 ≠ 0 then value &&& 0x7F else value

def Sh4Scif.acceptsTransmit (scif : Sh4Scif) : Bool :=
  scif.fifoControl &&& 0x04 == 0 && scif.transmitFifo.length < fifoCapacity

def Sh4Scif.accept (scif : Sh4Scif) (value : BitVec 32) : Sh4Scif :=
  if scif.acceptsTransmit then
    { scif with transmitFifo := scif.transmitFifo ++ [scif.lineByte (value.setWidth 8)] }
  else scif

/-- A flag falls when it was read as set and is written as clear. -/
def Sh4Scif.writeStatus (scif : Sh4Scif) (value : BitVec 32) : Sh4Scif :=
  let requested : BitVec 16 := value.setWidth 16
  let readClear := scif.statusLastRead &&& ~~~requested &&& 0x00F3
  { scif with
    status := scif.status &&& ~~~readClear
    statusLastRead := scif.statusLastRead &&& requested }

def write (offset value : BitVec 32) (width : MemoryAccessWidth) : ScifM Unit :=
  match offset.toNat with
  | 0x00 => do
    requireWidth width .halfword "SCSMR2"
    onDevice fun scif => { scif with mode := (value &&& 0x007B).setWidth 16 }
  | 0x04 => do
    requireWidth width .byte "SCBRR2"
    onDevice fun scif => { scif with bitRate := value.setWidth 8 }
  | 0x08 => do
    requireWidth width .halfword "SCSCR2"
    onDevice fun scif => { scif with control := (value &&& 0x00FA).setWidth 16 }
    let s ← get
    if s.device.control &&& 0x20 = 0 then cancelTransmit else pure ()
    updateInterrupts
    scheduleTransmit
  | 0x0C => do
    requireWidth width .byte "SCFTDR2"
    onDevice fun scif => scif.accept value
    updateInterrupts
    scheduleTransmit
  | 0x10 => do
    requireWidth width .halfword "SCFSR2"
    onDevice fun scif => scif.writeStatus value
    updateInterrupts
  | 0x18 => do
    requireWidth width .halfword "SCFCR2"
    onDevice fun scif => { scif with fifoControl := (value &&& 0x00FF).setWidth 16 }
    let s ← get
    if s.device.fifoControl &&& 0x04 ≠ 0 then do
      cancelTransmit
      onDevice fun scif => { scif with transmitFifo := [] }
    else pure ()
    if s.device.fifoControl &&& 0x02 ≠ 0 then
      onDevice fun scif => { scif with receiveFifo := [] }
    else pure ()
    updateInterrupts
    scheduleTransmit
  | 0x20 => do
    requireWidth width .halfword "SCSPTR2"
    onDevice fun scif => { scif with port := (value &&& 0x00F3).setWidth 16 }
  | 0x24 => do
    requireWidth width .halfword "SCLSR2"
    if value &&& 1 = 0 then
      onDevice fun scif => { scif with lineStatus := scif.lineStatus &&& ~~~1 }
    else pure ()
    updateInterrupts
  | _ => throw .unknownWrite

def Sh4Scif.receive (scif : Sh4Scif) (value : Byte) : Sh4Scif :=
  if scif.receiveFifo.length ≥ fifoCapacity then { scif with lineStatus := scif.lineStatus ||| 1 }
  else { scif with receiveFifo := scif.receiveFifo ++ [scif.lineByte value] }

def injectReceive (value : Byte) : ScifM Unit := do
  let s ← get
  if s.device.control &&& 0x10 = 0 ∨ s.device.fifoControl &&& 0x02 ≠ 0 then pure ()
  else do
    onDevice fun scif => scif.receive value
    updateInterrupts

def injectBreak : ScifM Unit := do
  onDevice fun scif => { scif with status := scif.status ||| statusBreak }
  updateInterrupts

/-- `Sh4Scif::reset`: every member goes back to its initial value. -/
def resetDevice : ScifM Unit := do
  cancelTransmit
  onDevice fun _ => {}
  updateInterrupts

/-- `Sh4Scif::handle_scheduler_reset`; what `schedule_transmit` throws is swallowed. -/
def handleSchedulerReset : ScifM Unit := do
  onDevice Sh4Scif.withoutEvent
  tryCatch scheduleTransmit fun _ => pure ()

/-! ## The scheduler around it -/

/-- `EventScheduler::reset` with the port's observer. -/
def resetScheduler : ScifM Unit := do
  let s ← get
  if s.scheduler.advanceInProgress then throw .resetDuringAdvance
  else if s.resetGeneration = Scheduler.uint64Max then throw .resetGenerationOverflow
  else do
    modify fun s =>
      { s with
        scheduler :=
          { s.scheduler with
            events := ∅, eventKeys := ∅, currentCycle := 0, processedEventCount := 0 }
        resetGeneration := s.resetGeneration + 1 }
    handleSchedulerReset

/-- One round of the loop of `advance_to`. A throw of the callback leaves the advance. -/
def advanceRound (a : Advance) : ScifM Unit := fun s =>
  match loopHead s.scheduler a with
  | .returns _ scheduler => .ok () { s with scheduler, phase := .idle }
  | .fire key a' scheduler =>
    match completeTransmit key.id { s with scheduler, phase := .callback a' } with
    | .ok _ t => .ok () { t with phase := .loop a' }
    | .error e t => .error e { t with scheduler := endAdvance t.scheduler, phase := .idle }

def advanceBegins (s : Port) : Except SchedulerError (Advance × EventScheduler ScifCallback) →
      EStateM.Result ScifError Port Unit
  | .ok (a, scheduler) => .ok () { s with scheduler, phase := .loop a }
  | .error e => .error (.scheduler e) s

inductive Action
  | read (offset : BitVec 32) (width : MemoryAccessWidth)
  | write (offset value : BitVec 32) (width : MemoryAccessWidth)
  | injectReceive (value : Byte)
  | injectBreak
  | reset
  | resetScheduler
  | advanceTo (guestCycle : BitVec 64) (eventBudget : Nat)
  | advanceBy (guestCycles : BitVec 64) (eventBudget : Nat)
  | advanceRound

/-- An action between advances. -/
def callerAction (s : Port) : Action → EStateM.Result ScifError Port Unit
  | .read offset width => (do let _ ← read offset width) s
  | .write offset value width => write offset value width s
  | .injectReceive value => injectReceive value s
  | .injectBreak => injectBreak s
  | .reset => resetDevice s
  | .resetScheduler => resetScheduler s
  | .advanceTo cycle budget => advanceBegins s (beginAdvance s.scheduler cycle.toNat budget)
  | .advanceBy cycles budget => advanceBegins s (beginAdvanceBy s.scheduler cycles.toNat budget)
  | .advanceRound => .ok () s

/-- One action; an action its phase does not admit does nothing. -/
def perform (s : Port) (action : Action) : EStateM.Result ScifError Port Unit :=
  match s.phase, action with
  | .loop a, .advanceRound => advanceRound a s
  | .loop _, _ => .ok () s
  | _, action => callerAction s action

def resultState : EStateM.Result ScifError Port Unit → Port
  | .ok _ t => t
  | .error _ t => t

def step (s : Port) (action : Action) : Port := resultState (perform s action)

def run (s : Port) (actions : List Action) : Port := actions.foldl step s

/-- A new port on a new scheduler; the constructor resets it. -/
def Port.create (guestCycleBudget : Option Nat) : Port :=
  resultState (resetDevice { scheduler := { guestCycleBudget := guestCycleBudget } })

end KatanaRecomp.Runtime.Scif
