import KatanaRecomp.Runtime.Dmac

/-! # The DMA controller on its scheduler

The calls of the controller as a state monad that keeps what was done before a
throw. Other devices share the scheduler: they plan and cancel events of their
own, and what their callbacks do are the actions up to their return. -/
namespace KatanaRecomp.Runtime.Dmac
open Lib ByteFormat Scheduler

/-- What a pending event calls: the next units of a channel, or the code of another device. -/
inductive DmacCallback
  | transfer (index : Fin 4)
  | device (id : Nat)

/-- The controller with its scheduler and memory; `phase` is where `advance_to` stands. -/
structure Machine (μ : Type) where
  scheduler : EventScheduler DmacCallback
  phase : Phase := .idle
  resetGeneration : Nat := 0
  device : Sh4Dmac
  memory : μ

abbrev DmacM (μ : Type) := EStateM DmacError (Machine μ)

variable {μ : Type}

/-- `scheduler_.next_event_cycle()`. -/
def nextEventCycle (scheduler : EventScheduler DmacCallback) : Option Nat :=
  scheduler.events.minKey?.map EventKey.deadline

def onDevice (f : Sh4Dmac → Sh4Dmac) : DmacM μ Unit :=
  modify fun m => { m with device := f m.device }

def cancelEvent : DmacM μ Unit := modify fun m =>
  { m with
    scheduler := match m.device.event with
      | some id => (cancel m.scheduler id).2
      | none => m.scheduler
    device := m.device.withoutEvent }

def setFault (index : Fin 4) (reason : DmaFaultReason) (size : BitVec 64) : DmacM μ Unit := do
  onDevice fun dmac => dmac.recordFault index reason size
  cancelEvent
  onDevice Sh4Dmac.discardExternalRequests

def checkedDelay (cyclesPerByte bytes : Nat) : Except DmacError Nat :=
  if cyclesPerByte > Scheduler.uint64Max / bytes then .error .delayOverflow
  else .ok (cyclesPerByte * bytes)

/-- A call of the scheduler that plans an event, with the error passed on. -/
def plan (call : EventScheduler DmacCallback →
    Except SchedulerError (Nat × EventScheduler DmacCallback)) : DmacM μ Nat := fun m =>
  match call m.scheduler with
  | .ok (id, scheduler) => .ok id { m with scheduler }
  | .error e => .error (.scheduler e) m

def schedule (index : Fin 4) : DmacM μ Unit := do
  let m ← get
  let size := (m.device.channels index).transferSize
  if size = 0 then setFault index .invalidTransferSize 0
  else do
    let units := m.device.batchUnits (nextEventCycle m.scheduler) m.scheduler.currentCycle index size
    onDevice fun dmac =>
      { dmac with scheduledUnits := BitVec.ofNat 64 units, scheduledChannel := some index }
    let unitDelay ← ofChecked (checkedDelay m.device.timing.guestCyclesPerByte.toNat size)
    let delay ← ofChecked (checkedDelay unitDelay units)
    let eventId ← plan fun scheduler =>
      scheduleAfter scheduler delay (some (.transfer index)) .sh4Dmac
    onDevice fun dmac => { dmac with event := some eventId, eventRehydrationPending := false }

/-- The second half of `reevaluate`. -/
def scheduleNext : DmacM μ Unit := do
  let m ← get
  match m.device.selectChannel with
  | some next => schedule next
  | none => pure ()

def reevaluate : DmacM μ Unit := do
  let m ← get
  if m.device.event.isSome then
    if m.device.scheduledChannel.any m.device.enabled then pure ()
    else do
      cancelEvent
      scheduleNext
  else scheduleNext

/-- `channel(index)`: the index is checked first. -/
def withChannel {α : Type} (index : Nat) (call : Fin 4 → DmacM μ α) : DmacM μ α :=
  if h : index < 4 then call ⟨index, h⟩ else throw .channel

/-- A write of a channel register. -/
def writeChannel (index : Nat) (f : Channel → Channel) : DmacM μ Unit :=
  withChannel index fun index => do
    onDevice fun dmac => dmac.updateChannel index f
    reevaluate

def writeSource (index : Nat) (value : BitVec 32) : DmacM μ Unit :=
  writeChannel index fun channel => { channel with source := value }

def writeDestination (index : Nat) (value : BitVec 32) : DmacM μ Unit :=
  writeChannel index fun channel => { channel with destination := value }

def writeCount (index : Nat) (value : BitVec 32) : DmacM μ Unit :=
  writeChannel index fun channel => { channel with count := value &&& transferCountMask }

def writeControl (index : Nat) (value : BitVec 32) : DmacM μ Unit :=
  writeChannel index fun channel => channel.writeControl value

def writeOperation (value : BitVec 32) : DmacM μ Unit := do
  onDevice fun dmac => dmac.writeOperation value
  reevaluate

/-- The only transfer whose destination may advance by itself. -/
def Sh4Dmac.channel2DirectTextureContract (dmac : Sh4Dmac) (index : Fin 4) : Bool :=
  let value := dmac.channels index
  index == 2 && value.requestSource == 2 &&
    dmac.operation &&& (masterEnable ||| onDemandEnable) == masterEnable ||| onDemandEnable &&
    value.control &&& channelEnable != 0 && value.control &&& 0x00000080 != 0 &&
    value.transferSize == 32 && addressMode value.control 12 == 1 &&
    addressMode value.control 14 == 0

def requestTransfer (index : Nat) (requests : BitVec 32)
    (progression : DmaExternalDestinationProgression) : DmacM μ Unit :=
  withChannel index fun index => do
    let m ← get
    let value := m.device.channels index
    if requests = 0 then throw .noRequests
    else if progression = .incrementByTransferUnit ∧
        m.device.channel2DirectTextureContract index = false then
      throw .progressionContract
    else if value.pendingRequests ≠ 0 ∧ value.externalDestinationProgression ≠ progression then
      throw .mixedProgression
    else if requests.toNat > 0xFFFFFFFF - value.pendingRequests.toNat then throw .requestOverflow
    else do
      onDevice fun dmac => dmac.updateChannel index fun value =>
        { value with
          externalDestinationProgression := progression
          pendingRequests := value.pendingRequests + requests }
      reevaluate

/-- Channel 0 has no request queue. -/
def onDemandCapacity (index : Fin 4) : Nat := if index = 0 then 1 else onDemandQueueDepth

/-- A request the queue takes. -/
def Sh4Dmac.acceptsOnDemand (dmac : Sh4Dmac) (index : Fin 4) : Bool :=
  dmac.operation &&& onDemandEnable != 0 &&
    (dmac.channels index).pendingOnDemandRequests.toNat < onDemandCapacity index &&
    !(index == 0 && dmac.scheduledChannel == some index)

def requestOnDemandTransfer (index : Nat) : DmacM μ Bool := withChannel index fun index => do
    let m ← get
    if m.device.acceptsOnDemand index then do
      onDevice fun dmac =>
        { dmac.updateChannel index fun value =>
            { value with pendingOnDemandRequests := value.pendingOnDemandRequests + 1 } with
          lastOnDemandChannel := some index }
      reevaluate
      pure true
    else pure false

def repeatOnDemandTransfer : DmacM μ Bool := do
  let m ← get
  match m.device.lastOnDemandChannel with
  | none => pure false
  | some index => requestOnDemandTransfer index

/-! ## Transfers that another device makes -/

/-- The contract of `validate_external_transfer` for a transfer of `units` units. -/
def Sh4Dmac.externalContract (dmac : Sh4Dmac) (index : Fin 4) (source : BitVec 32)
    (units unitSize : Nat) (expectedRequestSource : Byte) : Bool :=
  let value := dmac.channels index
  dmac.enabled index && value.transferSize == unitSize &&
    value.requestSource == expectedRequestSource.toNat &&
    addressMode value.control 12 == 1 && addressMode value.control 14 == 0 &&
    value.source &&& 0x1FFFFFFF == source &&& 0x1FFFFFFF && value.count.toNat == units

def mismatch (index : Fin 4) (unitSize : BitVec 64) : DmacM μ Bool := do
  setFault index .externalContractMismatch unitSize
  pure false

def validateExternalTransfer (index : Nat) (source : BitVec 32) (bytes unitSize : BitVec 64)
    (expectedRequestSource : Byte) : DmacM μ Bool :=
  if h : index < 4 then do
    let m ← get
    if bytes = 0 ∨ unitSize = 0 ∨ bytes.toNat % unitSize.toNat ≠ 0 ∨
        expectedRequestSource.toNat > 14 ∨ expectedRequestSource = 1 ∨
        expectedRequestSource = 7 then
      mismatch ⟨index, h⟩ unitSize
    else if m.device.externalContract ⟨index, h⟩ source (bytes.toNat / unitSize.toNat)
        unitSize.toNat expectedRequestSource = false then
      mismatch ⟨index, h⟩ unitSize
    else pure true
  else pure false

/-- The registers after `bytes` bytes that another device has moved. -/
def Channel.progressed (value : Channel) (bytes : Nat) : Channel :=
  let units := bytes / value.transferSize
  { value.updateAddresses bytes with
    count := value.count - BitVec.ofNat 32 units
    completedUnits := value.completedUnits + BitVec.ofNat 64 units }

/-- `progress_external_transfer` goes on here. -/
def Sh4Dmac.canProgress (dmac : Sh4Dmac) (index : Fin 4) (bytes : Nat) : Bool :=
  let value := dmac.channels index
  value.transferSize != 0 && bytes != 0 && bytes ≤ 0xFFFFFFFF &&
    bytes % value.transferSize == 0 && dmac.enabled index &&
    bytes / value.transferSize ≤ value.count.toNat

def progressExternalTransfer (index : Nat) (bytes : BitVec 64) : DmacM μ Bool :=
  if h : index < 4 then do
    let m ← get
    if m.device.canProgress ⟨index, h⟩ bytes.toNat then do
      onDevice fun dmac => dmac.updateChannel ⟨index, h⟩ fun value => value.progressed bytes.toNat
      pure true
    else mismatch ⟨index, h⟩ (BitVec.ofNat 64 (m.device.channels ⟨index, h⟩).transferSize)
  else pure false

/-- `finish_external_transfer` goes on here. -/
def Sh4Dmac.canFinish (dmac : Sh4Dmac) (index : Fin 4) : Bool :=
  let value := dmac.channels index
  value.transferSize != 0 && dmac.enabled index && value.count == 0

/-- The end flag is set and nothing else is looked at: a planned event of the channel stays. -/
def finishExternalTransfer (index : Nat) : DmacM μ Bool :=
  if h : index < 4 then do
    let m ← get
    if m.device.canFinish ⟨index, h⟩ then do
      onDevice fun dmac => dmac.updateChannel ⟨index, h⟩ Channel.ended
      pure true
    else mismatch ⟨index, h⟩ (BitVec.ofNat 64 (m.device.channels ⟨index, h⟩).transferSize)
  else pure false

/-- The bytes are exactly what the channel still has to move. -/
def Sh4Dmac.isRemainder (dmac : Sh4Dmac) (index : Fin 4) (bytes : Nat) : Bool :=
  let value := dmac.channels index
  value.transferSize != 0 && bytes != 0 && bytes % value.transferSize == 0 &&
    bytes / value.transferSize == value.count.toNat

def completeExternalTransfer (index : Nat) (bytes : BitVec 64) : DmacM μ Unit :=
  if h : index < 4 then do
    let m ← get
    if m.device.isRemainder ⟨index, h⟩ bytes.toNat then do
      let progressed ← progressExternalTransfer index bytes
      if progressed then do
        let _ ← finishExternalTransfer index
      else pure ()
    else
      setFault ⟨index, h⟩ .externalContractMismatch
        (BitVec.ofNat 64 (m.device.channels ⟨index, h⟩).transferSize)
  else pure ()

def reportExternalFault (index : Nat) (reason : DmaFaultReason) (unitSize : BitVec 64) :
    DmacM μ Unit :=
  if h : index < 4 then setFault ⟨index, h⟩ reason unitSize else pure ()

def signalNmi : DmacM μ Unit := do
  onDevice fun dmac => { dmac with operation := dmac.operation ||| nmiFlag }
  cancelEvent
  onDevice Sh4Dmac.discardExternalRequests

def setExecutionMode (mode : DmaExecutionMode) : DmacM μ Unit := do
  let m ← get
  if m.device.executionMode = mode then pure ()
  else do
    cancelEvent
    onDevice fun dmac => { dmac with executionMode := mode }
    reevaluate

/-- `Sh4Dmac::reset`. -/
def resetDevice : DmacM μ Unit := do
  cancelEvent
  onDevice Sh4Dmac.reset

/-! ## Handoff -/

def restoreStatePassive (state : Sh4DmacSnapshot) : DmacM μ Unit := do
  let m ← get
  match m.device.validateStateRestore state with
  | .error e => throw (.restore e)
  | .ok _ => do
    cancelEvent
    onDevice fun dmac => dmac.restored state

def sh4DmacEventTokenV1 : BitVec 64 := 0

def rehydrateScheduledEvent (guestCycle : BitVec 64) (channel : BitVec 32) (token : BitVec 64) :
    DmacM μ Unit := do
  let m ← get
  if h : token = sh4DmacEventTokenV1 ∧ channel.toNat < 4 then
    if m.device.eventRehydrationPending = false ∨ m.device.event.isSome ∨
        m.device.scheduledChannel ≠ some ⟨channel.toNat, h.2⟩ ∨ m.device.scheduledUnits = 0 then
      throw .unexpectedEvent
    else if guestCycle.toNat < m.scheduler.currentCycle then throw .completionInThePast
    else do
      let eventId ← plan fun scheduler =>
        scheduleAt scheduler guestCycle.toNat (some (.transfer ⟨channel.toNat, h.2⟩)) .sh4Dmac
      onDevice fun dmac => { dmac with event := some eventId, eventRehydrationPending := false }
  else throw .unknownEvent

/-! ## The event -/

/-- A copy the controller asks of the memory. -/
structure CopyUnit where
  source : BitVec 32
  destination : BitVec 32
  size : Nat
  /-- `write_dma_words` in place of `write_bytes`. -/
  words : Bool

/-- The memory as the controller sees it: whether a copy went through, and what it leaves. -/
abbrev MemoryPort (μ : Type) := CopyUnit → μ → Bool × μ

def transferOne (copy : MemoryPort μ) (index : Fin 4) (size : Nat) : DmacM μ Bool := do
  let m ← get
  let value := m.device.channels index
  match m.device.transferFault index size with
  | some reason => do
    setFault index reason (BitVec.ofNat 64 size)
    pure false
  | none => do
    let words := index = 2 ∧ value.requestSource = 2 ∧ m.device.operation &&& onDemandEnable ≠ 0 ∧
      size = 32
    let (moved, memory) := copy ⟨value.source, value.destination, size, words⟩ m.memory
    modify fun m => { m with memory }
    if moved then pure true
    else do
      setFault index .memoryAccess (BitVec.ofNat 64 size)
      pure false

/-- The loop of `handle_transfer`; false where it has returned with a fault. -/
def transferUnits (copy : MemoryPort μ) (index : Fin 4) : Nat → DmacM μ Bool
  | 0 => pure true
  | units + 1 => do
    let m ← get
    if m.device.enabled index then
      match (m.device.channels index).takeRequest m.device.operation with
      | none => pure true
      | some value => do
        onDevice fun dmac => dmac.updateChannel index fun _ => value
        let moved ← transferOne copy index value.transferSize
        if moved then do
          onDevice fun dmac =>
            dmac.updateChannel index fun current => current.unitMoved value.transferSize
          transferUnits copy index units
        else pure false
    else pure true

def Sh4Dmac.callbackEntered (dmac : Sh4Dmac) : Sh4Dmac :=
  { dmac.withoutEvent with
    performanceCounters :=
      { dmac.performanceCounters with
        schedulerCallbacks := dmac.performanceCounters.schedulerCallbacks + 1 } }

def Sh4Dmac.batchMoved (dmac : Sh4Dmac) (index : Fin 4) : Sh4Dmac :=
  { dmac.updateChannel index fun value =>
      { value with
        externalDestinationProgression :=
          if value.pendingRequests = 0 then .addressMode
          else value.externalDestinationProgression } with
    performanceCounters :=
      { dmac.performanceCounters with
        completedBatches := dmac.performanceCounters.completedBatches + 1 }
    roundRobinCursor := if dmac.priority = 3 then index + 1 else dmac.roundRobinCursor }

def handleTransfer (copy : MemoryPort μ) (index : Fin 4) : DmacM μ Unit := do
  let m ← get
  let units := max 1 m.device.scheduledUnits.toNat
  onDevice Sh4Dmac.callbackEntered
  if m.device.enabled index = false then reevaluate
  else do
    let moved ← transferUnits copy index units
    if moved then do
      onDevice fun dmac => dmac.batchMoved index
      reevaluate
    else pure ()

def handleSchedulerReset : DmacM μ Unit := do
  onDevice Sh4Dmac.withoutEvent
  reevaluate

/-! ## The scheduler around it -/

/-- `EventScheduler::reset` with the controller's observer. -/
def resetScheduler : DmacM μ Unit := do
  let m ← get
  if m.scheduler.advanceInProgress then throw .resetDuringAdvance
  else if m.resetGeneration = Scheduler.uint64Max then throw .resetGenerationOverflow
  else do
    modify fun m =>
      { m with
        scheduler :=
          { m.scheduler with
            events := ∅, eventKeys := ∅, currentCycle := 0, processedEventCount := 0 }
        resetGeneration := m.resetGeneration + 1 }
    handleSchedulerReset

/-- One round of the loop of `advance_to`. A throw of the callback leaves the advance; another
device's callback is left running. -/
def advanceRound (copy : MemoryPort μ) (a : Advance) : DmacM μ Unit := fun m =>
  match loopHead m.scheduler a with
  | .returns _ scheduler => .ok () { m with scheduler, phase := .idle }
  | .fire key a' scheduler =>
    match m.scheduler.events[key]? with
    | some ⟨.transfer index, _⟩ =>
      match handleTransfer copy index { m with scheduler, phase := .callback a' } with
      | .ok _ t => .ok () { t with phase := .loop a' }
      | .error e t => .error e { t with scheduler := endAdvance t.scheduler, phase := .idle }
    | _ => .ok () { m with scheduler, phase := .callback a' }

def advanceBegins (m : Machine μ) : Except SchedulerError (Advance × EventScheduler DmacCallback) →
      EStateM.Result DmacError (Machine μ) Unit
  | .ok (a, scheduler) => .ok () { m with scheduler, phase := .loop a }
  | .error e => .error (.scheduler e) m

/-- Another device cancels an event of its own. -/
def deviceCancels (m : Machine μ) (id : Nat) : Machine μ :=
  match m.scheduler.eventKeys[id]? with
  | some key =>
    match m.scheduler.events[key]? with
    | some ⟨.device _, _⟩ => { m with scheduler := (cancel m.scheduler id).2 }
    | _ => m
  | none => m

inductive Action (μ : Type)
  | writeSource (index : Nat) (value : BitVec 32)
  | writeDestination (index : Nat) (value : BitVec 32)
  | writeCount (index : Nat) (value : BitVec 32)
  | writeControl (index : Nat) (value : BitVec 32)
  | writeOperation (value : BitVec 32)
  | requestTransfer (index : Nat) (requests : BitVec 32)
      (progression : DmaExternalDestinationProgression)
  | requestOnDemandTransfer (index : Nat)
  | repeatOnDemandTransfer
  | validateExternalTransfer (index : Nat) (source : BitVec 32) (bytes unitSize : BitVec 64)
      (expectedRequestSource : Byte)
  | progressExternalTransfer (index : Nat) (bytes : BitVec 64)
  | finishExternalTransfer (index : Nat)
  | completeExternalTransfer (index : Nat) (bytes : BitVec 64)
  | reportExternalFault (index : Nat) (reason : DmaFaultReason) (unitSize : BitVec 64)
  | signalNmi
  | setExecutionMode (mode : DmaExecutionMode)
  | reset
  | restoreStatePassive (state : Sh4DmacSnapshot)
  | rehydrateScheduledEvent (guestCycle : BitVec 64) (channel : BitVec 32) (token : BitVec 64)
  | resetScheduler
  | advanceTo (guestCycle : BitVec 64) (eventBudget : Nat)
  | advanceBy (guestCycles : BitVec 64) (eventBudget : Nat)
  | advanceRound
  | deviceScheduleAt (guestCycle : BitVec 64) (id : Nat) (kind : SchedulerEventKind)
  | deviceCancel (eventId : Nat)
  | callbackReturns
  | callbackThrows
  /-- The rest of the machine has changed the memory. -/
  | memoryChanges (memory : μ)

/-- An action of the caller, between advances or inside another device's callback. -/
def callerAction (m : Machine μ) : Action μ → EStateM.Result DmacError (Machine μ) Unit
  | .writeSource index value => writeSource index value m
  | .writeDestination index value => writeDestination index value m
  | .writeCount index value => writeCount index value m
  | .writeControl index value => writeControl index value m
  | .writeOperation value => writeOperation value m
  | .requestTransfer index requests progression => requestTransfer index requests progression m
  | .requestOnDemandTransfer index => (do let _ ← requestOnDemandTransfer index) m
  | .repeatOnDemandTransfer => (do let _ ← repeatOnDemandTransfer) m
  | .validateExternalTransfer index source bytes unitSize expected =>
    (do let _ ← validateExternalTransfer index source bytes unitSize expected) m
  | .progressExternalTransfer index bytes => (do let _ ← progressExternalTransfer index bytes) m
  | .finishExternalTransfer index => (do let _ ← finishExternalTransfer index) m
  | .completeExternalTransfer index bytes => completeExternalTransfer index bytes m
  | .reportExternalFault index reason unitSize => reportExternalFault index reason unitSize m
  | .signalNmi => signalNmi m
  | .setExecutionMode mode => setExecutionMode mode m
  | .reset => resetDevice m
  | .restoreStatePassive state => restoreStatePassive state m
  | .rehydrateScheduledEvent guestCycle channel token =>
    rehydrateScheduledEvent guestCycle channel token m
  | .resetScheduler => resetScheduler m
  | .advanceTo cycle budget => advanceBegins m (beginAdvance m.scheduler cycle.toNat budget)
  | .advanceBy cycles budget => advanceBegins m (beginAdvanceBy m.scheduler cycles.toNat budget)
  | .advanceRound => .ok () m
  | .deviceScheduleAt cycle id kind =>
    match scheduleAt m.scheduler cycle.toNat (some (.device id)) kind with
    | .ok (_, scheduler) => .ok () { m with scheduler }
    | .error e => .error (.scheduler e) m
  | .deviceCancel id => .ok () (deviceCancels m id)
  | .callbackReturns =>
    match m.phase with
    | .callback a => .ok () { m with phase := .loop a }
    | _ => .ok () m
  | .callbackThrows =>
    match m.phase with
    | .callback _ => .error .device { m with scheduler := endAdvance m.scheduler, phase := .idle }
    | _ => .ok () m
  | .memoryChanges memory => .ok () { m with memory }

/-- One action; an action its phase does not admit does nothing. -/
def perform (copy : MemoryPort μ) (m : Machine μ) (action : Action μ) :
    EStateM.Result DmacError (Machine μ) Unit :=
  match m.phase, action with
  | .loop a, .advanceRound => advanceRound copy a m
  | .loop _, _ => .ok () m
  | _, action => callerAction m action

def resultState {α : Type} : EStateM.Result DmacError (Machine μ) α → Machine μ
  | .ok _ t => t
  | .error _ t => t

def step (copy : MemoryPort μ) (m : Machine μ) (action : Action μ) : Machine μ :=
  resultState (perform copy m action)

def run (copy : MemoryPort μ) (m : Machine μ) (actions : List (Action μ)) : Machine μ :=
  actions.foldl (step copy) m

/-- A new controller on a new scheduler. -/
def Machine.create (guestCycleBudget : Option Nat) (memory : μ) (timing : DmaTiming)
    (executionMode : DmaExecutionMode) : Except DmacError (Machine μ) :=
  if timing.guestCyclesPerByte = 0 ∨ timing.maximumBatchUnits = 0 then .error .timing
  else .ok
    { scheduler := { guestCycleBudget := guestCycleBudget }
      device := { timing, executionMode }
      memory }

end KatanaRecomp.Runtime.Dmac
