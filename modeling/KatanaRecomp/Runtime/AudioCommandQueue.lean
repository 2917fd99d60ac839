import KatanaRecomp.Runtime.CodeTracker

/-! # The audio command queue

`NativePortAudioCommandQueue` carries commands from one producer thread to one
consumer thread through a ring of slots, a slab of payload bytes and a table of
acknowledgements. Every operation is one step here. Positions, counters and sizes
are numbers; a command sequence runs out behind 2^64 - 1 as in the source, and
with it the positions. The payload positions are not checked and wrap. The arrays
are functions of the index. The payload bytes themselves, the event epoch with the
waits on it, the mode and `snapshot` are left out. -/
namespace KatanaRecomp.Runtime

inductive NativePortAudioCommandQueueLifecycle
  | disabled | running | draining | stopped | failed
  deriving DecidableEq

inductive NativePortAudioCommandQueueFailure
  | none | invalidConfig | disabled | producerThreadViolation | consumerThreadViolation
  | producerLeaseOverlap | consumerLeaseOverlap | producerLeaseAbandoned
  | consumerLeaseAbandoned | stampInitialSequence | stampRegression | stampGap | stampOverflow
  | frameRegression | commandSequenceExhausted | payloadOverflow | payloadReservationOverflow
  | invalidAckSlot | ackSlotBusy | ackResultOverflow | invalidAckStatus | workerFailure
  | queueClosed | queueFailed | shutdownWithOutstandingLease
  deriving DecidableEq

structure NativePortAudioCommandStamp where
  frameIndex : Nat := 0
  guestSequence : Nat := 0

/-- `other` is a value that no enumerator has. -/
inductive NativePortAudioCommandTarget
  | audioEngine | soundBank | hostOutput | movie | lifecycle
  | other (value : BitVec 8)

def NativePortAudioCommandTarget.valid : NativePortAudioCommandTarget → Bool
  | .other _ => false
  | _ => true

def invalidAckSlot : Nat := 0xFFFFFFFF
def maxAckResultBytes : Nat := 512
def payloadAlignment : Nat := 16

structure NativePortAudioPodCommand where
  commandSequence : Nat := 0
  stamp : NativePortAudioCommandStamp := {}
  target : NativePortAudioCommandTarget := .lifecycle
  opcode : BitVec 16 := 0
  payloadOffset : Nat := 0
  payloadSize : Nat := 0
  ackSlot : Nat := invalidAckSlot
  flags : BitVec 32 := 0
  targetSlot : BitVec 32 := 0
  targetGeneration : BitVec 32 := 0

inductive NativePortAudioCommandAckStatus
  | pending | completed | cancelled | failed

def NativePortAudioCommandAckStatus.valid : NativePortAudioCommandAckStatus → Bool
  | .pending => false
  | _ => true

structure NativePortAudioCommandAckResult where
  status : NativePortAudioCommandAckStatus := .completed
  errorCode : BitVec 32 := 0
  resultSize : Nat := 0
  bytes : List (BitVec 8) := List.replicate maxAckResultBytes 0

structure NativePortAudioCommandAck where
  commandSequence : Nat := 0
  stamp : NativePortAudioCommandStamp := {}
  status : NativePortAudioCommandAckStatus := .pending
  errorCode : BitVec 32 := 0
  resultSize : Nat := 0
  bytes : List (BitVec 8) := List.replicate maxAckResultBytes 0

structure NativePortAudioCommandQueueConfig where
  maximumCommands : Nat := 1024
  maximumPayloadBytes : Nat := 64 * 1024 * 1024
  maximumAckSlots : Nat := 1024
  enabled : Bool := true

inductive SlotState
  | free | writing | ready | reading | cancelled
  deriving DecidableEq

inductive AckSlotState
  | free | pending | completed | cancelled | failed
  deriving DecidableEq

def AckSlotState.terminal : AckSlotState → Bool
  | .completed | .cancelled | .failed => true
  | _ => false

structure CommandSlot where
  command : NativePortAudioPodCommand := {}
  payloadBegin : Nat := 0
  payloadReservedSize : Nat := 0
  state : SlotState := .free

structure AckSlot where
  value : NativePortAudioCommandAck := {}
  state : AckSlotState := .free

structure NativePortAudioCommandProducerLease where
  slot : Nat
  commandSequence : Nat

structure NativePortAudioCommandConsumerLease where
  slot : Nat
  commandSequence : Nat
  cancelled : Bool

structure NativePortAudioCommandQueue where
  config : NativePortAudioCommandQueueConfig
  commands : Nat → CommandSlot := fun _ => {}
  acks : Nat → AckSlot := fun _ => {}
  lifecycle : NativePortAudioCommandQueueLifecycle := .disabled
  firstError : NativePortAudioCommandQueueFailure := .none
  firstErrorCommandSequence : Nat := 0
  producerThreadIdentity : Nat := 0
  consumerThreadIdentity : Nat := 0
  producerPosition : Nat := 0
  consumerPosition : Nat := 0
  producerPayloadPosition : Nat := 0
  consumerPayloadPosition : Nat := 0
  nextCommandSequence : Nat := 1
  lastSubmittedCommandSequence : Nat := 0
  lastCompletedCommandSequence : Nat := 0
  lastSubmittedStamp : NativePortAudioCommandStamp := {}
  lastCompletedStamp : NativePortAudioCommandStamp := {}
  hasLastSubmittedStamp : Bool := false
  hasLastCompletedStamp : Bool := false
  producerLeaseActive : Bool := false
  consumerLeaseActive : Bool := false
  firstErrorClaimed : Bool := false
  firstErrorPublished : Bool := false
  submittedCommands : Nat := 0
  completedCommands : Nat := 0
  cancelledCommands : Nat := 0
  failedCommands : Nat := 0
  submittedPayloadBytes : Nat := 0
  completedPayloadBytes : Nat := 0
  cancelledPayloadBytes : Nat := 0
  publishedAcks : Nat := 0
  consumedAcks : Nat := 0

namespace NativePortAudioCommandQueue

/-- The constructor. -/
def create (config : NativePortAudioCommandQueueConfig) :
    Except NativePortAudioCommandQueueFailure NativePortAudioCommandQueue :=
  if config.enabled = false then .ok { config := config, lifecycle := .disabled }
  else if config.maximumCommands = 0 ∨ config.maximumCommands > 1048576 ∨
      config.maximumPayloadBytes = 0 ∨ config.maximumPayloadBytes > 2 ^ 30 ∨
      config.maximumAckSlots = 0 ∨ config.maximumAckSlots > 1048576 then
    .error .invalidConfig
  else .ok { config := config, lifecycle := .running }

variable (q : NativePortAudioCommandQueue)

/-! ## Threads and errors -/

/-- The first thread that asks becomes the producer. -/
def bindProducerThread (token : Nat) : NativePortAudioCommandQueue :=
  if q.producerThreadIdentity = 0 then { q with producerThreadIdentity := token } else q

def producerThreadAllowed (token : Nat) : Bool :=
  q.producerThreadIdentity == 0 || q.producerThreadIdentity == token

def bindConsumerThread (token : Nat) : NativePortAudioCommandQueue :=
  if q.consumerThreadIdentity = 0 then { q with consumerThreadIdentity := token } else q

def consumerThreadAllowed (token : Nat) : Bool :=
  q.consumerThreadIdentity == 0 || q.consumerThreadIdentity == token

/-- The compare-exchange of `cancel_ready_commands`. -/
def CommandSlot.cancelReady (slot : CommandSlot) : CommandSlot :=
  if slot.state = .ready then { slot with state := .cancelled } else slot

/-- The loop of `cancel_ready_commands` over the positions behind `consumer`. -/
def cancelReadyFrom (maximumCommands : Nat) : Nat → Nat → (Nat → CommandSlot) → Nat → CommandSlot
  | _, 0, commands => commands
  | position, count + 1, commands =>
    let index := position % maximumCommands
    cancelReadyFrom maximumCommands (position + 1) count
      (Function.update commands index (CommandSlot.cancelReady (commands index)))

def cancelReadyCommands : NativePortAudioCommandQueue :=
  if q.config.enabled = false ∨ q.config.maximumCommands = 0 ∨
      q.producerPosition < q.consumerPosition then q
  else
    let count := min (q.producerPosition - q.consumerPosition) q.config.maximumCommands
    { q with
      commands := cancelReadyFrom q.config.maximumCommands q.consumerPosition count q.commands }

def publishError (failure : NativePortAudioCommandQueueFailure) (commandSequence : Nat) :
    NativePortAudioCommandQueue :=
  if failure = .none then q
  else
    let claimed :=
      if q.firstErrorClaimed then q
      else
        { q with
          firstErrorClaimed := true
          firstError := failure
          firstErrorCommandSequence := commandSequence
          firstErrorPublished := true
          lifecycle := .failed }
    claimed.cancelReadyCommands

/-! ## The producer -/

/-- The order that the stamps of successive commands keep. -/
def stampFailure (stamp : NativePortAudioCommandStamp) : NativePortAudioCommandQueueFailure :=
  if q.hasLastSubmittedStamp = false then
    if stamp.guestSequence ≠ 0 then .stampInitialSequence else .none
  else if stamp.frameIndex < q.lastSubmittedStamp.frameIndex then .frameRegression
  else if q.lastSubmittedStamp.guestSequence = uint64Max then .stampOverflow
  else if stamp.guestSequence ≤ q.lastSubmittedStamp.guestSequence then .stampRegression
  else if stamp.guestSequence ≠ q.lastSubmittedStamp.guestSequence + 1 then .stampGap
  else .none

/-- The checks of `try_begin_produce` behind the lease that publish an error. -/
def commandFailure (command : NativePortAudioPodCommand) : NativePortAudioCommandQueueFailure :=
  if command.target.valid = false then .invalidConfig
  else if command.payloadSize > q.config.maximumPayloadBytes then .payloadOverflow
  else if command.ackSlot ≠ invalidAckSlot ∧ command.ackSlot ≥ q.config.maximumAckSlots then
    .invalidAckSlot
  else if command.commandSequence ≠ 0 ∨ command.payloadOffset ≠ 0 then .invalidConfig
  else q.stampFailure command.stamp

/-- The bytes left free in front of a payload, to align it or to reach the end of the slab. -/
def payloadPadding (capacity offset payloadSize : Nat) : Nat :=
  let alignmentPadding := (payloadAlignment - offset % payloadAlignment) % payloadAlignment
  if offset + alignmentPadding + payloadSize ≤ capacity then alignmentPadding
  else capacity - offset

/-- A drained ring too short for the payload behind its offset starts again at the boundary. -/
def rebasePayload (payloadSize : Nat) : Bool :=
  let capacity := q.config.maximumPayloadBytes
  let offset := q.producerPayloadPosition % capacity
  payloadSize != 0 && q.producerPayloadPosition == q.consumerPayloadPosition &&
    q.producerPosition == q.consumerPosition &&
    decide (payloadPadding capacity offset payloadSize + payloadSize > capacity)

/-- The queue with both payload positions moved on by a rebase. -/
def rebased (payloadSize : Nat) : NativePortAudioCommandQueue :=
  let capacity := q.config.maximumPayloadBytes
  let rebase := capacity - q.producerPayloadPosition % capacity
  if q.rebasePayload payloadSize then
    { q with
      producerPayloadPosition := (q.producerPayloadPosition + rebase) % 2 ^ 64
      consumerPayloadPosition := (q.consumerPayloadPosition + rebase) % 2 ^ 64 }
  else q

/-- `padding` as `try_begin_produce` leaves it. -/
def reservedPadding (payloadSize : Nat) : Nat :=
  if payloadSize = 0 ∨ q.rebasePayload payloadSize = true then 0
  else payloadPadding q.config.maximumPayloadBytes
    (q.producerPayloadPosition % q.config.maximumPayloadBytes) payloadSize

/-- The last stores of `try_begin_produce`: the slot, its acknowledgement and the payload
position. `q` has its payload positions already rebased. -/
def writeCommand (command : NativePortAudioPodCommand) (padding : Nat) :
    NativePortAudioCommandQueue :=
  let index := q.producerPosition % q.config.maximumCommands
  let payloadBegin := (q.producerPayloadPosition + padding) % 2 ^ 64
  let slot : CommandSlot :=
    { command :=
        { command with
          commandSequence := 0
          payloadOffset :=
            if command.payloadSize = 0 then 0 else payloadBegin % q.config.maximumPayloadBytes }
      payloadBegin := payloadBegin
      payloadReservedSize := padding + command.payloadSize
      state := .writing }
  { q with
    commands := Function.update q.commands index slot
    acks :=
      if command.ackSlot ≠ invalidAckSlot then
        Function.update q.acks command.ackSlot
          { value := { stamp := command.stamp }, state := .pending }
      else q.acks
    producerPayloadPosition :=
      (q.producerPayloadPosition + (padding + command.payloadSize)) % 2 ^ 64
    producerLeaseActive := true }

/-- `try_begin_produce` behind its checks of the command. On every way out but the last the
slot claimed is free again and the lease is released. -/
def reserveCommand (command : NativePortAudioPodCommand) :
    Except NativePortAudioCommandQueueFailure (Option NativePortAudioCommandProducerLease) ×
      NativePortAudioCommandQueue :=
  let index := q.producerPosition % q.config.maximumCommands
  if (q.commands index).state ≠ .free then (.ok none, q)
  else if q.producerPayloadPosition < q.consumerPayloadPosition ∨
      q.producerPayloadPosition - q.consumerPayloadPosition > q.config.maximumPayloadBytes then
    (.error .payloadReservationOverflow, q.publishError .payloadReservationOverflow 0)
  else
    let padding := q.reservedPadding command.payloadSize
    let reservationSize := padding + command.payloadSize
    let next := q.rebased command.payloadSize
    if reservationSize > q.config.maximumPayloadBytes ∨
        next.producerPayloadPosition - next.consumerPayloadPosition >
          q.config.maximumPayloadBytes - reservationSize then (.ok none, next)
    else if command.ackSlot ≠ invalidAckSlot ∧ (q.acks command.ackSlot).state ≠ .free then
      (.ok none, next)
    else if q.nextCommandSequence = 0 then
      (.error .commandSequenceExhausted, next.publishError .commandSequenceExhausted 0)
    else
      (.ok (some { slot := index, commandSequence := 0 }), next.writeCommand command padding)

def tryBeginProduce (token : Nat) (command : NativePortAudioPodCommand) :
    Except NativePortAudioCommandQueueFailure (Option NativePortAudioCommandProducerLease) ×
      NativePortAudioCommandQueue :=
  if q.config.enabled = false then (.ok none, q)
  else if q.producerThreadAllowed token = false then
    (.error .producerThreadViolation, q.publishError .producerThreadViolation 0)
  else
    let bound := q.bindProducerThread token
    match q.lifecycle with
    | .failed => (.error .queueFailed, bound)
    | .draining | .stopped => (.error .queueClosed, bound)
    | .disabled => (.ok none, bound)
    | .running =>
      if q.producerLeaseActive then
        (.error .producerLeaseOverlap, bound.publishError .producerLeaseOverlap 0)
      else
        let failure := q.commandFailure command
        if failure ≠ .none then (.error failure, bound.publishError failure 0)
        else bound.reserveCommand command

/-- The stores of `publish_producer` that succeeds. -/
def storePublished (slotIndex : Nat) : NativePortAudioCommandQueue :=
  let slot := q.commands slotIndex
  let sequence := q.nextCommandSequence
  let command := { slot.command with commandSequence := sequence }
  let ack := q.acks command.ackSlot
  { q with
    commands :=
      Function.update q.commands slotIndex { slot with command := command, state := .ready }
    acks :=
      if command.ackSlot ≠ invalidAckSlot then
        Function.update q.acks command.ackSlot
          { ack with value := { ack.value with commandSequence := sequence } }
      else q.acks
    nextCommandSequence := if sequence = uint64Max then 0 else sequence + 1
    producerPosition := q.producerPosition + 1
    submittedCommands := q.submittedCommands + 1
    submittedPayloadBytes := q.submittedPayloadBytes + command.payloadSize
    lastSubmittedCommandSequence := sequence
    lastSubmittedStamp := command.stamp
    hasLastSubmittedStamp := true
    producerLeaseActive := false }

def publishProducer (token slotIndex commandSequence : Nat) : Bool × NativePortAudioCommandQueue :=
  if q.producerLeaseActive = false ∨ slotIndex ≥ q.config.maximumCommands then (false, q)
  else if q.producerThreadAllowed token = false then (false, q)
  else
    let bound := q.bindProducerThread token
    let slot := q.commands slotIndex
    if commandSequence ≠ 0 ∨ slot.command.commandSequence ≠ 0 ∨ slot.state ≠ .writing then
      (false, bound)
    else if q.nextCommandSequence = 0 then (false, bound)
    else (true, bound.storePublished slotIndex)

/-- The stores of `abort_producer`. -/
def storeAborted (slotIndex : Nat) : NativePortAudioCommandQueue :=
  let slot := q.commands slotIndex
  let ackSlot := slot.command.ackSlot
  { q with
    producerPayloadPosition :=
      (slot.payloadBegin + 2 ^ 64 - (slot.payloadReservedSize - slot.command.payloadSize)) % 2 ^ 64
    acks :=
      if ackSlot ≠ invalidAckSlot then
        Function.update q.acks ackSlot { q.acks ackSlot with state := .free }
      else q.acks
    commands := Function.update q.commands slotIndex {}
    producerLeaseActive := false }

def abortProducer (slotIndex commandSequence : Nat) : NativePortAudioCommandQueue :=
  if q.producerLeaseActive = false ∨ slotIndex ≥ q.config.maximumCommands then q
  else if (q.commands slotIndex).command.commandSequence ≠ commandSequence then q
  else q.storeAborted slotIndex

/-! ## The consumer -/

/-- The stores of `try_begin_consume` that gives a lease. -/
def storeReading (index : Nat) : NativePortAudioCommandQueue :=
  { q with
    commands := Function.update q.commands index { q.commands index with state := .reading }
    consumerLeaseActive := true }

def tryBeginConsume (token : Nat) :
    Except NativePortAudioCommandQueueFailure (Option NativePortAudioCommandConsumerLease) ×
      NativePortAudioCommandQueue :=
  if q.config.enabled = false then (.ok none, q)
  else if q.consumerThreadAllowed token = false then
    (.error .consumerThreadViolation, q.publishError .consumerThreadViolation 0)
  else
    let bound := q.bindConsumerThread token
    if q.consumerLeaseActive then
      (.error .consumerLeaseOverlap, bound.publishError .consumerLeaseOverlap 0)
    else
      let index := q.consumerPosition % q.config.maximumCommands
      let slot := q.commands index
      if slot.state ≠ .ready ∧ slot.state ≠ .cancelled then
        if q.lifecycle = .draining ∧ q.consumerPosition = q.producerPosition then
          (.ok none, { bound with lifecycle := .stopped })
        else (.ok none, bound)
      else
        (.ok (some
          { slot := index
            commandSequence := slot.command.commandSequence
            cancelled := slot.state == .cancelled }), bound.storeReading index)

/-- The state of an acknowledgement with the status. -/
def ackStateOf : NativePortAudioCommandAckStatus → AckSlotState
  | .completed => .completed
  | .cancelled => .cancelled
  | _ => .failed

def ackValue (slot : CommandSlot) (commandSequence : Nat)
    (result : NativePortAudioCommandAckResult) : NativePortAudioCommandAck :=
  { commandSequence := commandSequence
    stamp := slot.command.stamp
    status := result.status
    errorCode := result.errorCode
    resultSize := result.resultSize
    bytes := result.bytes.take result.resultSize ++
        (List.replicate maxAckResultBytes 0).drop result.resultSize }

/-- The counters that a final status moves. -/
def countFinal (slot : CommandSlot) (commandSequence : Nat) :
    NativePortAudioCommandAckStatus → NativePortAudioCommandQueue
  | .completed =>
    { q with
      completedCommands := q.completedCommands + 1
      completedPayloadBytes := q.completedPayloadBytes + slot.command.payloadSize
      lastCompletedCommandSequence := commandSequence
      lastCompletedStamp := slot.command.stamp
      hasLastCompletedStamp := true }
  | .cancelled =>
    { q with
      cancelledCommands := q.cancelledCommands + 1
      cancelledPayloadBytes := q.cancelledPayloadBytes + slot.command.payloadSize }
  | _ => { q with failedCommands := q.failedCommands + 1 }

/-- The stores of `finalize_consumer` that succeeds. -/
def storeFinalized (slotIndex commandSequence : Nat)
    (result : NativePortAudioCommandAckResult) : NativePortAudioCommandQueue :=
  let slot := q.commands slotIndex
  let ackSlot := slot.command.ackSlot
  { q.countFinal slot commandSequence result.status with
    acks :=
      if ackSlot ≠ invalidAckSlot then
        Function.update q.acks ackSlot
          { value := ackValue slot commandSequence result
            state := ackStateOf result.status }
      else q.acks
    publishedAcks := if ackSlot ≠ invalidAckSlot then q.publishedAcks + 1 else q.publishedAcks
    consumerPayloadPosition := (slot.payloadBegin + slot.command.payloadSize) % 2 ^ 64
    commands := Function.update q.commands slotIndex { slot with state := .free }
    consumerPosition := q.consumerPosition + 1
    consumerLeaseActive := false }

def finalizeConsumer (token slotIndex commandSequence : Nat)
    (result : NativePortAudioCommandAckResult) : Bool × NativePortAudioCommandQueue :=
  if q.consumerLeaseActive = false ∨ slotIndex ≥ q.config.maximumCommands then (false, q)
  else if q.consumerThreadAllowed token = false then
    (false, q.publishError .consumerThreadViolation commandSequence)
  else
    let bound := q.bindConsumerThread token
    let slot := q.commands slotIndex
    if slot.command.commandSequence ≠ commandSequence ∨ slot.state ≠ .reading then (false, bound)
    else if result.status.valid = false ∨ result.resultSize > maxAckResultBytes then (false, bound)
    else (true, bound.storeFinalized slotIndex commandSequence result)

/-- What takes the place of a result that cannot be acknowledged. -/
def failedResult : NativePortAudioCommandAckResult := { status := .failed, errorCode := 1 }

def finishConsumer (token slotIndex commandSequence : Nat)
    (result : NativePortAudioCommandAckResult) : Bool × NativePortAudioCommandQueue :=
  if result.resultSize > maxAckResultBytes then
    (q.publishError .ackResultOverflow commandSequence).finalizeConsumer token slotIndex
      commandSequence failedResult
  else if result.status.valid = false then
    (q.publishError .invalidAckStatus commandSequence).finalizeConsumer token slotIndex
      commandSequence failedResult
  else q.finalizeConsumer token slotIndex commandSequence result

/-- The callers pass `Cancelled` and `Failed` only, so the status is always valid. -/
def finishConsumerCancelled (token slotIndex commandSequence : Nat)
    (status : NativePortAudioCommandAckStatus) (errorCode : BitVec 32) :
    Bool × NativePortAudioCommandQueue :=
  if status.valid = false then
    (q.publishError .invalidAckStatus commandSequence).finalizeConsumer token slotIndex
      commandSequence failedResult
  else
    q.finalizeConsumer token slotIndex commandSequence
      { status := status, errorCode := errorCode }

def abandonConsumer (token slotIndex commandSequence : Nat) : Bool × NativePortAudioCommandQueue :=
  if q.consumerLeaseActive = false then (false, q)
  else
    (q.publishError .consumerLeaseAbandoned commandSequence).finishConsumerCancelled token slotIndex
      commandSequence .failed 1

def failTerminal (token : Nat) (failure : NativePortAudioCommandQueueFailure)
    (commandSequence : Nat) : NativePortAudioCommandQueue :=
  if q.config.enabled = false ∨ failure = .none then q
  else if q.consumerThreadAllowed token = false then
    q.publishError .consumerThreadViolation commandSequence
  else (q.bindConsumerThread token).publishError failure commandSequence

def requestShutdown : NativePortAudioCommandQueue :=
  if q.lifecycle = .running then { q with lifecycle := .draining } else q

/-- The stores of `read_ack` that returns a value. -/
def storeAckRead (ackSlot : Nat) : NativePortAudioCommandQueue :=
  { q with
    acks := Function.update q.acks ackSlot { q.acks ackSlot with state := .free }
    consumedAcks := q.consumedAcks + 1 }

/-- `read_ack` without `wait`; a wait repeats it. -/
def tryReadAck (token ackSlot commandSequence : Nat) :
    Except NativePortAudioCommandQueueFailure (Option NativePortAudioCommandAck) ×
      NativePortAudioCommandQueue :=
  if q.config.enabled = false then (.ok none, q)
  else if q.producerThreadAllowed token = false then
    (.error .producerThreadViolation, q.publishError .producerThreadViolation commandSequence)
  else
    let bound := q.bindProducerThread token
    if ackSlot ≥ q.config.maximumAckSlots then (.error .invalidAckSlot, bound)
    else
      let ack := q.acks ackSlot
      if ack.state.terminal = false then (.ok none, bound)
      else if ack.value.commandSequence ≠ commandSequence then (.ok none, bound)
      else
        (.ok (some ack.value), bound.storeAckRead ackSlot)

end NativePortAudioCommandQueue
end KatanaRecomp.Runtime
