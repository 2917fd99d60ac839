import KatanaRecomp.Runtime.AudioCommandQueue
import Mathlib.Data.Nat.ModEq

/-! # Sessions of the audio command queue

A session is the queue with the leases its two sides hold and with what they have
been told: the commands whose publication succeeded, the sequences the consumer
settled and the acknowledgements read back. Operations of the two sides come in any
order. -/
namespace KatanaRecomp.Runtime

structure AudioCommandReceipt where
  ackSlot : Nat
  commandSequence : Nat
  ack : NativePortAudioCommandAck

structure AudioCommandSession where
  queue : NativePortAudioCommandQueue
  producerLease : Option NativePortAudioCommandProducerLease := none
  consumerLease : Option NativePortAudioCommandConsumerLease := none
  published : List NativePortAudioPodCommand := []
  finalized : List Nat := []
  received : List AudioCommandReceipt := []

namespace AudioCommandSession

/-- What the two sides call, through the lease they hold where the call is one of a lease. -/
inductive Operation
  | tryBeginProduce (token : Nat) (command : NativePortAudioPodCommand)
  | publish (token : Nat)
  | abort
  | tryBeginConsume (token : Nat)
  | complete (token : Nat) (result : NativePortAudioCommandAckResult)
  | cancel (token : Nat) (errorCode : BitVec 32)
  | fail (token : Nat) (errorCode : BitVec 32)
  | abandon (token : Nat)
  | failTerminal (token : Nat) (failure : NativePortAudioCommandQueueFailure)
      (commandSequence : Nat)
  | requestShutdown
  | tryReadAck (token ackSlot commandSequence : Nat)

variable (s : AudioCommandSession)

/-- A call that settles the command of the lease ends the lease where it succeeds. -/
def settle (lease : NativePortAudioCommandConsumerLease)
    (answer : Bool × NativePortAudioCommandQueue) : AudioCommandSession :=
  if answer.1 then
    { s with
      queue := answer.2
      consumerLease := none
      finalized := s.finalized ++ [lease.commandSequence] }
  else { s with queue := answer.2 }

/-- `complete` of a lease: a cancelled command is acknowledged as cancelled. -/
def completeLease (token : Nat) (lease : NativePortAudioCommandConsumerLease)
    (result : NativePortAudioCommandAckResult) : Bool × NativePortAudioCommandQueue :=
  if lease.cancelled then
    s.queue.finishConsumerCancelled token lease.slot lease.commandSequence .cancelled
      result.errorCode
  else s.queue.finishConsumer token lease.slot lease.commandSequence result

def publishLease (token : Nat) (lease : NativePortAudioCommandProducerLease) :
    AudioCommandSession :=
  let answer := s.queue.publishProducer token lease.slot lease.commandSequence
  if answer.1 then
    { s with
      queue := answer.2
      producerLease := none
      published := s.published ++ [(answer.2.commands lease.slot).command] }
  else { s with queue := answer.2 }

def apply : Operation → AudioCommandSession
  | .tryBeginProduce token command =>
    match s.queue.tryBeginProduce token command with
    | (.ok (some lease), queue) => { s with queue := queue, producerLease := some lease }
    | (_, queue) => { s with queue := queue }
  | .publish token =>
    match s.producerLease with
    | none => s
    | some lease => s.publishLease token lease
  | .abort =>
    match s.producerLease with
    | none => s
    | some lease =>
      { s with
        queue := s.queue.abortProducer lease.slot lease.commandSequence
        producerLease := none }
  | .tryBeginConsume token =>
    match s.queue.tryBeginConsume token with
    | (.ok (some lease), queue) => { s with queue := queue, consumerLease := some lease }
    | (_, queue) => { s with queue := queue }
  | .complete token result =>
    match s.consumerLease with
    | none => s
    | some lease => s.settle lease (s.completeLease token lease result)
  | .cancel token errorCode =>
    match s.consumerLease with
    | none => s
    | some lease =>
      s.settle lease (s.queue.finishConsumerCancelled token lease.slot lease.commandSequence
        .cancelled errorCode)
  | .fail token errorCode =>
    match s.consumerLease with
    | none => s
    | some lease =>
      s.settle lease (s.queue.finishConsumerCancelled token lease.slot lease.commandSequence
        .failed errorCode)
  | .abandon token =>
    match s.consumerLease with
    | none => s
    | some lease =>
      { s.settle lease (s.queue.abandonConsumer token lease.slot lease.commandSequence) with
        consumerLease := none }
  | .failTerminal token failure commandSequence =>
    { s with queue := s.queue.failTerminal token failure commandSequence }
  | .requestShutdown => { s with queue := s.queue.requestShutdown }
  | .tryReadAck token ackSlot commandSequence =>
    match s.queue.tryReadAck token ackSlot commandSequence with
    | (.ok (some ack), queue) =>
      { s with queue := queue, received := s.received ++ [⟨ackSlot, commandSequence, ack⟩] }
    | (_, queue) => { s with queue := queue }

def run (operations : List Operation) : AudioCommandSession := operations.foldl apply s

end AudioCommandSession

namespace NativePortAudioCommandQueue

/-! ## Changes that move no command -/

/-- Both describe one slot, but a ready command may be cancelled. -/
def CommandSlot.Kept (slot slot' : CommandSlot) : Prop :=
  slot' = slot ∨ slot.state = .ready ∧ slot' = { slot with state := .cancelled }

/-- No queued command is ready. -/
def NoReady (q : NativePortAudioCommandQueue) : Prop :=
  ∀ p, q.consumerPosition ≤ p → p < q.producerPosition →
    p < q.consumerPosition + q.config.maximumCommands →
    (q.commands (p % q.config.maximumCommands)).state ≠ .ready

/-- Nothing but the error record with the lifecycle it sets, the thread identities and the
cancellation of ready commands, which a new failure brings. -/
structure Quiet (q q' : NativePortAudioCommandQueue) : Prop where
  config : q'.config = q.config
  slots : ∀ index, CommandSlot.Kept (q.commands index) (q'.commands index)
  acks : q'.acks = q.acks
  producerPosition : q'.producerPosition = q.producerPosition
  consumerPosition : q'.consumerPosition = q.consumerPosition
  nextCommandSequence : q'.nextCommandSequence = q.nextCommandSequence
  producerLeaseActive : q'.producerLeaseActive = q.producerLeaseActive
  consumerLeaseActive : q'.consumerLeaseActive = q.consumerLeaseActive
  submittedCommands : q'.submittedCommands = q.submittedCommands
  completedCommands : q'.completedCommands = q.completedCommands
  cancelledCommands : q'.cancelledCommands = q.cancelledCommands
  failedCommands : q'.failedCommands = q.failedCommands
  lifecycle : q'.lifecycle = q.lifecycle ∨ q'.lifecycle = .failed
  failed : q'.lifecycle = .failed → q.lifecycle = .failed ∨ (q.config.enabled = true → NoReady q')

theorem CommandSlot.Kept.trans {slot slot' slot'' : CommandSlot} (h : CommandSlot.Kept slot slot')
    (h' : CommandSlot.Kept slot' slot'') : CommandSlot.Kept slot slot'' := by
  rcases h with rfl | ⟨hready, rfl⟩
  · exact h'
  · rcases h' with rfl | ⟨hready', -⟩
    · exact Or.inr ⟨hready, rfl⟩
    · cases hready'

theorem CommandSlot.Kept.not_ready {slot slot' : CommandSlot} (h : CommandSlot.Kept slot slot')
    (hstate : slot.state ≠ .ready) : slot'.state ≠ .ready := by
  rcases h with rfl | ⟨-, rfl⟩
  · exact hstate
  · exact SlotState.noConfusion

/-- A change of the slots alone. -/
theorem Quiet.of_slots (q : NativePortAudioCommandQueue) {commands : Nat → CommandSlot}
    (hslots : ∀ index, CommandSlot.Kept (q.commands index) (commands index)) :
    Quiet q { q with commands := commands } :=
  ⟨rfl, hslots, rfl, rfl, rfl, rfl, rfl, rfl, rfl, rfl, rfl, rfl, Or.inl rfl, Or.inl⟩

theorem Quiet.refl (q : NativePortAudioCommandQueue) : Quiet q q :=
  Quiet.of_slots q (fun _ => Or.inl rfl)

theorem Quiet.noReady {q q' : NativePortAudioCommandQueue} (h : Quiet q q') (hq : NoReady q) :
    NoReady q' := by
  unfold NoReady at hq ⊢
  rw [h.consumerPosition, h.producerPosition, h.config]
  intro p hfirst hlast hturn
  exact (h.slots _).not_ready (hq p hfirst hlast hturn)

theorem Quiet.trans {q q' q'' : NativePortAudioCommandQueue} (h : Quiet q q')
    (h' : Quiet q' q'') : Quiet q q'' where
  config := h'.config.trans h.config
  slots := fun index => (h.slots index).trans (h'.slots index)
  acks := h'.acks.trans h.acks
  producerPosition := h'.producerPosition.trans h.producerPosition
  consumerPosition := h'.consumerPosition.trans h.consumerPosition
  nextCommandSequence := h'.nextCommandSequence.trans h.nextCommandSequence
  producerLeaseActive := h'.producerLeaseActive.trans h.producerLeaseActive
  consumerLeaseActive := h'.consumerLeaseActive.trans h.consumerLeaseActive
  submittedCommands := h'.submittedCommands.trans h.submittedCommands
  completedCommands := h'.completedCommands.trans h.completedCommands
  cancelledCommands := h'.cancelledCommands.trans h.cancelledCommands
  failedCommands := h'.failedCommands.trans h.failedCommands
  lifecycle := by
    rcases h'.lifecycle with heq | hfailed
    · rw [heq]
      exact h.lifecycle
    · exact Or.inr hfailed
  failed := by
    intro hfailed
    rcases h'.failed hfailed with hearlier | hnone
    · rcases h.failed hearlier with hfirst | hnone
      · exact Or.inl hfirst
      · exact Or.inr (fun henabled => h'.noReady (hnone henabled))
    · exact Or.inr (fun henabled => hnone (h.config ▸ henabled))

theorem cancelReadyFrom_kept (maximumCommands : Nat) :
    ∀ (count position : Nat) (commands : Nat → CommandSlot) (index : Nat),
      CommandSlot.Kept (commands index)
        (cancelReadyFrom maximumCommands position count commands index)
  | 0, _, _, _ => Or.inl rfl
  | count + 1, position, commands, index => by
    have hrest := cancelReadyFrom_kept maximumCommands count (position + 1)
      (Function.update commands (position % maximumCommands)
        (CommandSlot.cancelReady (commands (position % maximumCommands)))) index
    refine CommandSlot.Kept.trans ?_ hrest
    by_cases hindex : index = position % maximumCommands
    · rw [hindex, Function.update_self]
      unfold CommandSlot.cancelReady
      split
      · rename_i hready
        exact Or.inr ⟨hready, rfl⟩
      · exact Or.inl rfl
    · rw [Function.update_of_ne hindex]
      exact Or.inl rfl

/-- No place that the loop visits stays ready. -/
theorem cancelReadyFrom_not_ready (maximumCommands : Nat) :
    ∀ (count position : Nat) (commands : Nat → CommandSlot) (visited : Nat), position ≤ visited →
      visited < position + count → (cancelReadyFrom maximumCommands position count commands
        (visited % maximumCommands)).state ≠ .ready
  | 0, position, _, visited, hle, hlt => absurd hlt (by omega)
  | count + 1, position, commands, visited, hle, hlt => by
    unfold cancelReadyFrom
    dsimp only
    rcases Nat.lt_or_ge position visited with hnext | hge
    · exact cancelReadyFrom_not_ready maximumCommands count (position + 1) _ visited hnext
        (by omega)
    · have heq : visited = position := by omega
      have hkept := cancelReadyFrom_kept maximumCommands count (position + 1)
        (Function.update commands (position % maximumCommands)
          (CommandSlot.cancelReady (commands (position % maximumCommands))))
        (visited % maximumCommands)
      rw [heq, Function.update_self] at hkept
      have hnot : (CommandSlot.cancelReady (commands (position % maximumCommands))).state ≠ .ready := by
        unfold CommandSlot.cancelReady
        split
        · exact SlotState.noConfusion
        · assumption
      rw [heq]
      rcases hkept with hsame | ⟨-, hcancelled⟩
      · rwa [hsame]
      · rw [hcancelled]
        exact SlotState.noConfusion

variable (q : NativePortAudioCommandQueue)
include q

theorem quiet_cancelReadyCommands : Quiet q q.cancelReadyCommands := by
  unfold cancelReadyCommands
  split
  · exact Quiet.refl q
  · exact Quiet.of_slots q (cancelReadyFrom_kept _ _ _ _)

theorem cancelReadyCommands_noReady
    (henabled : q.config.enabled = true) : NoReady q.cancelReadyCommands := by
  have hquiet := quiet_cancelReadyCommands q
  intro p hfirst hlast hturn
  rw [hquiet.consumerPosition] at hfirst hturn
  rw [hquiet.producerPosition] at hlast
  rw [hquiet.config] at hturn ⊢
  have hcancel : ¬ (q.config.enabled = false ∨ q.config.maximumCommands = 0 ∨
      q.producerPosition < q.consumerPosition) := by
    rw [henabled]
    rintro (h | h | h)
    · cases h
    · omega
    · omega
  unfold cancelReadyCommands
  rw [if_neg hcancel]
  exact cancelReadyFrom_not_ready _ _ _ _ p hfirst (by omega)

theorem quiet_publishError (failure : NativePortAudioCommandQueueFailure) (commandSequence : Nat) :
    Quiet q (q.publishError failure commandSequence) := by
  unfold publishError
  split
  · exact Quiet.refl q
  · dsimp only
    split
    · exact quiet_cancelReadyCommands q
    · have hcancel := quiet_cancelReadyCommands
        { q with
          firstErrorClaimed := true
          firstError := failure
          firstErrorCommandSequence := commandSequence
          firstErrorPublished := true
          lifecycle := .failed }
      have hlifecycle := hcancel.lifecycle
      rw [or_self] at hlifecycle
      exact ⟨hcancel.config, hcancel.slots, hcancel.acks, hcancel.producerPosition,
        hcancel.consumerPosition, hcancel.nextCommandSequence,
        hcancel.producerLeaseActive, hcancel.consumerLeaseActive, hcancel.submittedCommands,
        hcancel.completedCommands, hcancel.cancelledCommands, hcancel.failedCommands,
        Or.inr hlifecycle, fun _ => Or.inr (fun henabled => cancelReadyCommands_noReady _ henabled)⟩

/-- A change of the thread identities. -/
theorem Quiet.of_identities (producer consumer : Nat) :
    Quiet q { q with producerThreadIdentity := producer, consumerThreadIdentity := consumer } :=
  ⟨rfl, fun _ => Or.inl rfl, rfl, rfl, rfl, rfl, rfl, rfl, rfl, rfl, rfl, rfl, Or.inl rfl,
    Or.inl⟩

theorem quiet_bindProducerThread (token : Nat) : Quiet q (q.bindProducerThread token) := by
  unfold bindProducerThread
  split
  · exact Quiet.of_identities q token q.consumerThreadIdentity
  · exact Quiet.refl q

theorem quiet_bindConsumerThread (token : Nat) : Quiet q (q.bindConsumerThread token) := by
  unfold bindConsumerThread
  split
  · exact Quiet.of_identities q q.producerThreadIdentity token
  · exact Quiet.refl q

theorem quiet_failTerminal (token : Nat)
    (failure : NativePortAudioCommandQueueFailure) (commandSequence : Nat) :
    Quiet q (q.failTerminal token failure commandSequence) := by
  unfold failTerminal
  split
  · exact Quiet.refl q
  · split
    · exact quiet_publishError _ _ _
    · exact (quiet_bindConsumerThread _ _).trans (quiet_publishError _ _ _)

omit q

end NativePortAudioCommandQueue
end KatanaRecomp.Runtime
