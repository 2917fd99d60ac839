import KatanaRecomp.Runtime.AudioCommandInvariant

/-! # What the audio command queue promises

Each operation is quiet or makes one of the stores of the invariants, so a whole
session keeps them, whatever the order of its operations. Accounting follows.
Draining and cancelling after a failure hold as long as no consumer stops a queue
that is still being written and nothing is published once the queue has failed;
the queue checks neither. -/
namespace KatanaRecomp.Runtime
namespace NativePortAudioCommandQueue
variable {q : NativePortAudioCommandQueue}

/-! ## What an operation can do -/

theorem bindProducerThread_eq (q : NativePortAudioCommandQueue) (token : Nat) :
    (q.bindProducerThread token).lifecycle = q.lifecycle := by
  unfold bindProducerThread
  split
  · rfl
  · rfl

/-- The queue as a new lease finds it. -/
structure Admits (q : NativePortAudioCommandQueue) (command : NativePortAudioPodCommand) : Prop where
  enabled : q.config.enabled = true
  lifecycle : q.lifecycle = .running
  lease : q.producerLeaseActive = false
  free : (q.slotAt q.producerPosition).state = .free
  ack : command.ackSlot ≠ invalidAckSlot → (q.acks command.ackSlot).state = .free
  sequence : q.nextCommandSequence ≠ 0

section
variable (q : NativePortAudioCommandQueue)

theorem reserveCommand_cases
    (command : NativePortAudioPodCommand) (henabled : q.config.enabled = true)
    (hlifecycle : q.lifecycle = .running) (hlease : q.producerLeaseActive = false) :
    (∀ lease, (q.reserveCommand command).1 ≠ .ok (some lease)) ∧
        (Quiet q (q.reserveCommand command).2 ∨
          Quiet (q.rebased command.payloadSize) (q.reserveCommand command).2) ∨
      Admits q command ∧ q.reserveCommand command =
        (.ok (some { slot := q.producerIndex, commandSequence := 0 }),
          (q.rebased command.payloadSize).writeCommand command
            (q.reservedPadding command.payloadSize)) := by
  unfold reserveCommand
  dsimp only
  split
  · exact Or.inl ⟨nofun, Or.inl (Quiet.refl q)⟩
  · rename_i hfree
    split
    · exact Or.inl ⟨nofun, Or.inl (quiet_publishError q .payloadReservationOverflow 0)⟩
    · split
      · exact Or.inl ⟨nofun, Or.inr (Quiet.refl _)⟩
      · split
        · exact Or.inl ⟨nofun, Or.inr (Quiet.refl _)⟩
        · rename_i hack
          split
          · exact Or.inl ⟨nofun, Or.inr (quiet_publishError (q.rebased command.payloadSize) .commandSequenceExhausted 0)⟩
          · rename_i hsequence
            refine Or.inr ⟨⟨henabled, hlifecycle, hlease, not_not.mp hfree, ?_, hsequence⟩, rfl⟩
            intro hslot
            by_contra hbusy
            exact hack ⟨hslot, hbusy⟩

theorem tryBeginProduce_cases (token : Nat) (command : NativePortAudioPodCommand) :
    (∀ lease, (q.tryBeginProduce token command).1 ≠ .ok (some lease)) ∧
        (Quiet q (q.tryBeginProduce token command).2 ∨ q.producerLeaseActive = false ∧
            Quiet ((q.bindProducerThread token).rebased command.payloadSize)
              (q.tryBeginProduce token command).2) ∨
      Admits (q.bindProducerThread token) command ∧ q.tryBeginProduce token command =
        (.ok (some { slot := (q.bindProducerThread token).producerIndex, commandSequence := 0 }),
          ((q.bindProducerThread token).rebased command.payloadSize).writeCommand command
            ((q.bindProducerThread token).reservedPadding command.payloadSize)) := by
  have hquiet := quiet_bindProducerThread q token
  unfold tryBeginProduce
  dsimp only
  split
  · exact Or.inl ⟨nofun, Or.inl (Quiet.refl q)⟩
  · rename_i henabled
    split
    · exact Or.inl ⟨nofun, Or.inl (quiet_publishError q .producerThreadViolation 0)⟩
    · cases hlifecycle : q.lifecycle with
      | failed => exact Or.inl ⟨nofun, Or.inl hquiet⟩
      | draining => exact Or.inl ⟨nofun, Or.inl hquiet⟩
      | stopped => exact Or.inl ⟨nofun, Or.inl hquiet⟩
      | disabled => exact Or.inl ⟨nofun, Or.inl hquiet⟩
      | running =>
        dsimp only
        split
        · exact Or.inl ⟨nofun,
            Or.inl (hquiet.trans (quiet_publishError (q.bindProducerThread token) .producerLeaseOverlap 0))⟩
        · rename_i hlease
          rw [Bool.not_eq_true] at hlease
          split
          · exact Or.inl ⟨nofun,
              Or.inl (hquiet.trans (quiet_publishError (q.bindProducerThread token) (q.commandFailure command) 0))⟩
          · rcases reserveCommand_cases (q.bindProducerThread token) command
              (hquiet.config ▸ not_not.mp (by simpa using henabled))
              ((bindProducerThread_eq q token).trans hlifecycle)
              (hquiet.producerLeaseActive.trans hlease) with ⟨hnone, hstep | hstep⟩ | hadmits
            · exact Or.inl ⟨hnone, Or.inl (hquiet.trans hstep)⟩
            · exact Or.inl ⟨hnone, Or.inr ⟨hlease, hstep⟩⟩
            · exact Or.inr hadmits

theorem publishProducer_cases (token slotIndex commandSequence : Nat) :
    (q.publishProducer token slotIndex commandSequence).1 = false ∧
        Quiet q (q.publishProducer token slotIndex commandSequence).2 ∨
      q.producerLeaseActive = true ∧ q.nextCommandSequence ≠ 0 ∧
        q.publishProducer token slotIndex commandSequence =
          (true, (q.bindProducerThread token).storePublished slotIndex) := by
  unfold publishProducer
  dsimp only
  split
  · exact Or.inl ⟨rfl, Quiet.refl q⟩
  · rename_i hlease
    rw [not_or] at hlease
    split
    · exact Or.inl ⟨rfl, Quiet.refl q⟩
    · split
      · exact Or.inl ⟨rfl, quiet_bindProducerThread q token⟩
      · split
        · exact Or.inl ⟨rfl, quiet_bindProducerThread q token⟩
        · rename_i hnext
          exact Or.inr ⟨by simpa using hlease.1, hnext, rfl⟩

theorem tryBeginConsume_cases (token : Nat) :
    (∀ lease, (q.tryBeginConsume token).1 ≠ .ok (some lease)) ∧
        (Quiet q (q.tryBeginConsume token).2 ∨
          q.consumerThreadAllowed token = true ∧ q.lifecycle = .draining ∧
            q.consumerPosition = q.producerPosition ∧ (q.tryBeginConsume token).2 =
              { q.bindConsumerThread token with lifecycle := .stopped }) ∨
      q.config.enabled = true ∧ q.consumerLeaseActive = false ∧
        ((q.slotAt q.consumerPosition).state = .ready ∨
          (q.slotAt q.consumerPosition).state = .cancelled) ∧ q.tryBeginConsume token = (.ok (some
            { slot := q.consumerIndex
              commandSequence := (q.slotAt q.consumerPosition).command.commandSequence
              cancelled := (q.slotAt q.consumerPosition).state == .cancelled }),
            (q.bindConsumerThread token).storeReading q.consumerIndex) := by
  have hquiet := quiet_bindConsumerThread q token
  unfold tryBeginConsume
  dsimp only
  split
  · exact Or.inl ⟨nofun, Or.inl (Quiet.refl q)⟩
  · rename_i henabled
    split
    · exact Or.inl ⟨nofun,
        Or.inl (quiet_publishError q .consumerThreadViolation 0)⟩
    · rename_i hthread
      split
      · exact Or.inl ⟨nofun, Or.inl (hquiet.trans
          (quiet_publishError (q.bindConsumerThread token) .consumerLeaseOverlap 0))⟩
      · rename_i hlease
        split
        · split
          · rename_i hdrained
            exact Or.inl ⟨nofun,
              Or.inr ⟨by simpa using hthread, hdrained.1, hdrained.2, rfl⟩⟩
          · exact Or.inl ⟨nofun, Or.inl hquiet⟩
        · rename_i hstate
          refine Or.inr ⟨by simpa using henabled, by simpa using hlease, ?_, rfl⟩
          by_contra hnone
          rw [not_or] at hnone
          exact hstate hnone

end

/-- The two ways a call that settles a command ends. -/
def SettleCases (q : NativePortAudioCommandQueue) (slotIndex commandSequence : Nat)
    (answer : Bool × NativePortAudioCommandQueue) : Prop := answer.1 = false ∧ Quiet q answer.2 ∨
    ∃ bound result, Quiet q bound ∧ q.consumerLeaseActive = true ∧
      answer = (true, bound.storeFinalized slotIndex commandSequence result)

theorem SettleCases.quiet {q q' : NativePortAudioCommandQueue} {slotIndex commandSequence : Nat}
    {answer : Bool × NativePortAudioCommandQueue} (hquiet : Quiet q q')
    (h : SettleCases q' slotIndex commandSequence answer) :
    SettleCases q slotIndex commandSequence answer := by
  rcases h with ⟨hfalse, hstep⟩ | ⟨bound, result, hbound, hlease, heq⟩
  · exact Or.inl ⟨hfalse, hquiet.trans hstep⟩
  · exact Or.inr ⟨bound, result, hquiet.trans hbound, hquiet.consumerLeaseActive ▸ hlease, heq⟩

section
variable (q : NativePortAudioCommandQueue)

theorem finalizeConsumer_cases
    (token slotIndex commandSequence : Nat) (result : NativePortAudioCommandAckResult) :
    SettleCases q slotIndex commandSequence
      (q.finalizeConsumer token slotIndex commandSequence result) := by
  unfold finalizeConsumer
  dsimp only
  split
  · exact Or.inl ⟨rfl, Quiet.refl q⟩
  · rename_i hlease
    rw [not_or] at hlease
    split
    · exact Or.inl ⟨rfl, quiet_publishError q .consumerThreadViolation commandSequence⟩
    · split
      · exact Or.inl ⟨rfl, quiet_bindConsumerThread q token⟩
      · split
        · exact Or.inl ⟨rfl, quiet_bindConsumerThread q token⟩
        · exact Or.inr ⟨_, _, quiet_bindConsumerThread q token, by simpa using hlease.1, rfl⟩

theorem finishConsumer_cases
    (token slotIndex commandSequence : Nat) (result : NativePortAudioCommandAckResult) :
    SettleCases q slotIndex commandSequence
      (q.finishConsumer token slotIndex commandSequence result) := by
  unfold finishConsumer
  split
  · exact (finalizeConsumer_cases ..).quiet (quiet_publishError _ _ _)
  · split
    · exact (finalizeConsumer_cases ..).quiet (quiet_publishError _ _ _)
    · exact finalizeConsumer_cases ..

theorem finishConsumerCancelled_cases
    (token slotIndex commandSequence : Nat) (status : NativePortAudioCommandAckStatus)
    (errorCode : BitVec 32) : SettleCases q slotIndex commandSequence
      (q.finishConsumerCancelled token slotIndex commandSequence status errorCode) := by
  unfold finishConsumerCancelled
  split
  · exact (finalizeConsumer_cases ..).quiet (quiet_publishError _ _ _)
  · exact finalizeConsumer_cases ..

theorem abandonConsumer_cases
    (token slotIndex commandSequence : Nat) : SettleCases q slotIndex commandSequence
      (q.abandonConsumer token slotIndex commandSequence) := by
  unfold abandonConsumer
  split
  · exact Or.inl ⟨rfl, Quiet.refl q⟩
  · exact (finishConsumerCancelled_cases ..).quiet (quiet_publishError _ _ _)

theorem tryReadAck_cases (token ackSlot commandSequence : Nat) :
    (∀ ack, (q.tryReadAck token ackSlot commandSequence).1 ≠ .ok (some ack)) ∧
        Quiet q (q.tryReadAck token ackSlot commandSequence).2 ∨
      (q.acks ackSlot).state.terminal = true ∧
        (q.acks ackSlot).value.commandSequence = commandSequence ∧
        q.tryReadAck token ackSlot commandSequence = (.ok (some (q.acks ackSlot).value),
            (q.bindProducerThread token).storeAckRead ackSlot) := by
  have hquiet := quiet_bindProducerThread q token
  unfold tryReadAck
  dsimp only
  split
  · exact Or.inl ⟨nofun, Quiet.refl q⟩
  · split
    · exact Or.inl ⟨nofun, quiet_publishError q .producerThreadViolation commandSequence⟩
    · split
      · exact Or.inl ⟨nofun, hquiet⟩
      · split
        · exact Or.inl ⟨nofun, hquiet⟩
        · rename_i hterminal
          split
          · exact Or.inl ⟨nofun, hquiet⟩
          · rename_i hsequence
            exact Or.inr ⟨by simpa using hterminal, not_not.mp hsequence, rfl⟩

end
end NativePortAudioCommandQueue

namespace AudioCommandSession
open NativePortAudioCommandQueue

/-! ## The history -/

/-- The acknowledgement is the one of a settled command that asked for the slot. -/
def Acknowledges (s : AudioCommandSession) (ackSlot : Nat) (ack : NativePortAudioCommandAck) :
    Prop := ∃ p command, p < s.queue.consumerPosition ∧ s.published[p]? = some command ∧
    ack.commandSequence = p + 1 ∧ command.ackSlot = ackSlot ∧ ack.stamp = command.stamp

/-- What the two sides were told agrees with the queue. -/
structure History (s : AudioCommandSession) : Prop where
  producerLease : ∀ lease, s.producerLease = some lease →
    s.queue.producerLeaseActive = true ∧ lease.slot = s.queue.producerIndex ∧
      lease.commandSequence = 0
  consumerLease : ∀ lease, s.consumerLease = some lease →
    s.queue.consumerLeaseActive = true ∧ lease.slot = s.queue.consumerIndex ∧
      lease.commandSequence = s.queue.consumerPosition + 1
  submitted : s.queue.submittedCommands = s.queue.producerPosition
  settled : s.queue.completedCommands + s.queue.cancelledCommands + s.queue.failedCommands =
    s.queue.consumerPosition
  publishedLength : s.published.length = s.queue.producerPosition
  publishedSequence : ∀ p command, s.published[p]? = some command → command.commandSequence = p + 1
  queued : ∀ p, s.queue.consumerPosition ≤ p → p < s.queue.producerPosition →
    s.published[p]? = some (s.queue.slotAt p).command
  finalized : s.finalized = List.range' 1 s.queue.consumerPosition
  terminal : ∀ ackSlot, (s.queue.acks ackSlot).state.terminal = true →
    s.Acknowledges ackSlot (s.queue.acks ackSlot).value ∧
      (s.queue.acks ackSlot).value.commandSequence ∉ s.received.map (·.commandSequence)
  received : ∀ receipt ∈ s.received, receipt.ack.commandSequence = receipt.commandSequence ∧
    s.Acknowledges receipt.ackSlot receipt.ack
  once : (s.received.map (·.commandSequence)).Nodup

theorem Acknowledges.mono {s s' : AudioCommandSession} {ackSlot : Nat}
    {ack : NativePortAudioCommandAck} (h : s.Acknowledges ackSlot ack)
    (hposition : s.queue.consumerPosition ≤ s'.queue.consumerPosition)
    (hpublished : ∀ (p : Nat) command, s.published[p]? = some command →
      s'.published[p]? = some command) : s'.Acknowledges ackSlot ack := by
  obtain ⟨p, command, hlt, hget, hsequence, hslot, hstamp⟩ := h
  exact ⟨p, command, by omega, hpublished p command hget, hsequence, hslot, hstamp⟩

variable {s : AudioCommandSession}

/-- Two settled commands with one sequence are one command. -/
theorem Acknowledges.slot_eq {ackSlot ackSlot' : Nat}
    {ack ack' : NativePortAudioCommandAck} (h : s.Acknowledges ackSlot ack)
    (h' : s.Acknowledges ackSlot' ack') (heq : ack.commandSequence = ack'.commandSequence) :
    ackSlot = ackSlot' := by
  obtain ⟨p, command, -, hget, hsequence, hslot, -⟩ := h
  obtain ⟨p', command', -, hget', hsequence', hslot', -⟩ := h'
  have hp : p = p' := by omega
  rw [hp, hget'] at hget
  cases hget
  rw [← hslot, hslot']

variable {queue : NativePortAudioCommandQueue}

theorem History.quiet (hs : History s)
    (h : Quiet s.queue queue) : History { s with queue := queue } := by
  have hack : ∀ {ackSlot ack}, s.Acknowledges ackSlot ack →
      Acknowledges { s with queue := queue } ackSlot ack := by
    intro ackSlot ack hold
    exact hold.mono h.consumerPosition.ge (fun _ _ hget => hget)
  constructor
  case producerLease =>
    intro lease hlease
    obtain ⟨hactive, hslot, hsequence⟩ := hs.producerLease lease hlease
    refine ⟨h.producerLeaseActive.trans hactive, ?_, hsequence⟩
    unfold producerIndex at hslot ⊢
    rw [h.producerPosition, h.config]
    exact hslot
  case consumerLease =>
    intro lease hlease
    obtain ⟨hactive, hslot, hsequence⟩ := hs.consumerLease lease hlease
    refine ⟨h.consumerLeaseActive.trans hactive, ?_, ?_⟩
    · unfold consumerIndex at hslot ⊢
      rw [h.consumerPosition, h.config]
      exact hslot
    · rw [h.consumerPosition]
      exact hsequence
  case submitted =>
    change queue.submittedCommands = queue.producerPosition
    rw [h.submittedCommands, h.producerPosition]
    exact hs.submitted
  case settled =>
    change queue.completedCommands + queue.cancelledCommands + queue.failedCommands =
      queue.consumerPosition
    rw [h.completedCommands, h.cancelledCommands, h.failedCommands, h.consumerPosition]
    exact hs.settled
  case publishedLength => exact hs.publishedLength.trans h.producerPosition.symm
  case publishedSequence => exact hs.publishedSequence
  case queued =>
    intro p hfirst hlast
    rw [h.consumerPosition] at hfirst
    rw [h.producerPosition] at hlast
    rw [hs.queued p hfirst hlast, (h.slotAt p).command]
  case finalized =>
    rw [h.consumerPosition]
    exact hs.finalized
  case terminal =>
    intro ackSlot hterminal
    change (queue.acks ackSlot).state.terminal = true at hterminal
    change Acknowledges _ ackSlot (queue.acks ackSlot).value ∧
      (queue.acks ackSlot).value.commandSequence ∉ _
    rw [h.acks] at hterminal ⊢
    obtain ⟨hold, hunread⟩ := hs.terminal ackSlot hterminal
    exact ⟨hack hold, hunread⟩
  case received =>
    intro receipt hreceipt
    obtain ⟨hsequence, hold⟩ := hs.received receipt hreceipt
    exact ⟨hsequence, hack hold⟩
  case once => exact hs.once

/-- A rebase moves nothing that the history reads. -/
theorem History.rebased {s : AudioCommandSession} (hs : History s) (payloadSize : Nat) :
    History { s with queue := s.queue.rebased payloadSize } := by
  obtain ⟨producer, consumer, heq⟩ := rebased_eq s.queue payloadSize
  rw [heq]
  exact ⟨hs.producerLease, hs.consumerLease, hs.submitted, hs.settled, hs.publishedLength,
    hs.publishedSequence, hs.queued, hs.finalized, hs.terminal, hs.received, hs.once⟩

theorem History.writeCommand (hs : History s) (command : NativePortAudioPodCommand) (padding : Nat)
    (hroom : s.queue.producerPosition < s.queue.consumerPosition + s.queue.config.maximumCommands) :
    History
      { s with
        queue := s.queue.writeCommand command padding
        producerLease := some { slot := s.queue.producerIndex, commandSequence := 0 } } := by
  constructor
  case producerLease =>
    intro lease hlease
    cases hlease
    exact ⟨rfl, rfl, rfl⟩
  case consumerLease => exact hs.consumerLease
  case submitted => exact hs.submitted
  case settled => exact hs.settled
  case publishedLength => exact hs.publishedLength
  case publishedSequence => exact hs.publishedSequence
  case queued =>
    intro p hfirst hlast
    change s.published[p]? = some ((s.queue.writeCommand command padding).slotAt p).command
    rw [writeCommand_slotAt hroom hfirst hlast]
    exact hs.queued p hfirst hlast
  case finalized => exact hs.finalized
  case terminal =>
    intro ackSlot hterminal
    -- the slot of the new command is pending
    have hsame : (s.queue.writeCommand command padding).acks ackSlot = s.queue.acks ackSlot := by
      change (if command.ackSlot ≠ invalidAckSlot then
        Function.update s.queue.acks command.ackSlot _ else s.queue.acks) ackSlot = _
      split
      · rename_i hslot
        by_cases heq : ackSlot = command.ackSlot
        · exfalso
          change ((if command.ackSlot ≠ invalidAckSlot then
            Function.update s.queue.acks command.ackSlot _ else s.queue.acks)
              ackSlot).state.terminal = true at hterminal
          rw [if_pos hslot, heq, Function.update_self] at hterminal
          cases hterminal
        · exact Function.update_of_ne heq _ _
      · rfl
    change ((s.queue.writeCommand command padding).acks ackSlot).state.terminal = true at hterminal
    change Acknowledges _ ackSlot ((s.queue.writeCommand command padding).acks ackSlot).value ∧
      ((s.queue.writeCommand command padding).acks ackSlot).value.commandSequence ∉ _
    rw [hsame] at hterminal ⊢
    exact hs.terminal ackSlot hterminal
  case received => exact hs.received
  case once => exact hs.once

theorem updatedAck_of_ne {acks : Nat → AckSlot} {ackSlot : Nat} {value : AckSlot} (slot : Nat)
    (h : slot ≠ invalidAckSlot → ackSlot ≠ slot) :
    (if slot ≠ invalidAckSlot then Function.update acks slot value else acks) ackSlot =
      acks ackSlot := by
  split
  · rename_i hslot
    exact Function.update_of_ne (h hslot) _ _
  · rfl

section
variable (hs : History s)
include hs

section
variable (hring : Ring s.queue)
include hring

theorem History.storePublished (hacks : Acks s.queue) (hlease : s.queue.producerLeaseActive = true)
    (hnext : s.queue.nextCommandSequence ≠ 0) : History
      { s with
        queue := s.queue.storePublished s.queue.producerIndex
        producerLease := none
        published := s.published ++ [((s.queue.storePublished s.queue.producerIndex).commands
            s.queue.producerIndex).command] } := by
  have hsequence := (hring.published_sequence hnext).2
  have hlength := hs.publishedLength
  have hgrow : ∀ (p : Nat) command, s.published[p]? = some command →
      (s.published ++ [((s.queue.storePublished s.queue.producerIndex).commands
        s.queue.producerIndex).command])[p]? = some command := by
    intro p command hget
    have hlt := (List.getElem?_eq_some_iff.mp hget).1
    rw [List.getElem?_append_left hlt]
    exact hget
  have hlast : (s.published ++ [((s.queue.storePublished s.queue.producerIndex).commands
      s.queue.producerIndex).command])[s.queue.producerPosition]? =
      some ((s.queue.storePublished s.queue.producerIndex).slotAt
        s.queue.producerPosition).command := by
    rw [← hlength, List.getElem?_append_right le_rfl, Nat.sub_self, List.getElem?_cons_zero,
      hlength]
    rfl
  constructor
  case producerLease =>
    intro lease h
    cases h
  case consumerLease => exact hs.consumerLease
  case submitted => exact congrArg (· + 1) hs.submitted
  case settled => exact hs.settled
  case publishedLength =>
    rw [List.length_append, List.length_singleton, hlength]
    rfl
  case publishedSequence =>
    intro p command hget
    change (s.published ++ _)[p]? = some command at hget
    rcases Nat.lt_or_ge p s.published.length with hlt | hge
    · rw [List.getElem?_append_left hlt] at hget
      exact hs.publishedSequence p command hget
    · have hbound := (List.getElem?_eq_some_iff.mp hget).1
      rw [List.length_append, List.length_singleton] at hbound
      have heq : p = s.queue.producerPosition := by omega
      rw [heq, hlast, storePublished_slotAt_producer] at hget
      cases hget
      rw [heq]
      exact hsequence
  case queued =>
    intro p hfirst hlast'
    change s.queue.consumerPosition ≤ p at hfirst
    change p < s.queue.producerPosition + 1 at hlast'
    rcases Nat.lt_or_ge p s.queue.producerPosition with hlt | hge
    · change _ = some ((s.queue.storePublished s.queue.producerIndex).slotAt p).command
      rw [storePublished_slotAt hring hlease hfirst hlt]
      exact hgrow p _ (hs.queued p hfirst hlt)
    · rw [show p = s.queue.producerPosition by omega]
      exact hlast
  case finalized => exact hs.finalized
  case terminal =>
    intro ackSlot hterminal
    change ((s.queue.storePublished s.queue.producerIndex).acks ackSlot).state.terminal = true
      at hterminal
    rw [storePublished_ack_state] at hterminal
    -- the acknowledgement of the command published is pending, so it is another one
    have hsame : (s.queue.storePublished s.queue.producerIndex).acks ackSlot =
        s.queue.acks ackSlot := by
      refine updatedAck_of_ne (s.queue.slotAt s.queue.producerPosition).command.ackSlot ?_
      intro hslot heq
      have hpending := hacks.pending s.queue.producerPosition
        ⟨hring.order, by rw [liveEnd_of_lease hlease]; exact Nat.lt_succ_self _⟩ hslot
      rw [heq, hpending] at hterminal
      cases hterminal
    obtain ⟨hold, hunread⟩ := hs.terminal ackSlot hterminal
    change Acknowledges _ ackSlot
        ((s.queue.storePublished s.queue.producerIndex).acks ackSlot).value ∧
      ((s.queue.storePublished s.queue.producerIndex).acks ackSlot).value.commandSequence ∉ _
    rw [hsame]
    exact ⟨hold.mono le_rfl hgrow, hunread⟩
  case received =>
    intro receipt hreceipt
    obtain ⟨hseq, hold⟩ := hs.received receipt hreceipt
    exact ⟨hseq, hold.mono le_rfl hgrow⟩
  case once => exact hs.once

theorem History.storeAborted (hlease : s.queue.producerLeaseActive = true) : History
      { s with
        queue := s.queue.storeAborted s.queue.producerIndex
        producerLease := none } := by
  constructor
  case producerLease =>
    intro lease h
    cases h
  case consumerLease => exact hs.consumerLease
  case submitted => exact hs.submitted
  case settled => exact hs.settled
  case publishedLength => exact hs.publishedLength
  case publishedSequence => exact hs.publishedSequence
  case queued =>
    intro p hfirst hlast
    change s.published[p]? = some ((s.queue.storeAborted s.queue.producerIndex).slotAt p).command
    rw [storeAborted_slotAt hring hlease hfirst hlast]
    exact hs.queued p hfirst hlast
  case finalized => exact hs.finalized
  case terminal =>
    intro ackSlot hterminal
    change ((s.queue.storeAborted s.queue.producerIndex).acks ackSlot).state.terminal = true
      at hterminal
    have hsame : (s.queue.storeAborted s.queue.producerIndex).acks ackSlot =
        s.queue.acks ackSlot := by
      refine updatedAck_of_ne (s.queue.slotAt s.queue.producerPosition).command.ackSlot ?_
      intro hslot heq
      change ((if (s.queue.slotAt s.queue.producerPosition).command.ackSlot ≠ invalidAckSlot then
        Function.update s.queue.acks (s.queue.slotAt s.queue.producerPosition).command.ackSlot _
        else s.queue.acks) ackSlot).state.terminal = true at hterminal
      rw [if_pos hslot, heq, Function.update_self] at hterminal
      cases hterminal
    change Acknowledges _ ackSlot
        ((s.queue.storeAborted s.queue.producerIndex).acks ackSlot).value ∧
      ((s.queue.storeAborted s.queue.producerIndex).acks ackSlot).value.commandSequence ∉ _
    rw [hsame] at hterminal ⊢
    exact hs.terminal ackSlot hterminal
  case received => exact hs.received
  case once => exact hs.once

theorem History.storeReading
    (hwork : s.queue.consumerPosition < s.queue.producerPosition)
    (cancelled : Bool) : History
      { s with
        queue := s.queue.storeReading s.queue.consumerIndex
        consumerLease := some
          { slot := s.queue.consumerIndex
            commandSequence := (s.queue.slotAt s.queue.consumerPosition).command.commandSequence
            cancelled := cancelled } } := by
  constructor
  case producerLease => exact hs.producerLease
  case consumerLease =>
    intro lease h
    cases h
    exact ⟨rfl, rfl, (hring.queued _ le_rfl hwork).1⟩
  case submitted => exact hs.submitted
  case settled => exact hs.settled
  case publishedLength => exact hs.publishedLength
  case publishedSequence => exact hs.publishedSequence
  case queued =>
    intro p hfirst hlast
    have hcommand : ((s.queue.storeReading s.queue.consumerIndex).slotAt p).command =
        (s.queue.slotAt p).command := by
      change ((s.queue.storeReading s.queue.consumerIndex).commands
        (p % s.queue.config.maximumCommands)).command = _
      rcases @storeReading_commands s.queue (p % s.queue.config.maximumCommands) with
        heq | ⟨-, heq⟩
      · rw [heq]
        rfl
      · rw [heq]
        rfl
    change s.published[p]? = some ((s.queue.storeReading s.queue.consumerIndex).slotAt p).command
    rw [hcommand]
    exact hs.queued p hfirst hlast
  case finalized => exact hs.finalized
  case terminal => exact hs.terminal
  case received => exact hs.received
  case once => exact hs.once

theorem History.storeFinalized
    (hlease : s.queue.consumerLeaseActive = true) (result : NativePortAudioCommandAckResult) :
    History
      { s with
        queue := s.queue.storeFinalized s.queue.consumerIndex (s.queue.consumerPosition + 1) result
        consumerLease := none
        finalized := s.finalized ++ [s.queue.consumerPosition + 1] } := by
  obtain ⟨hconfig, hposition, -, hproducer, hsubmitted, -⟩ :=
    storeFinalized_frame s.queue s.queue.consumerIndex (s.queue.consumerPosition + 1) result
  have hwork := hring.reading hlease
  have hend : s.queue.producerPosition ≤ s.queue.liveEnd := Nat.le_add_right _ _
  have hqueued := hs.queued s.queue.consumerPosition le_rfl hwork
  constructor
  case producerLease =>
    intro lease h
    obtain ⟨hactive, hslot, hsequence⟩ := hs.producerLease lease h
    refine ⟨hproducer.trans hactive, ?_, hsequence⟩
    unfold producerIndex at hslot ⊢
    rw [hposition, hconfig]
    exact hslot
  case consumerLease =>
    intro lease h
    cases h
  case submitted => exact hsubmitted.trans (hs.submitted.trans hposition.symm)
  case settled =>
    refine (storeFinalized_counters _ _ _ _).trans ?_
    rw [hs.settled]
    rfl
  case publishedLength => exact hs.publishedLength.trans hposition.symm
  case publishedSequence => exact hs.publishedSequence
  case queued =>
    intro p hfirst hlast
    change s.queue.consumerPosition + 1 ≤ p at hfirst
    change p < (s.queue.storeFinalized _ _ result).producerPosition at hlast
    rw [hposition] at hlast
    change s.published[p]? = some ((s.queue.storeFinalized s.queue.consumerIndex
      (s.queue.consumerPosition + 1) result).slotAt p).command
    rw [storeFinalized_slotAt hring hfirst (by omega)]
    exact hs.queued p (by omega) hlast
  case finalized =>
    change s.finalized ++ _ = List.range' 1 (s.queue.consumerPosition + 1)
    rw [hs.finalized, List.range'_concat, Nat.one_mul, Nat.add_comm 1]
  case terminal =>
    intro ackSlot hterminal
    change ((s.queue.storeFinalized s.queue.consumerIndex (s.queue.consumerPosition + 1)
      result).acks ackSlot).state.terminal = true at hterminal
    change Acknowledges _ ackSlot ((s.queue.storeFinalized s.queue.consumerIndex
        (s.queue.consumerPosition + 1) result).acks ackSlot).value ∧
      ((s.queue.storeFinalized s.queue.consumerIndex (s.queue.consumerPosition + 1)
        result).acks ackSlot).value.commandSequence ∉ _
    by_cases heq : ackSlot = (s.queue.slotAt s.queue.consumerPosition).command.ackSlot ∧
        ackSlot ≠ invalidAckSlot
    · obtain ⟨heq, hslot⟩ := heq
      have hvalue : ((s.queue.storeFinalized s.queue.consumerIndex (s.queue.consumerPosition + 1)
          result).acks ackSlot).value =
          ackValue (s.queue.slotAt s.queue.consumerPosition) (s.queue.consumerPosition + 1)
            result := by
        change ((if (s.queue.slotAt s.queue.consumerPosition).command.ackSlot ≠ invalidAckSlot then
          Function.update s.queue.acks (s.queue.slotAt s.queue.consumerPosition).command.ackSlot _
          else s.queue.acks) ackSlot).value = _
        rw [if_pos (heq ▸ hslot), heq, Function.update_self]
        rfl
      rw [hvalue]
      refine ⟨⟨s.queue.consumerPosition, _, Nat.lt_succ_self _, hqueued, rfl, heq.symm, rfl⟩, ?_⟩
      -- every sequence read back belongs to an earlier command
      intro hread
      obtain ⟨receipt, hreceipt, hsequence⟩ := List.mem_map.mp hread
      obtain ⟨hown, p, command, hlt, -, hp, -⟩ := hs.received receipt hreceipt
      change receipt.commandSequence = s.queue.consumerPosition + 1 at hsequence
      omega
    · have hsame : (s.queue.storeFinalized s.queue.consumerIndex (s.queue.consumerPosition + 1)
          result).acks ackSlot = s.queue.acks ackSlot := by
        by_cases hne : ackSlot = (s.queue.slotAt s.queue.consumerPosition).command.ackSlot
        · change (if (s.queue.slotAt s.queue.consumerPosition).command.ackSlot ≠ invalidAckSlot then
            Function.update s.queue.acks (s.queue.slotAt s.queue.consumerPosition).command.ackSlot _
            else s.queue.acks) ackSlot = _
          rw [if_neg]
          intro hslot
          exact heq ⟨hne, hne ▸ hslot⟩
        · exact storeFinalized_ack_of_ne hne
      rw [hsame] at hterminal ⊢
      obtain ⟨hold, hunread⟩ := hs.terminal ackSlot hterminal
      exact ⟨hold.mono (Nat.le_succ _) (fun _ _ hget => hget), hunread⟩
  case received =>
    intro receipt hreceipt
    obtain ⟨hsequence, hold⟩ := hs.received receipt hreceipt
    exact ⟨hsequence, hold.mono (Nat.le_succ _) (fun _ _ hget => hget)⟩
  case once => exact hs.once

end

theorem History.storeAckRead {ackSlot : Nat}
    (hterminal : (s.queue.acks ackSlot).state.terminal = true) : History
      { s with
        queue := s.queue.storeAckRead ackSlot
        received := s.received ++
          [⟨ackSlot, (s.queue.acks ackSlot).value.commandSequence, (s.queue.acks ackSlot).value⟩] } := by
  obtain ⟨hread, hunread⟩ := hs.terminal ackSlot hterminal
  constructor
  case producerLease => exact hs.producerLease
  case consumerLease => exact hs.consumerLease
  case submitted => exact hs.submitted
  case settled => exact hs.settled
  case publishedLength => exact hs.publishedLength
  case publishedSequence => exact hs.publishedSequence
  case queued => exact hs.queued
  case finalized => exact hs.finalized
  case terminal =>
    intro other hother
    have hne : other ≠ ackSlot := by
      intro heq
      change (Function.update s.queue.acks ackSlot _ other).state.terminal = true at hother
      rw [heq, Function.update_self] at hother
      cases hother
    have hsame : (s.queue.storeAckRead ackSlot).acks other = s.queue.acks other :=
      Function.update_of_ne hne _ _
    change ((s.queue.storeAckRead ackSlot).acks other).state.terminal = true at hother
    change Acknowledges _ other ((s.queue.storeAckRead ackSlot).acks other).value ∧
      ((s.queue.storeAckRead ackSlot).acks other).value.commandSequence ∉ _
    rw [hsame] at hother ⊢
    obtain ⟨hold, hnot⟩ := hs.terminal other hother
    refine ⟨hold, ?_⟩
    rw [List.map_append, List.mem_append, not_or]
    refine ⟨hnot, ?_⟩
    intro hmem
    exact hne (hold.slot_eq hread (List.mem_singleton.mp hmem))
  case received =>
    intro receipt hreceipt
    rcases List.mem_append.mp hreceipt with hold | hnew
    · exact hs.received receipt hold
    · cases List.mem_singleton.mp hnew
      exact ⟨rfl, hread⟩
  case once =>
    rw [List.map_append, List.nodup_append]
    refine ⟨hs.once, List.nodup_singleton _, ?_⟩
    intro sequence hsequence sequence' hsequence' heq
    rw [heq, List.mem_singleton.mp hsequence'] at hsequence
    exact hunread hsequence

end

/-! ## The invariant of a session -/

structure Valid (s : AudioCommandSession) : Prop where
  ring : Ring s.queue
  acks : Acks s.queue
  history : History s

theorem Valid.quiet (hs : Valid s) (h : Quiet s.queue queue) : Valid { s with queue := queue } :=
  ⟨hs.ring.quiet h, hs.acks.quiet h, hs.history.quiet h⟩

/-- The invariant does not read the lifecycle. -/
theorem Valid.withLifecycle (hs : Valid s) (lifecycle : NativePortAudioCommandQueueLifecycle) :
    Valid { s with queue := { s.queue with lifecycle := lifecycle } } := by
  obtain ⟨hring, hacks, hhistory⟩ := hs
  refine ⟨⟨hring.capacity, hring.order, hring.space, hring.bound, hring.sequence, hring.reading,
      hring.queued, hring.writing, hring.idle⟩,
    ⟨hacks.pending, hacks.distinct⟩,
    ⟨hhistory.producerLease, hhistory.consumerLease, hhistory.submitted, hhistory.settled,
      hhistory.publishedLength, hhistory.publishedSequence, hhistory.queued, hhistory.finalized,
      hhistory.terminal, hhistory.received, hhistory.once⟩⟩

theorem Valid.rebased {s : AudioCommandSession} (hs : Valid s) (payloadSize : Nat) :
    Valid { s with queue := s.queue.rebased payloadSize } :=
  ⟨hs.ring.rebased payloadSize, hs.acks.rebased payloadSize, hs.history.rebased payloadSize⟩

/-- The fields a rebase leaves alone. -/
theorem rebased_frame (q : NativePortAudioCommandQueue) (payloadSize : Nat) :
    (q.rebased payloadSize).config = q.config ∧
      (q.rebased payloadSize).producerPosition = q.producerPosition ∧
      (q.rebased payloadSize).consumerPosition = q.consumerPosition ∧
      (q.rebased payloadSize).producerLeaseActive = q.producerLeaseActive ∧
      (q.rebased payloadSize).acks = q.acks ∧ (q.rebased payloadSize).lifecycle = q.lifecycle := by
  obtain ⟨producer, consumer, heq⟩ := rebased_eq q payloadSize
  rw [heq]
  exact ⟨rfl, rfl, rfl, rfl, rfl, rfl⟩

variable (hs : Valid s)
include hs

theorem Valid.admit {command : NativePortAudioPodCommand} (hadmits : Admits s.queue command) : Valid
      { s with
        queue := (s.queue.rebased command.payloadSize).writeCommand command
          (s.queue.reservedPadding command.payloadSize)
        producerLease := some { slot := s.queue.producerIndex, commandSequence := 0 } } := by
  have hroom := hs.ring.room hadmits.enabled hadmits.free
  have hrebased := hs.rebased command.payloadSize
  obtain ⟨hconfig, hproducer, hconsumer, hlease, hacks, -⟩ :=
    rebased_frame s.queue command.payloadSize
  have hroom' : (s.queue.rebased command.payloadSize).producerPosition <
      (s.queue.rebased command.payloadSize).consumerPosition +
        (s.queue.rebased command.payloadSize).config.maximumCommands := by
    rw [hproducer, hconsumer, hconfig]
    exact hroom
  have hinactive := hlease.trans hadmits.lease
  have hhistory := hrebased.history.writeCommand command
    (s.queue.reservedPadding command.payloadSize) hroom'
  refine ⟨hrebased.ring.writeCommand hinactive hroom',
    hrebased.acks.writeCommand hinactive hroom' ?_, ?_⟩
  · intro hslot
    change ((s.queue.rebased command.payloadSize).acks command.ackSlot).state = _
    rw [hacks]
    exact hadmits.ack hslot
  · have hindex : (s.queue.rebased command.payloadSize).producerIndex = s.queue.producerIndex := by
      unfold producerIndex
      rw [hproducer, hconfig]
    rw [← hindex]
    exact hhistory

theorem Valid.tryBeginProduce (token : Nat)
    (command : NativePortAudioPodCommand) : Valid (s.apply (.tryBeginProduce token command)) := by
  have hbound := hs.quiet (quiet_bindProducerThread s.queue token)
  unfold AudioCommandSession.apply
  dsimp only
  rcases tryBeginProduce_cases s.queue token command with ⟨hnone, hstep⟩ | ⟨hadmits, heq⟩
  · have hvalid : Valid { s with queue := (s.queue.tryBeginProduce token command).2 } := by
      rcases hstep with hquiet | ⟨-, hquiet⟩
      · exact hs.quiet hquiet
      · exact (hbound.rebased command.payloadSize).quiet hquiet
    rcases hresult : s.queue.tryBeginProduce token command with ⟨answer, queue⟩
    rw [hresult] at hnone hvalid
    match answer, hnone with
    | .error _, _ => exact hvalid
    | .ok none, _ => exact hvalid
    | .ok (some lease), hnone => exact absurd rfl (hnone lease)
  · rw [heq]
    exact hbound.admit hadmits

theorem Valid.publish (token : Nat) : Valid (s.apply (.publish token)) := by
  unfold AudioCommandSession.apply
  cases hheld : s.producerLease with
  | none => exact hs
  | some lease =>
    obtain ⟨hactive, hslot, -⟩ := hs.history.producerLease lease hheld
    have hquiet := quiet_bindProducerThread s.queue token
    change Valid (s.publishLease token lease)
    unfold publishLease
    rcases publishProducer_cases s.queue token lease.slot lease.commandSequence with
      ⟨hfalse, hstep⟩ | ⟨-, hnext, heq⟩
    · dsimp only
      rw [hfalse]
      exact hs.quiet hstep
    · rw [heq]
      have hbound := hs.quiet hquiet
      have hindex : lease.slot = (s.queue.bindProducerThread token).producerIndex := by
        unfold producerIndex at hslot ⊢
        rw [hquiet.producerPosition, hquiet.config]
        exact hslot
      have hlease := hquiet.producerLeaseActive.trans hactive
      have hsequence : (s.queue.bindProducerThread token).nextCommandSequence ≠ 0 := by
        rw [hquiet.nextCommandSequence]
        exact hnext
      rw [hindex]
      exact ⟨hbound.ring.storePublished hlease hsequence,
        hbound.acks.storePublished hbound.ring hlease,
        hbound.history.storePublished hbound.ring hbound.acks hlease hsequence⟩

theorem Valid.abort : Valid (s.apply .abort) := by
  unfold AudioCommandSession.apply
  cases hheld : s.producerLease with
  | none => exact hs
  | some lease =>
    obtain ⟨hactive, hslot, hsequence⟩ := hs.history.producerLease lease hheld
    have hroom := hs.ring.lease_room hactive
    have horder := hs.ring.order
    have heq : s.queue.abortProducer lease.slot lease.commandSequence =
        s.queue.storeAborted s.queue.producerIndex := by
      unfold abortProducer
      rw [if_neg, if_neg, hslot]
      · rw [hslot, hsequence]
        exact not_not.mpr (hs.ring.writing hactive).2
      · rw [not_or, hactive, hslot]
        exact ⟨Bool.true_eq_false_eq_False, not_le.mpr (Nat.mod_lt _ (by omega))⟩
    dsimp only
    rw [heq]
    exact ⟨hs.ring.storeAborted hactive,
      hs.acks.storeAborted hs.ring hactive, hs.history.storeAborted hs.ring hactive⟩

theorem Valid.tryBeginConsume (token : Nat) : Valid (s.apply (.tryBeginConsume token)) := by
  unfold AudioCommandSession.apply
  dsimp only
  have hquiet := quiet_bindConsumerThread s.queue token
  rcases tryBeginConsume_cases s.queue token with ⟨hnone, hstep⟩ | ⟨henabled, hlease, hstate, heq⟩
  · have hvalid : Valid { s with queue := (s.queue.tryBeginConsume token).2 } := by
      rcases hstep with hstep | ⟨-, -, -, heq⟩
      · exact hs.quiet hstep
      · rw [heq]
        exact (hs.quiet hquiet).withLifecycle .stopped
    rcases hresult : s.queue.tryBeginConsume token with ⟨answer, queue⟩
    rw [hresult] at hnone hvalid
    match answer, hnone with
    | .error _, _ => exact hvalid
    | .ok none, _ => exact hvalid
    | .ok (some lease), hnone => exact absurd rfl (hnone lease)
  · rw [heq]
    have hwork := hs.ring.queued_of_readable henabled hstate
    have hbound := hs.quiet hquiet
    have hindex : s.queue.consumerIndex = (s.queue.bindConsumerThread token).consumerIndex := by
      unfold consumerIndex
      rw [hquiet.consumerPosition, hquiet.config]
    have hwork' : (s.queue.bindConsumerThread token).consumerPosition <
        (s.queue.bindConsumerThread token).producerPosition := by
      rw [hquiet.consumerPosition, hquiet.producerPosition]
      exact hwork
    have hslot : (s.queue.slotAt s.queue.consumerPosition).command =
        ((s.queue.bindConsumerThread token).slotAt
          (s.queue.bindConsumerThread token).consumerPosition).command := by
      rw [hquiet.consumerPosition]
      exact (hquiet.slotAt _).command.symm
    dsimp only
    rw [hindex, hslot]
    exact ⟨hbound.ring.storeReading (hquiet.consumerLeaseActive.trans hlease) hwork',
      hbound.acks.storeReading,
      hbound.history.storeReading hbound.ring hwork' _⟩

/-- The session after a call that settles the command of the lease held. -/
theorem Valid.settle
    {lease : NativePortAudioCommandConsumerLease} (hheld : s.consumerLease = some lease)
    {answer : Bool × NativePortAudioCommandQueue}
    (hcases : SettleCases s.queue lease.slot lease.commandSequence answer) :
    Valid (s.settle lease answer) := by
  obtain ⟨hactive, hslot, hsequence⟩ := hs.history.consumerLease lease hheld
  unfold AudioCommandSession.settle
  rcases hcases with ⟨hfalse, hstep⟩ | ⟨bound, result, hquiet, -, heq⟩
  · rw [hfalse]
    exact hs.quiet hstep
  · rw [heq]
    have hbound := hs.quiet hquiet
    have hlease := hquiet.consumerLeaseActive.trans hactive
    have hindex : lease.slot = bound.consumerIndex := by
      unfold consumerIndex at hslot ⊢
      rw [hquiet.consumerPosition, hquiet.config]
      exact hslot
    rw [← hquiet.consumerPosition] at hsequence
    dsimp only
    rw [hindex, hsequence]
    exact ⟨hbound.ring.storeFinalized hlease,
      hbound.acks.storeFinalized hbound.ring hlease,
      hbound.history.storeFinalized hbound.ring hlease result⟩

theorem Valid.dropConsumerLease : Valid { s with consumerLease := none } :=
  ⟨hs.ring, hs.acks, hs.history.producerLease, fun _ h => (by cases h),
    hs.history.submitted, hs.history.settled, hs.history.publishedLength,
    hs.history.publishedSequence, hs.history.queued, hs.history.finalized, hs.history.terminal,
    hs.history.received, hs.history.once⟩

theorem Valid.tryReadAck (token ackSlot commandSequence : Nat) :
    Valid (s.apply (.tryReadAck token ackSlot commandSequence)) := by
  unfold AudioCommandSession.apply
  dsimp only
  have hquiet := quiet_bindProducerThread s.queue token
  rcases tryReadAck_cases s.queue token ackSlot commandSequence with
    ⟨hnone, hstep⟩ | ⟨hterminal, hsequence, heq⟩
  · have hvalid := hs.quiet hstep
    rcases hresult : s.queue.tryReadAck token ackSlot commandSequence with ⟨answer, queue⟩
    rw [hresult] at hnone hvalid
    match answer, hnone with
    | .error _, _ => exact hvalid
    | .ok none, _ => exact hvalid
    | .ok (some ack), hnone => exact absurd rfl (hnone ack)
  · rw [heq]
    have hbound := hs.quiet hquiet
    have hread : ((s.queue.bindProducerThread token).acks ackSlot).state.terminal = true := by
      rw [hquiet.acks]
      exact hterminal
    dsimp only
    rw [← hsequence, ← hquiet.acks]
    exact ⟨⟨hbound.ring.capacity, hbound.ring.order, hbound.ring.space, hbound.ring.bound,
        hbound.ring.sequence, hbound.ring.reading, hbound.ring.queued, hbound.ring.writing,
        hbound.ring.idle⟩,
      hbound.acks.storeAckRead hread, hbound.history.storeAckRead hread⟩

theorem Valid.apply (operation : Operation) : Valid (s.apply operation) := by
  cases operation with
  | tryBeginProduce token command => exact hs.tryBeginProduce token command
  | publish token => exact hs.publish token
  | abort => exact hs.abort
  | tryBeginConsume token => exact hs.tryBeginConsume token
  | complete token result =>
    unfold AudioCommandSession.apply
    cases hheld : s.consumerLease with
    | none => exact hs
    | some lease =>
      refine hs.settle hheld ?_
      unfold completeLease
      split
      · exact finishConsumerCancelled_cases ..
      · exact finishConsumer_cases ..
  | cancel token errorCode =>
    unfold AudioCommandSession.apply
    cases hheld : s.consumerLease with
    | none => exact hs
    | some lease => exact hs.settle hheld (finishConsumerCancelled_cases ..)
  | fail token errorCode =>
    unfold AudioCommandSession.apply
    cases hheld : s.consumerLease with
    | none => exact hs
    | some lease => exact hs.settle hheld (finishConsumerCancelled_cases ..)
  | abandon token =>
    unfold AudioCommandSession.apply
    cases hheld : s.consumerLease with
    | none => exact hs
    | some lease => exact (hs.settle hheld (abandonConsumer_cases ..)).dropConsumerLease
  | failTerminal token failure commandSequence => exact hs.quiet (quiet_failTerminal ..)
  | requestShutdown =>
    change Valid { s with queue := s.queue.requestShutdown }
    unfold requestShutdown
    split
    · exact hs.withLifecycle .draining
    · exact hs
  | tryReadAck token ackSlot commandSequence => exact hs.tryReadAck token ackSlot commandSequence

theorem Valid.run (operations : List Operation) : Valid (s.run operations) := by
  unfold AudioCommandSession.run
  induction operations generalizing s with
  | nil => exact hs
  | cons operation rest ih => exact ih (hs.apply operation)

omit hs

/-- The session of a new queue. -/
theorem create_valid {config : NativePortAudioCommandQueueConfig}
    (hcreate : NativePortAudioCommandQueue.create config = .ok queue) :
    Valid { queue := queue } := by
  have hfresh : queue.config.enabled = true → 0 < queue.config.maximumCommands := by
    unfold NativePortAudioCommandQueue.create at hcreate
    split at hcreate
    · rename_i hdisabled
      cases hcreate
      intro henabled
      rw [hdisabled] at henabled
      cases henabled
    · split at hcreate
      · cases hcreate
      · rename_i hconfig
        cases hcreate
        intro _
        dsimp only
        omega
  have hempty : ∃ config lifecycle, queue = { config := config, lifecycle := lifecycle } := by
    unfold NativePortAudioCommandQueue.create at hcreate
    split at hcreate
    · cases hcreate
      exact ⟨_, _, rfl⟩
    · split at hcreate
      · cases hcreate
      · cases hcreate
        exact ⟨_, _, rfl⟩
  obtain ⟨config, lifecycle, rfl⟩ := hempty
  have hnone : ∀ p, ¬ NativePortAudioCommandQueue.Live
      { config := config, lifecycle := lifecycle } p := fun p hp => Nat.not_lt_zero p hp.2
  have hring : Ring { config := config, lifecycle := lifecycle } := by
    constructor
    case capacity => exact hfresh
    case order => exact le_rfl
    case space => exact Nat.zero_le _
    case bound => exact Nat.two_pow_pos 64
    case sequence => rfl
    case reading => exact fun h => nomatch h
    case queued => exact fun p _ hlast => absurd hlast (Nat.not_lt_zero p)
    case writing => exact fun h => nomatch h
    case idle => exact fun _ _ _ => rfl
  refine ⟨hring, ⟨fun p hp => absurd hp (hnone p), fun p _ hp => absurd hp (hnone p)⟩, ?_⟩
  constructor
  case producerLease => exact fun _ h => nomatch h
  case consumerLease => exact fun _ h => nomatch h
  case submitted => rfl
  case settled => rfl
  case publishedLength => rfl
  case publishedSequence => exact fun _ _ h => nomatch h
  case queued => exact fun p _ hlast => absurd hlast (Nat.not_lt_zero p)
  case finalized => rfl
  case terminal => exact fun _ h => nomatch h
  case received => exact fun _ h => nomatch h
  case once => exact List.nodup_nil

/-! ## Accounting -/

/-- What a queue accounts for: the counters, the places of the ring, the acknowledgement slots
and the acknowledgements read back. -/
structure Accounted (s : AudioCommandSession) : Prop where
  order : s.queue.consumerPosition ≤ s.queue.producerPosition
  counters : s.queue.submittedCommands =
    s.queue.completedCommands + s.queue.cancelledCommands + s.queue.failedCommands +
      (s.queue.producerPosition - s.queue.consumerPosition)
  queued : ∀ p, s.queue.consumerPosition ≤ p → p < s.queue.producerPosition →
    (s.queue.slotAt p).command.commandSequence = p + 1 ∧
      s.published[p]? = some (s.queue.slotAt p).command
  others : ∀ index < s.queue.config.maximumCommands,
    (∀ p, s.queue.consumerPosition ≤ p → p < s.queue.producerPosition →
      p % s.queue.config.maximumCommands ≠ index) → (s.queue.commands index).state = .free ∨
      (s.queue.commands index).state = .writing ∧ s.queue.producerLeaseActive = true ∧
        index = s.queue.producerPosition % s.queue.config.maximumCommands
  pending : ∀ ackSlot, (s.queue.acks ackSlot).state = .pending → ackSlot ≠ invalidAckSlot →
    ∀ p r, s.queue.Live p → s.queue.Live r → (s.queue.slotAt p).command.ackSlot = ackSlot →
      (s.queue.slotAt r).command.ackSlot = ackSlot → p = r
  once : (s.received.map (·.commandSequence)).Nodup
  own : ∀ receipt ∈ s.received, receipt.ack.commandSequence = receipt.commandSequence ∧
    ∃ command ∈ s.published, command.commandSequence = receipt.commandSequence ∧
      command.ackSlot = receipt.ackSlot ∧ command.stamp = receipt.ack.stamp

theorem Valid.accounted (hs : Valid s) : Accounted s := by
  constructor
  case order => exact hs.ring.order
  case counters =>
    have horder := hs.ring.order
    rw [hs.history.submitted, hs.history.settled]
    omega
  case queued =>
    intro p hfirst hlast
    exact ⟨(hs.ring.queued p hfirst hlast).1, hs.history.queued p hfirst hlast⟩
  case others =>
    intro index hindex hnone
    by_cases hwriting : s.queue.producerLeaseActive = true ∧
        index = s.queue.producerPosition % s.queue.config.maximumCommands
    · refine Or.inr ⟨?_, hwriting⟩
      rw [hwriting.2]
      exact (hs.ring.writing hwriting.1).1
    · refine Or.inl (hs.ring.idle index hindex ?_)
      rintro p ⟨hfirst, hlast⟩
      rcases Nat.lt_or_ge p s.queue.producerPosition with hlt | hge
      · exact hnone p hfirst hlt
      · unfold liveEnd at hlast
        split at hlast
        · rename_i hlease
          intro heq
          refine hwriting ⟨hlease, ?_⟩
          rw [← heq, show p = s.queue.producerPosition by omega]
        · omega
  case pending =>
    intro ackSlot _ hslot p r hp hr hpslot hrslot
    exact hs.acks.distinct p r hp hr (hpslot.trans hrslot.symm) (hpslot ▸ hslot)
  case once => exact hs.history.once
  case own =>
    intro receipt hreceipt
    obtain ⟨hown, p, command, -, hget, hsequence, hslot, hstamp⟩ :=
      hs.history.received receipt hreceipt
    refine ⟨hown, command, List.mem_of_getElem? hget, ?_, hslot, hstamp.symm⟩
    rw [hs.history.publishedSequence p command hget, ← hsequence, hown]

/-- Whatever the two sides call and in whatever order, the queue accounts for every command. -/
theorem run_accounted {config : NativePortAudioCommandQueueConfig}
    {queue : NativePortAudioCommandQueue}
    (hcreate : NativePortAudioCommandQueue.create config = .ok queue)
    (operations : List Operation) : Accounted (run { queue := queue } operations) :=
  ((create_valid hcreate).run operations).accounted

/-- A queue of one command, sixteen payload bytes and one acknowledgement. -/
def smallQueue : NativePortAudioCommandQueue :=
  { config := { maximumCommands := 1, maximumPayloadBytes := 16, maximumAckSlots := 1 }
    lifecycle := .running }

/-- One command from its lease to its acknowledgement. -/
def oneCommand : List Operation :=
  [.tryBeginProduce 1 { payloadSize := 4, ackSlot := 0 }, .publish 1, .tryBeginConsume 2,
    .complete 2 {}, .tryReadAck 1 0 1]

theorem run_accounted_oneCommand : Accounted (run { queue := smallQueue } oneCommand) ∧
      (run { queue := smallQueue } oneCommand).received.length = 1 :=
  ⟨@run_accounted smallQueue.config smallQueue rfl oneCommand, rfl⟩

end AudioCommandSession
end KatanaRecomp.Runtime
