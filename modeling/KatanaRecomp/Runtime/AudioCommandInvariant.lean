import KatanaRecomp.Runtime.AudioCommandSession

/-! # The invariants of the audio command queue

Three invariants hold in every session. The ring: the places from the consumer to
the producer position hold the commands not yet settled, one more may be written,
all others are free. The acknowledgements: a live command has its slot to itself.
The history: what the two sides were told agrees with the positions and the
counters. -/
namespace KatanaRecomp.Runtime
namespace NativePortAudioCommandQueue
variable (q : NativePortAudioCommandQueue)

/-- The slot of a position. -/
def slotAt (position : Nat) : CommandSlot := q.commands (position % q.config.maximumCommands)

/-- The position behind the last live command: the one being written counts. -/
def liveEnd : Nat := q.producerPosition + if q.producerLeaseActive then 1 else 0

/-- The command of the position is written, ready, cancelled or read. -/
def Live (position : Nat) : Prop := q.consumerPosition ≤ position ∧ position < q.liveEnd

/-- The state of a queued command: being read at the consumer position under a lease. -/
def QueuedState (position : Nat) : Prop :=
  if q.consumerLeaseActive = true ∧ position = q.consumerPosition then
    (q.slotAt position).state = .reading
  else (q.slotAt position).state = .ready ∨ (q.slotAt position).state = .cancelled

/-! ## The statements -/

structure Ring : Prop where
  capacity : q.config.enabled = true → 0 < q.config.maximumCommands
  order : q.consumerPosition ≤ q.producerPosition
  space : q.liveEnd ≤ q.consumerPosition + q.config.maximumCommands
  bound : q.producerPosition < 2 ^ 64
  sequence : q.nextCommandSequence = (q.producerPosition + 1) % 2 ^ 64
  reading : q.consumerLeaseActive = true → q.consumerPosition < q.producerPosition
  queued : ∀ p, q.consumerPosition ≤ p → p < q.producerPosition →
    (q.slotAt p).command.commandSequence = p + 1 ∧ q.QueuedState p
  writing : q.producerLeaseActive = true → (q.slotAt q.producerPosition).state = .writing ∧
      (q.slotAt q.producerPosition).command.commandSequence = 0
  idle : ∀ index, index < q.config.maximumCommands →
    (∀ p, q.Live p → p % q.config.maximumCommands ≠ index) → (q.commands index).state = .free

structure Acks : Prop where
  pending : ∀ p, q.Live p → (q.slotAt p).command.ackSlot ≠ invalidAckSlot →
    (q.acks (q.slotAt p).command.ackSlot).state = .pending
  distinct : ∀ p r, q.Live p → q.Live r →
    (q.slotAt p).command.ackSlot = (q.slotAt r).command.ackSlot →
    (q.slotAt p).command.ackSlot ≠ invalidAckSlot → p = r

variable {q}

/-! ## The slots under a change -/

variable {slot : CommandSlot}

theorem slotAt_update_ne {commands : Nat → CommandSlot}
    {size base position target : Nat} (hposition : base ≤ position)
    (hposition' : position < base + size) (htarget : base ≤ target)
    (htarget' : target < base + size) (hne : position ≠ target) :
    Function.update commands (target % size) slot (position % size) = commands (position % size) :=
  Function.update_of_ne
    (fun heq => hne (Nat.ModEq.eq_of_abs_lt heq (abs_lt.mpr ⟨by omega, by omega⟩))) _ _

variable {slot' : CommandSlot}

theorem CommandSlot.Kept.command (h : CommandSlot.Kept slot slot') :
    slot'.command = slot.command := by
  rcases h with rfl | ⟨-, rfl⟩
  · rfl
  · rfl

theorem CommandSlot.Kept.state_eq (h : CommandSlot.Kept slot slot')
    (hready : slot.state ≠ .ready) : slot'.state = slot.state := by
  rcases h with rfl | ⟨hstate, -⟩
  · rfl
  · exact absurd hstate hready

variable {q' : NativePortAudioCommandQueue}

theorem Quiet.slotAt (h : Quiet q q') (position : Nat) :
    CommandSlot.Kept (q.slotAt position) (q'.slotAt position) := by
  unfold NativePortAudioCommandQueue.slotAt
  rw [h.config]
  exact h.slots _

theorem Quiet.liveEnd (h : Quiet q q') : q'.liveEnd = q.liveEnd := by
  unfold NativePortAudioCommandQueue.liveEnd
  rw [h.producerPosition, h.producerLeaseActive]

theorem Quiet.live (h : Quiet q q') (position : Nat) : q'.Live position ↔ q.Live position := by
  unfold Live
  rw [h.consumerPosition, h.liveEnd]

/-! ## Quiet changes -/

theorem Ring.quiet (hq : Ring q) (h : Quiet q q') : Ring q' where
  capacity := by
    rw [h.config]
    exact hq.capacity
  order := by
    rw [h.consumerPosition, h.producerPosition]
    exact hq.order
  space := by
    rw [h.liveEnd, h.consumerPosition, h.config]
    exact hq.space
  bound := by
    rw [h.producerPosition]
    exact hq.bound
  sequence := by
    rw [h.nextCommandSequence, h.producerPosition]
    exact hq.sequence
  reading := by
    rw [h.consumerLeaseActive, h.consumerPosition, h.producerPosition]
    exact hq.reading
  queued := by
    rw [h.consumerPosition, h.producerPosition]
    intro p hfirst hlast
    obtain ⟨hsequence, hstate⟩ := hq.queued p hfirst hlast
    refine ⟨(h.slotAt p).command ▸ hsequence, ?_⟩
    unfold QueuedState at hstate ⊢
    rw [h.consumerLeaseActive, h.consumerPosition]
    split
    · rename_i hlease
      rw [if_pos hlease] at hstate
      rw [(h.slotAt p).state_eq (by rw [hstate]; exact SlotState.noConfusion)]
      exact hstate
    · rename_i hlease
      rw [if_neg hlease] at hstate
      rcases h.slotAt p with hsame | ⟨-, hcancelled⟩
      · rwa [hsame]
      · rw [hcancelled]
        exact Or.inr rfl
  writing := by
    rw [h.producerLeaseActive, h.producerPosition]
    intro hlease
    obtain ⟨hstate, hsequence⟩ := hq.writing hlease
    refine ⟨?_, (h.slotAt _).command ▸ hsequence⟩
    rw [(h.slotAt _).state_eq (by rw [hstate]; exact SlotState.noConfusion)]
    exact hstate
  idle := by
    rw [h.config]
    intro index hindex hlive
    have hfree := hq.idle index hindex (fun p hp => hlive p ((h.live p).mpr hp))
    rw [(h.slots index).state_eq (by rw [hfree]; exact SlotState.noConfusion)]
    exact hfree

/-- The acknowledgements of a smaller set of live commands. -/
theorem Acks.transfer (hq : Acks q) (hlive : ∀ p, q'.Live p → q.Live p)
    (hslots : ∀ p, q'.Live p → (q'.slotAt p).command.ackSlot = (q.slotAt p).command.ackSlot)
    (hacks : ∀ p, q'.Live p → (q.slotAt p).command.ackSlot ≠ invalidAckSlot →
      (q'.acks (q.slotAt p).command.ackSlot).state =
        (q.acks (q.slotAt p).command.ackSlot).state) : Acks q' where
  pending := by
    intro p hp hslot
    rw [hslots p hp] at hslot ⊢
    rw [hacks p hp hslot]
    exact hq.pending p (hlive p hp) hslot
  distinct := by
    intro p r hp hr heq hslot
    rw [hslots p hp] at heq hslot
    rw [hslots r hr] at heq
    exact hq.distinct p r (hlive p hp) (hlive r hr) heq hslot

theorem Acks.quiet (hq : Acks q) (h : Quiet q q') : Acks q' :=
  hq.transfer (fun p => (h.live p).mp) (fun p _ => congrArg (·.ackSlot) (h.slotAt p).command)
    (fun _ _ _ => by rw [h.acks])

/-! ## A new command -/

/-- The fields that `rebased` moves are the payload positions. -/
theorem rebased_eq (q : NativePortAudioCommandQueue) (payloadSize : Nat) :
    ∃ producer consumer, q.rebased payloadSize =
        { q with producerPayloadPosition := producer, consumerPayloadPosition := consumer } := by
  unfold rebased
  dsimp only
  split
  · exact ⟨_, _, rfl⟩
  · exact ⟨_, _, rfl⟩

theorem Ring.rebased {q : NativePortAudioCommandQueue} (hq : Ring q) (payloadSize : Nat) :
    Ring (q.rebased payloadSize) := by
  obtain ⟨producer, consumer, heq⟩ := rebased_eq q payloadSize
  rw [heq]
  exact ⟨hq.capacity, hq.order, hq.space, hq.bound, hq.sequence, hq.reading, hq.queued,
    hq.writing, hq.idle⟩

theorem Acks.rebased {q : NativePortAudioCommandQueue} (hq : Acks q) (payloadSize : Nat) :
    Acks (q.rebased payloadSize) := by
  obtain ⟨producer, consumer, heq⟩ := rebased_eq q payloadSize
  rw [heq]
  exact ⟨hq.pending, hq.distinct⟩

/-- A free slot at the producer position leaves room for a command. -/
theorem Ring.room (hq : Ring q) (henabled : q.config.enabled = true)
    (hfree : (q.slotAt q.producerPosition).state = .free) :
    q.producerPosition < q.consumerPosition + q.config.maximumCommands := by
  have hpos := hq.capacity henabled
  have hle : q.producerPosition ≤ q.liveEnd := Nat.le_add_right _ _
  have hspace := hq.space
  by_contra hfull
  -- a full ring has its oldest command where the next one would go
  have heq : q.producerPosition = q.consumerPosition + q.config.maximumCommands := by omega
  obtain ⟨-, hstate⟩ := hq.queued q.consumerPosition le_rfl (by omega)
  have hsame : q.slotAt q.producerPosition = q.slotAt q.consumerPosition := by
    unfold slotAt
    rw [heq, Nat.add_mod_right]
  rw [hsame] at hfree
  unfold QueuedState at hstate
  split at hstate
  · rw [hfree] at hstate
    cases hstate
  · rcases hstate with hstate | hstate
    · rw [hfree] at hstate
      cases hstate
    · rw [hfree] at hstate
      cases hstate

section
variable {q : NativePortAudioCommandQueue} {command : NativePortAudioPodCommand} {padding : Nat}

theorem writeCommand_slotAt_producer : (q.writeCommand command padding).slotAt q.producerPosition =
      { command :=
          { command with
            commandSequence := 0
            payloadOffset :=
              if command.payloadSize = 0 then 0
              else (q.producerPayloadPosition + padding) % 2 ^ 64 % q.config.maximumPayloadBytes }
        payloadBegin := (q.producerPayloadPosition + padding) % 2 ^ 64
        payloadReservedSize := padding + command.payloadSize
        state := .writing } := Function.update_self ..

theorem writeCommand_slotAt
    (hroom : q.producerPosition < q.consumerPosition + q.config.maximumCommands) {p : Nat}
    (hfirst : q.consumerPosition ≤ p) (hlast : p < q.producerPosition) :
    (q.writeCommand command padding).slotAt p = q.slotAt p := by
  change Function.update q.commands (q.producerPosition % q.config.maximumCommands) _
    (p % q.config.maximumCommands) = _
  exact slotAt_update_ne hfirst (by omega) (by omega) hroom (by omega)

theorem liveEnd_of_lease (hlease : q.producerLeaseActive = true) :
    q.liveEnd = q.producerPosition + 1 := by
  unfold liveEnd
  rw [hlease]
  rfl

theorem liveEnd_of_no_lease (hlease : q.producerLeaseActive = false) :
    q.liveEnd = q.producerPosition := by
  unfold liveEnd
  rw [hlease]
  rfl

theorem writeCommand_liveEnd : (q.writeCommand command padding).liveEnd = q.producerPosition + 1 :=
  liveEnd_of_lease rfl

/-- The state of a queued command depends on its slot and the consumer side. -/
theorem QueuedState.transfer {q : NativePortAudioCommandQueue} {p : Nat}
    (h : q.QueuedState p) (hlease : q'.consumerLeaseActive = q.consumerLeaseActive)
    (hposition : q'.consumerPosition = q.consumerPosition) (hslot : q'.slotAt p = q.slotAt p) :
    q'.QueuedState p := by
  unfold QueuedState at h ⊢
  rwa [hlease, hposition, hslot]

theorem Ring.writeCommand (hq : Ring q) (hlease : q.producerLeaseActive = false)
    (hroom : q.producerPosition < q.consumerPosition + q.config.maximumCommands) :
    Ring (q.writeCommand command padding) where
  capacity := hq.capacity
  order := hq.order
  space := by
    rw [writeCommand_liveEnd]
    exact hroom
  bound := hq.bound
  sequence := hq.sequence
  reading := hq.reading
  queued := by
    intro p hfirst hlast
    obtain ⟨hsequence, hstate⟩ := hq.queued p hfirst hlast
    have hslot : (q.writeCommand command padding).slotAt p = q.slotAt p :=
      writeCommand_slotAt hroom hfirst hlast
    exact ⟨hslot ▸ hsequence, hstate.transfer rfl rfl hslot⟩
  writing := by
    intro _
    change ((q.writeCommand command padding).slotAt q.producerPosition).state = _ ∧
      ((q.writeCommand command padding).slotAt q.producerPosition).command.commandSequence = _
    rw [writeCommand_slotAt_producer]
    exact ⟨rfl, rfl⟩
  idle := by
    intro index hindex hlive
    have hother : index ≠ q.producerPosition % q.config.maximumCommands :=
      (hlive q.producerPosition ⟨hq.order, by rw [writeCommand_liveEnd]; omega⟩).symm
    change (Function.update q.commands _ _ index).state = _
    rw [Function.update_of_ne hother]
    refine hq.idle index hindex ?_
    intro p hp
    refine hlive p ⟨hp.1, ?_⟩
    have hlt := hp.2
    rw [liveEnd_of_no_lease hlease] at hlt
    rw [writeCommand_liveEnd]
    omega

theorem Acks.writeCommand (hacks : Acks q) (hlease : q.producerLeaseActive = false)
    (hroom : q.producerPosition < q.consumerPosition + q.config.maximumCommands)
    (hfree : command.ackSlot ≠ invalidAckSlot → (q.acks command.ackSlot).state = .free) :
    Acks (q.writeCommand command padding) := by
  have hcases : ∀ p, (q.writeCommand command padding).Live p →
      q.Live p ∧ (q.writeCommand command padding).slotAt p = q.slotAt p ∨ p = q.producerPosition ∧
          ((q.writeCommand command padding).slotAt p).command.ackSlot = command.ackSlot := by
    intro p hp
    obtain ⟨hfirst, hlast⟩ := hp
    rw [writeCommand_liveEnd] at hlast
    rcases Nat.lt_or_ge p q.producerPosition with hlt | hge
    · exact Or.inl ⟨⟨hfirst, by rw [liveEnd_of_no_lease hlease]; exact hlt⟩,
        writeCommand_slotAt hroom hfirst hlt⟩
    · have heq : p = q.producerPosition := by omega
      refine Or.inr ⟨heq, ?_⟩
      rw [heq, writeCommand_slotAt_producer]
  -- no live command has the slot of the new one
  have hnew : ∀ p, q.Live p → (q.slotAt p).command.ackSlot ≠ invalidAckSlot →
      (q.slotAt p).command.ackSlot ≠ command.ackSlot := by
    intro p hp hslot heq
    have hpending := hacks.pending p hp hslot
    rw [heq] at hslot hpending
    rw [hfree hslot] at hpending
    cases hpending
  refine ⟨?_, ?_⟩
  · intro p hp hslot
    change ((if command.ackSlot ≠ invalidAckSlot then Function.update q.acks command.ackSlot _
      else q.acks) _).state = _
    rcases hcases p hp with ⟨hlive, heq⟩ | ⟨-, heq⟩
    · rw [heq] at hslot ⊢
      split
      · rw [Function.update_of_ne (hnew p hlive hslot)]
        exact hacks.pending p hlive hslot
      · exact hacks.pending p hlive hslot
    · rw [heq] at hslot ⊢
      rw [if_pos hslot, Function.update_self]
  · intro p r hp hr heq hslot
    rcases hcases p hp with ⟨hlive, hsame⟩ | ⟨hlast, hsame⟩
    · rcases hcases r hr with ⟨hlive', hsame'⟩ | ⟨-, hsame'⟩
      · rw [hsame] at heq hslot
        rw [hsame'] at heq
        exact hacks.distinct p r hlive hlive' heq hslot
      · rw [hsame] at heq hslot
        rw [hsame'] at heq
        exact absurd heq (hnew p hlive hslot)
    · rcases hcases r hr with ⟨hlive', hsame'⟩ | ⟨hlast', -⟩
      · rw [hsame] at heq hslot
        rw [hsame'] at heq
        exact absurd heq.symm (hnew r hlive' (heq ▸ hslot))
      · rw [hlast, hlast']

end

/-! ## The reservation -/

/-! ## The end of a producer lease -/

section
variable {q : NativePortAudioCommandQueue}

/-- The slot that a held lease writes. -/
def producerIndex (q : NativePortAudioCommandQueue) : Nat :=
  q.producerPosition % q.config.maximumCommands

theorem Ring.lease_room (hq : Ring q) (hlease : q.producerLeaseActive = true) :
    q.producerPosition < q.consumerPosition + q.config.maximumCommands := by
  have hspace := hq.space
  rw [liveEnd_of_lease hlease] at hspace
  omega

theorem storePublished_slotAt_producer :
    (q.storePublished q.producerIndex).slotAt q.producerPosition =
      { q.slotAt q.producerPosition with
        command :=
          { (q.slotAt q.producerPosition).command with
            commandSequence := q.nextCommandSequence }
        state := .ready } := Function.update_self ..

/-- The slot of an open lease is none of the queued ones. -/
theorem slotAt_update_producer (hq : Ring q) (hlease : q.producerLeaseActive = true) {p : Nat}
    (hfirst : q.consumerPosition ≤ p) (hlast : p < q.producerPosition) :
    Function.update q.commands (q.producerPosition % q.config.maximumCommands) slot
      (p % q.config.maximumCommands) = q.slotAt p := by
  have hroom := hq.lease_room hlease
  exact slotAt_update_ne hfirst (by omega) (by omega) hroom (by omega)

theorem storePublished_slotAt (hq : Ring q) (hlease : q.producerLeaseActive = true) {p : Nat}
    (hfirst : q.consumerPosition ≤ p) (hlast : p < q.producerPosition) :
    (q.storePublished q.producerIndex).slotAt p = q.slotAt p :=
  slotAt_update_producer hq hlease hfirst hlast

theorem storePublished_liveEnd (hlease : q.producerLeaseActive = true) :
    (q.storePublished q.producerIndex).liveEnd = q.liveEnd := by
  rw [liveEnd_of_lease hlease, liveEnd_of_no_lease rfl]
  rfl

theorem Ring.published_sequence (hq : Ring q) (hnext : q.nextCommandSequence ≠ 0) :
    q.producerPosition + 1 < 2 ^ 64 ∧ q.nextCommandSequence = q.producerPosition + 1 := by
  have hbound := hq.bound
  have hsequence := hq.sequence
  rcases Nat.lt_or_ge (q.producerPosition + 1) (2 ^ 64) with hlt | hge
  · exact ⟨hlt, by rw [hsequence, Nat.mod_eq_of_lt hlt]⟩
  · have heq : q.producerPosition + 1 = 2 ^ 64 := by omega
    rw [heq, Nat.mod_self] at hsequence
    exact absurd hsequence hnext

theorem Ring.storePublished (hq : Ring q) (hlease : q.producerLeaseActive = true)
    (hnext : q.nextCommandSequence ≠ 0) : Ring (q.storePublished q.producerIndex) := by
  obtain ⟨hbound, hsequence⟩ := hq.published_sequence hnext
  have hlive := storePublished_liveEnd hlease
  constructor
  case capacity => exact hq.capacity
  case order => exact hq.order.trans (Nat.le_succ _)
  case space =>
    rw [hlive]
    exact hq.space
  case bound => exact hbound
  case sequence =>
    change (if q.nextCommandSequence = uint64Max then 0 else q.nextCommandSequence + 1) =
      (q.producerPosition + 1 + 1) % 2 ^ 64
    rw [hsequence]
    unfold uint64Max
    split
    · rename_i hlast
      rw [hlast]
      rfl
    · rw [Nat.mod_eq_of_lt (by omega)]
  case reading =>
    intro hreading
    exact (hq.reading hreading).trans (Nat.lt_succ_self _)
  case queued =>
    intro p hfirst hlast
    change q.consumerPosition ≤ p at hfirst
    change p < q.producerPosition + 1 at hlast
    rcases Nat.lt_or_ge p q.producerPosition with hlt | hge
    · obtain ⟨hseq, hstate⟩ := hq.queued p hfirst hlt
      have hslot := storePublished_slotAt hq hlease hfirst hlt
      exact ⟨hslot ▸ hseq, hstate.transfer rfl rfl hslot⟩
    · have heq : p = q.producerPosition := by omega
      rw [heq]
      refine ⟨?_, ?_⟩
      · rw [storePublished_slotAt_producer]
        exact hsequence
      · unfold QueuedState
        rw [storePublished_slotAt_producer, if_neg]
        · exact Or.inl rfl
        · rintro ⟨hreading, hposition⟩
          exact absurd hposition (hq.reading hreading).ne'
  case writing => exact fun h => absurd h Bool.false_ne_true
  case idle =>
    intro index hindex hnone
    have hlt : q.producerPosition < q.liveEnd := by
      rw [liveEnd_of_lease hlease]
      exact Nat.lt_succ_self _
    have hold : ∀ p, q.Live p → p % q.config.maximumCommands ≠ index := by
      intro p hp
      refine hnone p ?_
      unfold Live
      rw [hlive]
      exact hp
    have hother : index ≠ q.producerPosition % q.config.maximumCommands :=
      (hold q.producerPosition ⟨hq.order, hlt⟩).symm
    change (Function.update q.commands _ _ index).state = _
    unfold producerIndex
    rw [Function.update_of_ne hother]
    exact hq.idle index hindex hold

theorem storePublished_ackSlot (hq : Ring q) (hlease : q.producerLeaseActive = true) {p : Nat}
    (hp : q.Live p) : ((q.storePublished q.producerIndex).slotAt p).command.ackSlot =
      (q.slotAt p).command.ackSlot := by
  obtain ⟨hfirst, hlast⟩ := hp
  rw [liveEnd_of_lease hlease] at hlast
  rcases Nat.lt_or_ge p q.producerPosition with hlt | hge
  · rw [storePublished_slotAt hq hlease hfirst hlt]
  · have heq : p = q.producerPosition := by omega
    rw [heq, storePublished_slotAt_producer]

/-- Publishing writes the sequence into the acknowledgement and leaves its state. -/
theorem storePublished_ack_state (index ackSlot : Nat) :
    ((q.storePublished index).acks ackSlot).state = (q.acks ackSlot).state := by
  change ((if (q.commands index).command.ackSlot ≠ invalidAckSlot then
    Function.update q.acks (q.commands index).command.ackSlot _ else q.acks) ackSlot).state = _
  split
  · by_cases heq : ackSlot = (q.commands index).command.ackSlot
    · rw [heq, Function.update_self]
    · rw [Function.update_of_ne heq]
  · rfl

theorem Acks.storePublished (hacks : Acks q) (hq : Ring q) (hlease : q.producerLeaseActive = true) :
    Acks (q.storePublished q.producerIndex) := by
  have hlive : ∀ p, (q.storePublished q.producerIndex).Live p → q.Live p := by
    intro p hp
    unfold Live at hp
    rwa [storePublished_liveEnd hlease] at hp
  refine hacks.transfer hlive ?_ ?_
  · intro p hp
    exact storePublished_ackSlot hq hlease (hlive p hp)
  · intro p _ _
    exact storePublished_ack_state _ _

theorem storeAborted_slotAt (hq : Ring q) (hlease : q.producerLeaseActive = true) {p : Nat}
    (hfirst : q.consumerPosition ≤ p) (hlast : p < q.producerPosition) :
    (q.storeAborted q.producerIndex).slotAt p = q.slotAt p :=
  slotAt_update_producer hq hlease hfirst hlast

theorem storeAborted_liveEnd : (q.storeAborted q.producerIndex).liveEnd = q.producerPosition :=
  liveEnd_of_no_lease rfl

theorem Ring.storeAborted (hq : Ring q) (hlease : q.producerLeaseActive = true) :
    Ring (q.storeAborted q.producerIndex) := by
  constructor
  case capacity => exact hq.capacity
  case order => exact hq.order
  case space =>
    rw [storeAborted_liveEnd]
    exact (hq.lease_room hlease).le
  case bound => exact hq.bound
  case sequence => exact hq.sequence
  case reading => exact hq.reading
  case queued =>
    intro p hfirst hlast
    obtain ⟨hseq, hstate⟩ := hq.queued p hfirst hlast
    have hslot := storeAborted_slotAt hq hlease hfirst hlast
    exact ⟨hslot ▸ hseq, hstate.transfer rfl rfl hslot⟩
  case writing => exact fun h => absurd h Bool.false_ne_true
  case idle =>
    intro index hindex hnone
    change (Function.update q.commands q.producerIndex _ index).state = _
    by_cases heq : index = q.producerIndex
    · rw [heq, Function.update_self]
    · rw [Function.update_of_ne heq]
      refine hq.idle index hindex ?_
      intro p hp
      obtain ⟨hfirst, hlast⟩ := hp
      rw [liveEnd_of_lease hlease] at hlast
      rcases Nat.lt_or_ge p q.producerPosition with hlt | hge
      · exact hnone p ⟨hfirst, by rw [storeAborted_liveEnd]; exact hlt⟩
      · rw [show p = q.producerPosition by omega]
        exact fun h => heq h.symm

theorem Acks.storeAborted (hacks : Acks q) (hq : Ring q) (hlease : q.producerLeaseActive = true) :
    Acks (q.storeAborted q.producerIndex) := by
  have hlive : ∀ p, (q.storeAborted q.producerIndex).Live p →
      q.Live p ∧ p < q.producerPosition := by
    rintro p ⟨hfirst, hlast⟩
    rw [storeAborted_liveEnd] at hlast
    exact ⟨⟨hfirst, by rw [liveEnd_of_lease hlease]; omega⟩, hlast⟩
  have hwritten : q.Live q.producerPosition :=
    ⟨hq.order, by rw [liveEnd_of_lease hlease]; exact Nat.lt_succ_self _⟩
  refine hacks.transfer (fun p hp => (hlive p hp).1) ?_ ?_
  · intro p hp
    rw [storeAborted_slotAt hq hlease hp.1 (hlive p hp).2]
  · intro p hp hslot
    obtain ⟨hp, hlt⟩ := hlive p hp
    change ((if (q.slotAt q.producerPosition).command.ackSlot ≠ invalidAckSlot then
      Function.update q.acks (q.slotAt q.producerPosition).command.ackSlot _
      else q.acks) _).state = _
    split
    · rw [Function.update_of_ne]
      intro heq
      exact absurd (hacks.distinct p q.producerPosition hp hwritten heq hslot) (by omega)
    · rfl

end

/-! ## The consumer -/

section
variable {q : NativePortAudioCommandQueue}

def consumerIndex (q : NativePortAudioCommandQueue) : Nat :=
  q.consumerPosition % q.config.maximumCommands

/-- A command that can be read is a queued one. -/
theorem Ring.queued_of_readable (hq : Ring q) (henabled : q.config.enabled = true)
    (hstate : (q.slotAt q.consumerPosition).state = .ready ∨
      (q.slotAt q.consumerPosition).state = .cancelled) :
    q.consumerPosition < q.producerPosition := by
  by_contra hempty
  have heq : q.consumerPosition = q.producerPosition := le_antisymm hq.order (not_lt.mp hempty)
  cases hlease : q.producerLeaseActive with
  | true =>
    have hwriting := (hq.writing hlease).1
    rw [← heq] at hwriting
    rw [hwriting] at hstate
    rcases hstate with hstate | hstate
    · cases hstate
    · cases hstate
  | false =>
    have hfree : (q.slotAt q.consumerPosition).state = .free := by
      refine hq.idle _ (Nat.mod_lt _ (hq.capacity henabled)) ?_
      rintro p ⟨hfirst, hlast⟩
      rw [liveEnd_of_no_lease hlease] at hlast
      omega
    rw [hfree] at hstate
    rcases hstate with hstate | hstate
    · cases hstate
    · cases hstate

/-- Reading changes the state of the slot alone. -/
theorem storeReading_commands (index : Nat) :
    (q.storeReading q.consumerIndex).commands index = q.commands index ∨
      index = q.consumerIndex ∧ (q.storeReading q.consumerIndex).commands index =
        { q.commands index with state := .reading } := by
  by_cases heq : index = q.consumerIndex
  · refine Or.inr ⟨heq, ?_⟩
    rw [heq]
    exact Function.update_self ..
  · exact Or.inl (Function.update_of_ne heq _ _)

theorem storeReading_ackSlot (p : Nat) :
    ((q.storeReading q.consumerIndex).slotAt p).command.ackSlot =
      (q.slotAt p).command.ackSlot := by
  unfold slotAt
  change ((q.storeReading q.consumerIndex).commands (p % q.config.maximumCommands)).command.ackSlot
    = _
  rcases storeReading_commands (q := q) (p % q.config.maximumCommands) with heq | ⟨-, heq⟩
  · rw [heq]
  · rw [heq]

theorem storeReading_slotAt_consumer : (q.storeReading q.consumerIndex).slotAt q.consumerPosition =
      { q.slotAt q.consumerPosition with state := .reading } := Function.update_self ..

theorem storeReading_slotAt (hq : Ring q) {p : Nat} (hfirst : q.consumerPosition < p)
    (hlast : p < q.liveEnd) : (q.storeReading q.consumerIndex).slotAt p = q.slotAt p := by
  have hspace := hq.space
  change Function.update q.commands (q.consumerPosition % q.config.maximumCommands) _
    (p % q.config.maximumCommands) = _
  exact slotAt_update_ne hfirst.le (by omega) le_rfl (by omega) (by omega)

theorem Ring.storeReading (hq : Ring q) (hlease : q.consumerLeaseActive = false)
    (hwork : q.consumerPosition < q.producerPosition) : Ring (q.storeReading q.consumerIndex) := by
  have hend : q.producerPosition ≤ q.liveEnd := Nat.le_add_right _ _
  constructor
  case capacity => exact hq.capacity
  case order => exact hq.order
  case space => exact hq.space
  case bound => exact hq.bound
  case sequence => exact hq.sequence
  case reading => exact fun _ => hwork
  case queued =>
    intro p hfirst hlast
    change q.consumerPosition ≤ p at hfirst
    change p < q.producerPosition at hlast
    obtain ⟨hseq, hstate⟩ := hq.queued p hfirst hlast
    unfold QueuedState at hstate ⊢
    rw [hlease, if_neg (by rintro ⟨h, -⟩; cases h)] at hstate
    rcases Nat.eq_or_lt_of_le hfirst with heq | hlt
    · rw [← heq] at hseq ⊢
      rw [storeReading_slotAt_consumer, if_pos ⟨rfl, rfl⟩]
      exact ⟨hseq, rfl⟩
    · rw [storeReading_slotAt hq hlt (by omega), if_neg]
      · exact ⟨hseq, hstate⟩
      · rintro ⟨-, h⟩
        change p = q.consumerPosition at h
        omega
  case writing =>
    intro hwriting
    change q.producerLeaseActive = true at hwriting
    change ((q.storeReading q.consumerIndex).slotAt q.producerPosition).state = _ ∧
      ((q.storeReading q.consumerIndex).slotAt q.producerPosition).command.commandSequence = _
    rw [storeReading_slotAt hq hwork (by rw [liveEnd_of_lease hwriting]; exact Nat.lt_succ_self _)]
    exact hq.writing hwriting
  case idle =>
    intro index hindex hnone
    have hfree := hq.idle index hindex hnone
    rcases storeReading_commands (q := q) index with heq | ⟨hconsumer, -⟩
    · rwa [heq]
    · exact absurd hconsumer.symm (hnone q.consumerPosition ⟨le_rfl, lt_of_lt_of_le hwork hend⟩)

theorem Acks.storeReading (hacks : Acks q) : Acks (q.storeReading q.consumerIndex) :=
  hacks.transfer (fun _ hp => hp) (fun p _ => storeReading_ackSlot p)
    (fun _ _ _ => rfl)

/-! ## The end of a consumer lease -/

variable {commandSequence : Nat} {result : NativePortAudioCommandAckResult}

/-- What the end of a lease leaves of the producer side, whatever the status. -/
theorem storeFinalized_frame (q : NativePortAudioCommandQueue) (index commandSequence : Nat)
    (result : NativePortAudioCommandAckResult) :
    (q.storeFinalized index commandSequence result).config = q.config ∧
      (q.storeFinalized index commandSequence result).producerPosition = q.producerPosition ∧
      (q.storeFinalized index commandSequence result).nextCommandSequence = q.nextCommandSequence ∧
      (q.storeFinalized index commandSequence result).producerLeaseActive = q.producerLeaseActive ∧
      (q.storeFinalized index commandSequence result).submittedCommands = q.submittedCommands ∧
      (q.storeFinalized index commandSequence result).lifecycle = q.lifecycle := by
  unfold storeFinalized countFinal
  cases result.status with
  | pending => exact ⟨rfl, rfl, rfl, rfl, rfl, rfl⟩
  | completed => exact ⟨rfl, rfl, rfl, rfl, rfl, rfl⟩
  | cancelled => exact ⟨rfl, rfl, rfl, rfl, rfl, rfl⟩
  | failed => exact ⟨rfl, rfl, rfl, rfl, rfl, rfl⟩

theorem storeFinalized_counters (q : NativePortAudioCommandQueue) (index commandSequence : Nat)
    (result : NativePortAudioCommandAckResult) :
    (q.storeFinalized index commandSequence result).completedCommands +
        (q.storeFinalized index commandSequence result).cancelledCommands +
        (q.storeFinalized index commandSequence result).failedCommands =
      q.completedCommands + q.cancelledCommands + q.failedCommands + 1 := by
  unfold storeFinalized countFinal
  cases result.status with
  | pending => dsimp only; omega
  | completed => dsimp only; omega
  | cancelled => dsimp only; omega
  | failed => dsimp only; omega

theorem storeFinalized_liveEnd (index : Nat) :
    (q.storeFinalized index commandSequence result).liveEnd = q.liveEnd := by
  obtain ⟨-, hposition, -, hlease, -⟩ := storeFinalized_frame q index commandSequence result
  unfold liveEnd
  rw [hposition, hlease]

theorem storeFinalized_slotAt (hq : Ring q) {p : Nat} (hfirst : q.consumerPosition < p)
    (hlast : p < q.liveEnd) :
    (q.storeFinalized q.consumerIndex commandSequence result).slotAt p = q.slotAt p := by
  have hspace := hq.space
  have hconfig := (storeFinalized_frame q q.consumerIndex commandSequence result).1
  unfold slotAt
  rw [hconfig]
  change Function.update q.commands (q.consumerPosition % q.config.maximumCommands) _
    (p % q.config.maximumCommands) = _
  exact slotAt_update_ne hfirst.le (by omega) le_rfl (by omega) (by omega)

theorem Ring.storeFinalized (hq : Ring q) (hlease : q.consumerLeaseActive = true) :
    Ring (q.storeFinalized q.consumerIndex commandSequence result) := by
  obtain ⟨hconfig, hposition, hnext, hproducer, -⟩ :=
    storeFinalized_frame q q.consumerIndex commandSequence result
  have hlive : (q.storeFinalized q.consumerIndex commandSequence result).liveEnd = q.liveEnd :=
    storeFinalized_liveEnd _
  have hwork := hq.reading hlease
  have hend : q.producerPosition ≤ q.liveEnd := Nat.le_add_right _ _
  have hspace := hq.space
  constructor
  case capacity =>
    rw [hconfig]
    exact hq.capacity
  case order =>
    rw [hposition]
    exact hwork
  case space =>
    rw [hlive, hconfig]
    change _ ≤ q.consumerPosition + 1 + _
    omega
  case bound =>
    rw [hposition]
    exact hq.bound
  case sequence =>
    rw [hnext, hposition]
    exact hq.sequence
  case reading => exact fun h => absurd h Bool.false_ne_true
  case queued =>
    rw [hposition]
    intro p hfirst hlast
    change q.consumerPosition + 1 ≤ p at hfirst
    obtain ⟨hseq, hstate⟩ := hq.queued p (by omega) hlast
    unfold QueuedState at hstate ⊢
    rw [if_neg (by rintro ⟨-, h⟩; omega)] at hstate
    rw [storeFinalized_slotAt hq hfirst (by omega), if_neg]
    · exact ⟨hseq, hstate⟩
    · rintro ⟨h, -⟩
      cases h
  case writing =>
    rw [hproducer, hposition]
    intro hwriting
    rw [storeFinalized_slotAt hq hwork
      (by rw [liveEnd_of_lease hwriting]; exact Nat.lt_succ_self _)]
    exact hq.writing hwriting
  case idle =>
    rw [hconfig]
    intro index hindex hnone
    change (Function.update q.commands q.consumerIndex _ index).state = _
    by_cases heq : index = q.consumerIndex
    · rw [heq, Function.update_self]
    · rw [Function.update_of_ne heq]
      refine hq.idle index hindex ?_
      rintro p ⟨hfirst, hlast⟩
      rcases Nat.eq_or_lt_of_le hfirst with hconsumer | hlt
      · rw [← hconsumer]
        exact fun h => heq h.symm
      · exact hnone p ⟨hlt, by rwa [hlive]⟩

/-- Only the acknowledgement of the command settled changes. -/
theorem storeFinalized_ack_of_ne {ackSlot : Nat}
    (hne : ackSlot ≠ (q.slotAt q.consumerPosition).command.ackSlot) :
    (q.storeFinalized q.consumerIndex commandSequence result).acks ackSlot = q.acks ackSlot := by
  change (if (q.slotAt q.consumerPosition).command.ackSlot ≠ invalidAckSlot then
    Function.update q.acks (q.slotAt q.consumerPosition).command.ackSlot _
    else q.acks) ackSlot = _
  split
  · exact Function.update_of_ne hne _ _
  · rfl

theorem Acks.storeFinalized (hacks : Acks q) (hq : Ring q) (hlease : q.consumerLeaseActive = true) :
    Acks (q.storeFinalized q.consumerIndex commandSequence result) := by
  have hend : q.producerPosition ≤ q.liveEnd := Nat.le_add_right _ _
  have hconsumer : q.Live q.consumerPosition := ⟨le_rfl, lt_of_lt_of_le (hq.reading hlease) hend⟩
  have hlive : ∀ p, (q.storeFinalized q.consumerIndex commandSequence result).Live p →
      q.Live p ∧ q.consumerPosition < p := by
    rintro p ⟨hfirst, hlast⟩
    change q.consumerPosition + 1 ≤ p at hfirst
    rw [storeFinalized_liveEnd] at hlast
    exact ⟨⟨by omega, hlast⟩, hfirst⟩
  refine hacks.transfer (fun p hp => (hlive p hp).1) ?_ ?_
  · intro p hp
    rw [storeFinalized_slotAt hq (hlive p hp).2 (hlive p hp).1.2]
  · intro p hp hslot
    obtain ⟨hp, hlt⟩ := hlive p hp
    rw [storeFinalized_ack_of_ne]
    intro heq
    exact absurd (hacks.distinct p q.consumerPosition hp hconsumer heq hslot) (by omega)

/-! ## Reading an acknowledgement -/

theorem Acks.storeAckRead (hacks : Acks q) {ackSlot : Nat}
    (hterminal : (q.acks ackSlot).state.terminal = true) : Acks (q.storeAckRead ackSlot) := by
  refine hacks.transfer (fun _ hp => hp) (fun _ _ => rfl) ?_
  intro p hp hslot
  change (Function.update q.acks ackSlot _ _).state = _
  rw [Function.update_of_ne]
  intro heq
  have hpending := hacks.pending p hp hslot
  rw [heq] at hpending
  rw [hpending] at hterminal
  cases hterminal

end
end NativePortAudioCommandQueue
end KatanaRecomp.Runtime
