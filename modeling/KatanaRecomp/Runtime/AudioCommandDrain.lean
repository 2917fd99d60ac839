import KatanaRecomp.Runtime.AudioCommandLaws

/-! # Drain and failure of the audio command queue

A queue that stops has settled what was
published, and a queue that failed hands out cancelled commands only, as long as
the operations stay clear of two steps that the queue does not check: the
consumer finds nothing to read and stops the queue while a lease of the producer
is open, and the producer publishes its lease after the failure. -/
namespace KatanaRecomp.Runtime
namespace NativePortAudioCommandQueue

/-- Nothing is queued and nothing is written. -/
def Drained (q : NativePortAudioCommandQueue) : Prop :=
  q.consumerPosition = q.producerPosition ∧ q.producerLeaseActive = false

end NativePortAudioCommandQueue

namespace AudioCommandSession
open NativePortAudioCommandQueue

/-! ## What one operation does to the queue -/

/-- Every operation is one of these, up to quiet changes before it. -/
inductive QueueStep (q : NativePortAudioCommandQueue) : Operation → NativePortAudioCommandQueue → Prop
  | quiet {operation q'} (h : Quiet q q') : QueueStep q operation q'
  | rebased {operation bound q'} (payloadSize : Nat) (hbound : Quiet q bound)
      (h : Quiet (bound.rebased payloadSize) q') : QueueStep q operation q'
  | admitted {operation bound command} (hbound : Quiet q bound) (h : Admits bound command) :
      QueueStep q operation ((bound.rebased command.payloadSize).writeCommand command
        (bound.reservedPadding command.payloadSize))
  | published {token bound} (hbound : Quiet q bound) (hlifecycle : bound.lifecycle = q.lifecycle)
      (hlease : q.producerLeaseActive = true) (hthread : q.producerThreadAllowed token = true) :
      QueueStep q (.publish token) (bound.storePublished bound.producerIndex)
  | aborted {operation} (hlease : q.producerLeaseActive = true) :
      QueueStep q operation (q.storeAborted q.producerIndex)
  | stopped {token bound} (hbound : Quiet q bound)
      (hthread : q.consumerThreadAllowed token = true) (hdraining : q.lifecycle = .draining)
      (hdrained : q.consumerPosition = q.producerPosition) :
      QueueStep q (.tryBeginConsume token) { bound with lifecycle := .stopped }
  | draining {operation} (hrunning : q.lifecycle = .running) :
      QueueStep q operation { q with lifecycle := .draining }
  | reading {operation bound} (hbound : Quiet q bound)
      (hwork : q.consumerPosition < q.producerPosition) :
      QueueStep q operation (bound.storeReading bound.consumerIndex)
  | finalized {operation bound commandSequence result} (hbound : Quiet q bound)
      (hlease : q.consumerLeaseActive = true) :
      QueueStep q operation (bound.storeFinalized bound.consumerIndex commandSequence result)
  | ackRead {operation bound ackSlot} (hbound : Quiet q bound) :
      QueueStep q operation (bound.storeAckRead ackSlot)

variable {q : NativePortAudioCommandQueue}

theorem publishProducer_thread {token slotIndex commandSequence : Nat}
    (h : (q.publishProducer token slotIndex commandSequence).1 = true) :
    q.producerThreadAllowed token = true := by
  unfold publishProducer at h
  dsimp only at h
  split at h
  · cases h
  · split at h
    · cases h
    · rename_i hthread
      simpa using hthread

variable {s : AudioCommandSession}

theorem Valid.settle_queueStep (hs : Valid s) (operation : Operation)
    {lease : NativePortAudioCommandConsumerLease} (hheld : s.consumerLease = some lease)
    {answer : Bool × NativePortAudioCommandQueue}
    (hcases : SettleCases s.queue lease.slot lease.commandSequence answer) :
    QueueStep s.queue operation (s.settle lease answer).queue := by
  obtain ⟨-, hslot, -⟩ := hs.history.consumerLease lease hheld
  unfold AudioCommandSession.settle
  rcases hcases with ⟨hfalse, hstep⟩ | ⟨bound, result, hquiet, hlease, heq⟩
  · rw [hfalse]
    exact .quiet hstep
  · rw [heq]
    have hindex : lease.slot = bound.consumerIndex := by
      unfold consumerIndex at hslot ⊢
      rw [hquiet.consumerPosition, hquiet.config]
      exact hslot
    dsimp only
    rw [hindex]
    exact .finalized hquiet hlease

theorem Valid.queueStep (hs : Valid s) (operation : Operation) :
    QueueStep s.queue operation (s.apply operation).queue := by
  cases operation with
  | tryBeginProduce token command =>
    have hquiet := quiet_bindProducerThread s.queue token
    unfold AudioCommandSession.apply
    dsimp only
    rcases tryBeginProduce_cases s.queue token command with ⟨hnone, hstep⟩ | ⟨hadmits, heq⟩
    · have hqueue : QueueStep s.queue (.tryBeginProduce token command)
          (s.queue.tryBeginProduce token command).2 := by
        rcases hstep with hstep | ⟨-, hstep⟩
        · exact .quiet hstep
        · exact .rebased _ hquiet hstep
      rcases hresult : s.queue.tryBeginProduce token command with ⟨answer, queue⟩
      rw [hresult] at hnone hqueue
      match answer, hnone with
      | .error _, _ => exact hqueue
      | .ok none, _ => exact hqueue
      | .ok (some lease), hnone => exact absurd rfl (hnone lease)
    · rw [heq]
      exact .admitted hquiet hadmits
  | publish token =>
    unfold AudioCommandSession.apply
    cases hheld : s.producerLease with
    | none => exact .quiet (Quiet.refl _)
    | some lease =>
      have hquiet := quiet_bindProducerThread s.queue token
      obtain ⟨-, hslot, -⟩ := hs.history.producerLease lease hheld
      change QueueStep s.queue _ (s.publishLease token lease).queue
      unfold publishLease
      rcases publishProducer_cases s.queue token lease.slot lease.commandSequence with
        ⟨hfalse, hstep⟩ | ⟨hlease, -, heq⟩
      · dsimp only
        rw [hfalse]
        exact .quiet hstep
      · have hthread := publishProducer_thread (congrArg (·.1) heq)
        have hindex : lease.slot = (s.queue.bindProducerThread token).producerIndex := by
          unfold producerIndex at hslot ⊢
          rw [hquiet.producerPosition, hquiet.config]
          exact hslot
        rw [heq]
        dsimp only
        rw [if_pos rfl, hindex]
        exact .published hquiet (bindProducerThread_eq s.queue token) hlease hthread
  | abort =>
    unfold AudioCommandSession.apply
    cases hheld : s.producerLease with
    | none => exact .quiet (Quiet.refl _)
    | some lease =>
      obtain ⟨hactive, hslot, -⟩ := hs.history.producerLease lease hheld
      dsimp only
      unfold abortProducer
      split
      · exact .quiet (Quiet.refl _)
      · split
        · exact .quiet (Quiet.refl _)
        · rw [hslot]
          exact .aborted hactive
  | tryBeginConsume token =>
    have hquiet := quiet_bindConsumerThread s.queue token
    unfold AudioCommandSession.apply
    dsimp only
    rcases tryBeginConsume_cases s.queue token with
      ⟨hnone, hstep⟩ | ⟨henabled, -, hstate, heq⟩
    · have hqueue : QueueStep s.queue (.tryBeginConsume token)
          (s.queue.tryBeginConsume token).2 := by
        rcases hstep with hstep | ⟨hthread, hdraining, hdrained, heq⟩
        · exact .quiet hstep
        · rw [heq]
          exact .stopped hquiet hthread hdraining hdrained
      rcases hresult : s.queue.tryBeginConsume token with ⟨answer, queue⟩
      rw [hresult] at hnone hqueue
      match answer, hnone with
      | .error _, _ => exact hqueue
      | .ok none, _ => exact hqueue
      | .ok (some lease), hnone => exact absurd rfl (hnone lease)
    · have hindex : s.queue.consumerIndex = (s.queue.bindConsumerThread token).consumerIndex := by
        unfold consumerIndex
        rw [hquiet.consumerPosition, hquiet.config]
      rw [heq]
      dsimp only
      rw [hindex]
      exact .reading hquiet (hs.ring.queued_of_readable henabled hstate)
  | complete token result =>
    unfold AudioCommandSession.apply
    cases hheld : s.consumerLease with
    | none => exact .quiet (Quiet.refl _)
    | some lease =>
      refine hs.settle_queueStep _ hheld ?_
      unfold completeLease
      split
      · exact finishConsumerCancelled_cases ..
      · exact finishConsumer_cases ..
  | cancel token errorCode =>
    unfold AudioCommandSession.apply
    cases hheld : s.consumerLease with
    | none => exact .quiet (Quiet.refl _)
    | some lease => exact hs.settle_queueStep _ hheld (finishConsumerCancelled_cases ..)
  | fail token errorCode =>
    unfold AudioCommandSession.apply
    cases hheld : s.consumerLease with
    | none => exact .quiet (Quiet.refl _)
    | some lease => exact hs.settle_queueStep _ hheld (finishConsumerCancelled_cases ..)
  | abandon token =>
    unfold AudioCommandSession.apply
    cases hheld : s.consumerLease with
    | none => exact .quiet (Quiet.refl _)
    | some lease => exact hs.settle_queueStep _ hheld (abandonConsumer_cases ..)
  | failTerminal token failure commandSequence => exact .quiet (quiet_failTerminal ..)
  | requestShutdown =>
    change QueueStep s.queue _ s.queue.requestShutdown
    unfold requestShutdown
    split
    · rename_i hrunning
      exact .draining hrunning
    · exact .quiet (Quiet.refl _)
  | tryReadAck token ackSlot commandSequence =>
    unfold AudioCommandSession.apply
    dsimp only
    rcases tryReadAck_cases s.queue token ackSlot commandSequence with
      ⟨hnone, hstep⟩ | ⟨-, -, heq⟩
    · rcases hresult : s.queue.tryReadAck token ackSlot commandSequence with ⟨answer, queue⟩
      rw [hresult] at hnone hstep
      match answer, hnone with
      | .error _, _ => exact .quiet hstep
      | .ok none, _ => exact .quiet hstep
      | .ok (some ack), hnone => exact absurd rfl (hnone ack)
    · rw [heq]
      exact .ackRead (quiet_bindProducerThread s.queue token)

/-! ## Draining -/

/-- Every operation of the run meets the condition where the run takes it. -/
def Along (condition : AudioCommandSession → Operation → Prop) :
    AudioCommandSession → List Operation → Prop
  | _, [] => True
  | s, operation :: rest => condition s operation ∧ Along condition (s.apply operation) rest

theorem Along.split {condition : AudioCommandSession → Operation → Prop} :
    ∀ {s : AudioCommandSession} {before after : List Operation},
      Along condition s (before ++ after) →
      Along condition s before ∧ Along condition (s.run before) after
  | _, [], _, h => ⟨trivial, h⟩
  | _, _ :: _, _, h => ⟨⟨h.1, (Along.split h.2).1⟩, (Along.split h.2).2⟩

theorem run_append (s : AudioCommandSession) (before after : List Operation) :
    s.run (before ++ after) = (s.run before).run after := List.foldl_append ..

/-- The consumer does not stop the queue under an open lease of the producer. -/
def DrainSafe (s : AudioCommandSession) : Operation → Prop
  | .tryBeginConsume token =>
    ¬ (s.queue.consumerThreadAllowed token = true ∧ s.queue.lifecycle = .draining ∧
      s.queue.consumerPosition = s.queue.producerPosition ∧ s.queue.producerLeaseActive = true)
  | _ => True

/-- A stopped queue is drained. -/
def StopsDrained (s : AudioCommandSession) : Prop := s.queue.lifecycle = .stopped → s.queue.Drained

variable {q' : NativePortAudioCommandQueue}

theorem Quiet.drained (h : Quiet q q') (hq : q.Drained) : q'.Drained := by
  unfold Drained at hq ⊢
  rwa [h.consumerPosition, h.producerPosition, h.producerLeaseActive]

theorem Quiet.stopped {q q' : NativePortAudioCommandQueue} (h : Quiet q q')
    (hstopped : q'.lifecycle = .stopped) : q.lifecycle = .stopped := by
  rcases h.lifecycle with heq | hfailed
  · exact heq ▸ hstopped
  · rw [hfailed] at hstopped
    cases hstopped

variable {operation : Operation}

theorem StopsDrained.apply (hs : Valid s) (h : StopsDrained s)
    (hsafe : s.DrainSafe operation) : StopsDrained (s.apply operation) := by
  have hstep := hs.queueStep operation
  unfold StopsDrained
  generalize (s.apply operation).queue = q' at hstep
  intro hstopped
  cases hstep with
  | quiet hquiet => exact Quiet.drained hquiet (h (Quiet.stopped hquiet hstopped))
  | rebased payloadSize hbound hquiet =>
    obtain ⟨-, hproducer, hconsumer, hlease, -, hlifecycle⟩ := rebased_frame _ payloadSize
    have hearlier := Quiet.stopped hquiet hstopped
    rw [hlifecycle] at hearlier
    have hdrained := Quiet.drained hbound (h (Quiet.stopped hbound hearlier))
    refine Quiet.drained hquiet ?_
    unfold Drained at hdrained ⊢
    rwa [hproducer, hconsumer, hlease]
  | @admitted _ bound command hbound hadmits =>
    have hrunning : (bound.rebased command.payloadSize).lifecycle = .stopped := hstopped
    rw [(rebased_frame bound command.payloadSize).2.2.2.2.2, hadmits.lifecycle] at hrunning
    cases hrunning
  | @published _ bound hbound hlifecycle hlease =>
    have hearlier : s.queue.lifecycle = .stopped := hlifecycle.symm.trans hstopped
    have hinactive := (h hearlier).2
    rw [hlease] at hinactive
    cases hinactive
  | aborted hlease =>
    have hinactive := (h hstopped).2
    rw [hlease] at hinactive
    cases hinactive
  | @stopped _ bound hbound hthread hdraining hdrained =>
    have hlease : s.queue.producerLeaseActive = false := by
      by_contra hactive
      rw [Bool.not_eq_false] at hactive
      exact hsafe ⟨hthread, hdraining, hdrained, hactive⟩
    have hafter : bound.Drained := Quiet.drained hbound ⟨hdrained, hlease⟩
    exact hafter
  | draining => cases hstopped
  | @reading _ bound hbound _ =>
    have hearlier : s.queue.lifecycle = .stopped := Quiet.stopped hbound hstopped
    have hafter : bound.Drained := Quiet.drained hbound (h hearlier)
    exact hafter
  | @finalized _ bound commandSequence result hbound hlease =>
    obtain ⟨-, -, -, -, -, hlifecycle⟩ :=
      storeFinalized_frame bound bound.consumerIndex commandSequence result
    rw [hlifecycle] at hstopped
    have hdrained := h (Quiet.stopped hbound hstopped)
    exact absurd hdrained.1 (hs.ring.reading hlease).ne
  | @ackRead _ bound ackSlot hbound =>
    have hearlier : s.queue.lifecycle = .stopped := Quiet.stopped hbound hstopped
    have hafter : bound.Drained := Quiet.drained hbound (h hearlier)
    exact hafter

/-- No lease is open and none can be opened. -/
def Closed (s : AudioCommandSession) : Prop :=
  s.queue.producerLeaseActive = false ∧ s.queue.lifecycle ≠ .running

theorem Quiet.not_running (h : Quiet q q')
    (hq : q.lifecycle ≠ .running) : q'.lifecycle ≠ .running := by
  rcases h.lifecycle with heq | hfailed
  · rwa [heq]
  · rw [hfailed]
    exact NativePortAudioCommandQueueLifecycle.noConfusion

theorem Closed.apply (hs : Valid s) (h : Closed s)
    (operation : Operation) : Closed (s.apply operation) := by
  obtain ⟨hinactive, hclosed⟩ := h
  have hstep := hs.queueStep operation
  unfold Closed
  generalize (s.apply operation).queue = q' at hstep
  cases hstep with
  | quiet hquiet =>
    exact ⟨hquiet.producerLeaseActive.trans hinactive, Quiet.not_running hquiet hclosed⟩
  | rebased payloadSize hbound hquiet =>
    obtain ⟨-, -, -, hlease, -, hlifecycle⟩ := rebased_frame _ payloadSize
    refine ⟨?_, Quiet.not_running hquiet ?_⟩
    · rw [hquiet.producerLeaseActive, hlease]
      exact hbound.producerLeaseActive.trans hinactive
    · rw [hlifecycle]
      exact Quiet.not_running hbound hclosed
  | admitted hbound hadmits =>
    exact absurd hadmits.lifecycle (Quiet.not_running hbound hclosed)
  | published _ _ hlease =>
    rw [hlease] at hinactive
    cases hinactive
  | aborted hlease =>
    rw [hlease] at hinactive
    cases hinactive
  | stopped hbound =>
    exact ⟨hbound.producerLeaseActive.trans hinactive,
      NativePortAudioCommandQueueLifecycle.noConfusion⟩
  | draining hrunning => exact absurd hrunning hclosed
  | @reading _ bound hbound =>
    have hafter : bound.lifecycle ≠ .running := Quiet.not_running hbound hclosed
    exact ⟨hbound.producerLeaseActive.trans hinactive, hafter⟩
  | @finalized _ bound commandSequence result hbound hlease =>
    obtain ⟨-, -, -, hproducer, -, hlifecycle⟩ :=
      storeFinalized_frame bound bound.consumerIndex commandSequence result
    rw [hproducer, hlifecycle]
    exact ⟨hbound.producerLeaseActive.trans hinactive, Quiet.not_running hbound hclosed⟩
  | @ackRead _ bound _ hbound =>
    have hafter : bound.lifecycle ≠ .running := Quiet.not_running hbound hclosed
    exact ⟨hbound.producerLeaseActive.trans hinactive, hafter⟩

/-- Publishing needs an open lease. -/
theorem Closed.published {s : AudioCommandSession} (hs : Valid s) (h : Closed s)
    (operation : Operation) : (s.apply operation).published = s.published := by
  have hnone : s.producerLease = none := by
    cases hheld : s.producerLease with
    | none => rfl
    | some lease =>
      have hactive := (hs.history.producerLease lease hheld).1
      rw [h.1] at hactive
      cases hactive
  have hsettle : ∀ lease answer, (s.settle lease answer).published = s.published := by
    intro lease answer
    unfold settle
    split
    · rfl
    · rfl
  unfold AudioCommandSession.apply
  cases operation with
  | tryBeginProduce token command =>
    dsimp only
    split
    · rfl
    · rfl
  | publish token =>
    dsimp only
    rw [hnone]
  | abort =>
    dsimp only
    rw [hnone]
  | tryBeginConsume token =>
    dsimp only
    split
    · rfl
    · rfl
  | complete token result =>
    cases s.consumerLease with
    | none => rfl
    | some lease => exact hsettle _ _
  | cancel token errorCode =>
    cases s.consumerLease with
    | none => rfl
    | some lease => exact hsettle _ _
  | fail token errorCode =>
    cases s.consumerLease with
    | none => rfl
    | some lease => exact hsettle _ _
  | abandon token =>
    cases s.consumerLease with
    | none => rfl
    | some lease => exact hsettle _ _
  | failTerminal token failure commandSequence => rfl
  | requestShutdown => rfl
  | tryReadAck token ackSlot commandSequence =>
    dsimp only
    split
    · rfl
    · rfl

theorem Closed.run_published (hs : Valid s) (h : Closed s)
    (operations : List Operation) : (s.run operations).published = s.published := by
  induction operations generalizing s with
  | nil => rfl
  | cons operation rest ih =>
    exact (ih (hs.apply operation) (h.apply hs operation)).trans (h.published hs operation)

variable {operations : List Operation}

theorem StopsDrained.run (hs : Valid s) (h : StopsDrained s)
    (hsafe : Along DrainSafe s operations) :
    StopsDrained (s.run operations) := by
  induction operations generalizing s with
  | nil => exact h
  | cons operation rest ih => exact ih (hs.apply operation) (h.apply hs hsafe.1) hsafe.2

theorem create_not_stopped {config : NativePortAudioCommandQueueConfig}
    {queue : NativePortAudioCommandQueue}
    (hcreate : NativePortAudioCommandQueue.create config = .ok queue) :
    queue.lifecycle ≠ .stopped ∧ queue.lifecycle ≠ .failed := by
  unfold NativePortAudioCommandQueue.create at hcreate
  split at hcreate
  · cases hcreate
    exact ⟨NativePortAudioCommandQueueLifecycle.noConfusion,
      NativePortAudioCommandQueueLifecycle.noConfusion⟩
  · split at hcreate
    · cases hcreate
    · cases hcreate
      exact ⟨NativePortAudioCommandQueueLifecycle.noConfusion,
        NativePortAudioCommandQueueLifecycle.noConfusion⟩

/-- Once the queue has stopped, every command published has been settled exactly once, in order,
and no further one is published. -/
theorem run_drained {config : NativePortAudioCommandQueueConfig}
    {queue : NativePortAudioCommandQueue}
    (hcreate : NativePortAudioCommandQueue.create config = .ok queue)
    {before after : List Operation} (hsafe : Along DrainSafe { queue := queue } (before ++ after))
    (hstopped : (run { queue := queue } before).queue.lifecycle = .stopped) :
    (run { queue := queue } before).finalized =
        (run { queue := queue } before).published.map (·.commandSequence) ∧
      (run { queue := queue } before).finalized.Nodup ∧
      (run { queue := queue } (before ++ after)).published =
        (run { queue := queue } before).published := by
  have hvalid := create_valid hcreate
  have hbefore := hvalid.run before
  have hinitial : StopsDrained { queue := queue } :=
    fun h => absurd h (create_not_stopped hcreate).1
  have hdrained := hinitial.run hvalid hsafe.split.1 hstopped
  have hlength := hbefore.history.publishedLength
  have hfinalized := hbefore.history.finalized
  refine ⟨?_, ?_, ?_⟩
  · rw [hfinalized, hdrained.1, ← hlength]
    refine List.ext_getElem? ?_
    intro p
    rw [List.getElem?_map]
    cases hget : (run { queue := queue } before).published[p]? with
    | none =>
      have hle := List.getElem?_eq_none_iff.mp hget
      exact List.getElem?_eq_none_iff.mpr (by rw [List.length_range']; exact hle)
    | some command =>
      have hlt := (List.getElem?_eq_some_iff.mp hget).1
      rw [List.getElem?_range' hlt, Option.map_some,
        hbefore.history.publishedSequence p command hget]
      congr 1
      omega
  · rw [hfinalized]
    exact List.nodup_range'
  · have hclosed : Closed (run { queue := queue } before) := by
      refine ⟨hdrained.2, ?_⟩
      rw [hstopped]
      exact NativePortAudioCommandQueueLifecycle.noConfusion
    rw [run_append]
    exact hclosed.run_published hbefore after

/-- One command settled, then the shutdown and the stop. -/
def oneDrained : List Operation := oneCommand ++ [.requestShutdown, .tryBeginConsume 2]

theorem run_drained_oneCommand : (run { queue := smallQueue } oneDrained).finalized = [1] ∧
      (run { queue := smallQueue } oneDrained).finalized =
        (run { queue := smallQueue } oneDrained).published.map (·.commandSequence) := by
  have hsafe : Along DrainSafe { queue := smallQueue } (oneDrained ++ []) := by
    refine ⟨trivial, trivial, ?_, trivial, trivial, trivial, ?_, trivial⟩
    · rintro ⟨-, hdraining, -⟩
      cases hdraining
    · rintro ⟨-, -, -, hlease⟩
      cases hlease
  exact ⟨rfl, (@run_drained smallQueue.config smallQueue rfl oneDrained [] hsafe rfl).1⟩

/-- The shutdown comes between the lease of the producer and its publication. -/
def shutdownUnderLease : List Operation :=
  [.tryBeginProduce 1 {}, .requestShutdown, .tryBeginConsume 2, .publish 1]

theorem stopped_undrained :
    ¬ ∀ operations, (run { queue := smallQueue } operations).queue.lifecycle = .stopped →
      (run { queue := smallQueue } operations).finalized =
        (run { queue := smallQueue } operations).published.map (·.commandSequence) := by
  intro hdrained
  have hall := hdrained shutdownUnderLease rfl
  have hfinalized : (run { queue := smallQueue } shutdownUnderLease).finalized = [] := rfl
  have hpublished : (run { queue := smallQueue } shutdownUnderLease).published.map
      (·.commandSequence) = [1] := rfl
  rw [hfinalized, hpublished] at hall
  cases hall

/-! ## Failure -/

/-- Nothing is published once the queue has failed. -/
def FailSafe (s : AudioCommandSession) : Operation → Prop
  | .publish token =>
    ¬ (s.queue.lifecycle = .failed ∧ s.queue.producerLeaseActive = true ∧
      s.queue.producerThreadAllowed token = true)
  | _ => True

/-- A failed queue has no ready command. -/
def FailsCancelled (s : AudioCommandSession) : Prop :=
  s.queue.lifecycle = .failed → s.queue.config.enabled = true → NoReady s.queue

theorem noReady_of_slots (hring : Ring q) (h : NoReady q)
    (hfirst : q.consumerPosition ≤ q'.consumerPosition)
    (hlast : q'.producerPosition = q.producerPosition)
    (hslots : ∀ p, q'.consumerPosition ≤ p → p < q.producerPosition →
      (q'.slotAt p).state = .ready → (q.slotAt p).state = .ready) : NoReady q' := by
  have hspace := hring.space
  have hend : q.producerPosition ≤ q.liveEnd := Nat.le_add_right _ _
  intro p hp hp' _ hready
  rw [hlast] at hp'
  exact h p (by omega) hp' (by omega) (hslots p hp hp' hready)

theorem Quiet.failsCancelled (hquiet : Quiet q q')
    (h : q.lifecycle = .failed → q.config.enabled = true → NoReady q)
    (hfailed : q'.lifecycle = .failed) (henabled : q'.config.enabled = true) : NoReady q' := by
  rw [hquiet.config] at henabled
  rcases hquiet.failed hfailed with hearlier | hnew
  · exact hquiet.noReady (h hearlier henabled)
  · exact hnew henabled

theorem FailsCancelled.apply (hs : Valid s) (h : FailsCancelled s)
    (hsafe : s.FailSafe operation) :
    FailsCancelled (s.apply operation) := by
  have hstep := hs.queueStep operation
  unfold FailsCancelled
  generalize (s.apply operation).queue = q' at hstep
  intro hfailed henabled
  cases hstep with
  | quiet hquiet => exact Quiet.failsCancelled hquiet h hfailed henabled
  | @rebased _ bound _ payloadSize hbound hquiet =>
    have hnone : bound.lifecycle = .failed → bound.config.enabled = true → NoReady bound :=
      Quiet.failsCancelled hbound h
    refine Quiet.failsCancelled hquiet ?_ hfailed henabled
    obtain ⟨producer, consumer, heq⟩ := rebased_eq bound payloadSize
    rw [heq]
    exact hnone
  | @admitted _ bound command hbound hadmits =>
    have hrunning : (bound.rebased command.payloadSize).lifecycle = .failed := hfailed
    rw [(rebased_frame bound command.payloadSize).2.2.2.2.2, hadmits.lifecycle] at hrunning
    cases hrunning
  | @published _ bound hbound hlifecycle hlease hthread =>
    have hearlier : s.queue.lifecycle = .failed := hlifecycle.symm.trans hfailed
    exact absurd ⟨hearlier, hlease, hthread⟩ hsafe
  | aborted hlease =>
    have hnone : NoReady s.queue := h hfailed henabled
    refine noReady_of_slots hs.ring hnone le_rfl rfl ?_
    intro p hp hp' hready
    rwa [storeAborted_slotAt hs.ring hlease hp hp'] at hready
  | stopped => cases hfailed
  | draining => cases hfailed
  | @reading _ bound hbound hwork =>
    have hring := hs.ring.quiet hbound
    have hnone : NoReady bound := Quiet.failsCancelled hbound h hfailed henabled
    refine noReady_of_slots hring hnone le_rfl rfl ?_
    intro p hp hp' hready
    have hend : bound.producerPosition ≤ bound.liveEnd := Nat.le_add_right _ _
    change bound.consumerPosition ≤ p at hp
    rcases Nat.eq_or_lt_of_le hp with heq | hlt
    · rw [← heq, storeReading_slotAt_consumer] at hready
      cases hready
    · rwa [storeReading_slotAt hring hlt (by omega)] at hready
  | @finalized _ bound commandSequence result hbound hlease =>
    obtain ⟨hconfig, hposition, -, -, -, hlifecycle⟩ :=
      storeFinalized_frame bound bound.consumerIndex commandSequence result
    rw [hlifecycle] at hfailed
    rw [hconfig] at henabled
    have hring := hs.ring.quiet hbound
    have hnone : NoReady bound := Quiet.failsCancelled hbound h hfailed henabled
    refine noReady_of_slots hring hnone (Nat.le_succ _) hposition ?_
    intro p hp hp' hready
    have hend : bound.producerPosition ≤ bound.liveEnd := Nat.le_add_right _ _
    rwa [storeFinalized_slotAt hring hp (by omega)] at hready
  | @ackRead _ bound ackSlot hbound =>
    have hnone : NoReady bound := Quiet.failsCancelled hbound h hfailed henabled
    exact hnone

theorem FailsCancelled.run (hs : Valid s) (h : FailsCancelled s)
    (hsafe : Along FailSafe s operations) :
    FailsCancelled (s.run operations) := by
  induction operations generalizing s with
  | nil => exact h
  | cons operation rest ih => exact ih (hs.apply operation) (h.apply hs hsafe.1) hsafe.2

theorem Quiet.still_failed (hquiet : Quiet q q')
    (h : q.lifecycle = .failed) : q'.lifecycle = .failed := by
  rcases hquiet.lifecycle with heq | hfailed
  · exact heq.trans h
  · exact hfailed

/-- The queue does not recover from a failure. -/
theorem Valid.still_failed (hs : Valid s)
    (h : s.queue.lifecycle = .failed) (operation : Operation) :
    (s.apply operation).queue.lifecycle = .failed := by
  have hstep := hs.queueStep operation
  generalize (s.apply operation).queue = q' at hstep
  cases hstep with
  | quiet hquiet => exact Quiet.still_failed hquiet h
  | rebased payloadSize hbound hquiet =>
    refine Quiet.still_failed hquiet ?_
    rw [(rebased_frame _ payloadSize).2.2.2.2.2]
    exact Quiet.still_failed hbound h
  | admitted hbound hadmits =>
    have hfailed := Quiet.still_failed hbound h
    rw [hadmits.lifecycle] at hfailed
    cases hfailed
  | published hbound hlifecycle => exact hlifecycle.trans h
  | aborted => exact h
  | stopped _ _ hdraining =>
    rw [h] at hdraining
    cases hdraining
  | draining hrunning =>
    rw [h] at hrunning
    cases hrunning
  | @reading _ bound hbound =>
    have hfailed : bound.lifecycle = .failed := Quiet.still_failed hbound h
    exact hfailed
  | @finalized _ bound commandSequence result hbound hlease =>
    rw [(storeFinalized_frame bound bound.consumerIndex commandSequence result).2.2.2.2.2]
    exact Quiet.still_failed hbound h
  | @ackRead _ bound _ hbound =>
    have hfailed : bound.lifecycle = .failed := Quiet.still_failed hbound h
    exact hfailed

theorem Valid.run_still_failed (hs : Valid s)
    (h : s.queue.lifecycle = .failed) (operations : List Operation) :
    (s.run operations).queue.lifecycle = .failed := by
  induction operations generalizing s with
  | nil => exact h
  | cons operation rest ih => exact ih (hs.apply operation) (hs.still_failed h operation)

/-- After a failure the consumer is given cancelled commands only. -/
theorem run_failed_cancelled {config : NativePortAudioCommandQueueConfig}
    {queue : NativePortAudioCommandQueue}
    (hcreate : NativePortAudioCommandQueue.create config = .ok queue)
    {before after : List Operation} (hsafe : Along FailSafe { queue := queue } (before ++ after))
    (hfailed : (run { queue := queue } before).queue.lifecycle = .failed)
    {token : Nat} {lease : NativePortAudioCommandConsumerLease} {next : NativePortAudioCommandQueue}
    (hlease : (run { queue := queue } (before ++ after)).queue.tryBeginConsume token =
      (.ok (some lease), next)) : lease.cancelled = true := by
  have hvalid := create_valid hcreate
  have hafter := hvalid.run (before ++ after)
  have hinitial : FailsCancelled { queue := queue } :=
    fun h => absurd h (create_not_stopped hcreate).2
  have hcancelled := hinitial.run hvalid hsafe
  have hstill : (run { queue := queue } (before ++ after)).queue.lifecycle = .failed := by
    rw [run_append]
    exact (hvalid.run before).run_still_failed hfailed after
  rcases tryBeginConsume_cases (run { queue := queue } (before ++ after)).queue token with
    ⟨hnone, -⟩ | ⟨henabled, -, hstate, heq⟩
  · rw [hlease] at hnone
    exact absurd rfl (hnone lease)
  · have hwork := hafter.ring.queued_of_readable henabled hstate
    have hpositive := hafter.ring.capacity henabled
    have hnotready := hcancelled hstill henabled _ le_rfl hwork (by omega)
    rw [heq] at hlease
    cases hlease
    rcases hstate with hready | hcancelled
    · exact absurd hready hnotready
    · rw [hcancelled]
      rfl

/-- A published command and a failure of the worker. -/
def failedQueued : List Operation :=
  [.tryBeginProduce 1 {}, .publish 1, .failTerminal 2 .workerFailure 0]

theorem run_failed_cancelled_queued :
    ∃ lease next, (run { queue := smallQueue } failedQueued).queue.tryBeginConsume 2 =
        (.ok (some lease), next) ∧ lease.cancelled = true := by
  have hsafe : Along FailSafe { queue := smallQueue } (failedQueued ++ []) := by
    refine ⟨trivial, ?_, trivial, trivial⟩
    rintro ⟨hfailed, -⟩
    cases hfailed
  refine ⟨_, _, rfl, ?_⟩
  exact @run_failed_cancelled smallQueue.config smallQueue rfl failedQueued [] hsafe rfl 2 _ _ rfl

/-- The failure comes between the lease of the producer and its publication. -/
def failUnderLease : List Operation :=
  [.tryBeginProduce 1 {}, .failTerminal 2 .workerFailure 0]

theorem failed_not_cancelled : ¬ ∀ before after token lease next,
      (run { queue := smallQueue } before).queue.lifecycle = .failed →
      (run { queue := smallQueue } (before ++ after)).queue.tryBeginConsume token =
        (.ok (some lease), next) → lease.cancelled = true := by
  intro hcancelled
  have hlease := hcancelled failUnderLease [.publish 1] 2
    { slot := 0, commandSequence := 1, cancelled := false } _ rfl rfl
  cases hlease

end AudioCommandSession
end KatanaRecomp.Runtime
