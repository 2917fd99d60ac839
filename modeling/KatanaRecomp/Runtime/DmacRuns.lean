import KatanaRecomp.Runtime.DmacSteps

/-! # Runs of the DMA controller -/
namespace KatanaRecomp.Runtime.Dmac
open Lib ByteFormat Scheduler
variable {μ : Type}

/-! ## Restore -/

variable {state : Sh4DmacSnapshot}

/-- What the validator accepts of the planned event. -/
theorem Sh4DmacSnapshot.validateEvent_ok (h : state.validateEvent = .ok ()) :
    (state.hasEvent = true ∧ ∃ index : Fin 4, state.scheduledChannel = some index.val ∧
        state.scheduledUnits ≠ 0 ∧ state.enabledState index = true) ∨
      (state.hasEvent = false ∧ state.scheduledChannel = none ∧ state.scheduledUnits = 0) := by
  unfold Sh4DmacSnapshot.validateEvent at h
  split at h
  · cases h
  split at h
  · rename_i hevent
    refine .inl ⟨hevent, ?_⟩
    cases hchannel : state.scheduledChannel with
    | none =>
      rw [hchannel] at h
      cases h
    | some channel =>
      rw [hchannel] at h
      dsimp only at h
      split at h
      · rename_i hfour
        split at h
        · cases h
        rename_i hunits
        split at h
        · cases h
        · rename_i henabled
          exact ⟨⟨channel, hfour⟩, rfl, hunits, by simpa using henabled⟩
      · cases h
  · rename_i hevent
    split at h
    · cases h
    · rename_i hplan
      rw [not_or] at hplan
      refine .inr ⟨by simpa using hevent, by simpa using hplan.1, by simpa using hplan.2⟩

/-- What the validator accepts. -/
structure Sh4DmacSnapshot.Accepted (state : Sh4DmacSnapshot) (dmac : Sh4Dmac) : Prop where
  channels : ∀ index, ¬ (state.channels index).Bad index
  operation : state.operation &&& ~~~(operationWritableMask ||| addressErrorFlag ||| nmiFlag) = 0
  event : state.validateEvent = .ok ()
  fault : ∀ fault ∈ state.lastFault, fault.channel.toNat < 4

theorem Sh4Dmac.validateStateRestore_ok {dmac : Sh4Dmac}
    (h : dmac.validateStateRestore state = .ok ()) : state.Accepted dmac := by
  unfold Sh4Dmac.validateStateRestore at h
  split at h
  · cases h
  split at h
  · cases h
  split at h
  · cases h
  rename_i hchannels
  split at h
  · cases h
  rename_i hoperation
  obtain ⟨_, hevent, h⟩ := bind_eq_ok h
  split at h
  · cases h
  rename_i hfault
  refine ⟨fun index hbad => hchannels ⟨index, hbad⟩, not_not.mp hoperation, hevent, ?_⟩
  intro fault hmem
  by_contra hge
  exact hfault ⟨fault, hmem, by omega⟩

theorem Sh4DmacSnapshot.Accepted.registers {dmac : Sh4Dmac}
    (h : state.Accepted dmac) : (dmac.restored state).Registers := by
  refine ⟨?_, h.operation, h.fault⟩
  intro index
  have hgood := h.channels index
  unfold Sh4DmacChannelSnapshot.Bad at hgood
  simp only [not_or, not_lt, not_not, ne_eq, gt_iff_lt] at hgood
  exact ⟨BitVec.not_lt.mp hgood.1, hgood.2.1, hgood.2.2.1⟩

/-- A restored controller does not wait for a request it has already. -/
def Sh4DmacSnapshot.PlansEligible (state : Sh4DmacSnapshot) (dmac : Sh4Dmac) : Prop :=
  dmac.validateStateRestore state = .ok () →
    (dmac.restored state).selectChannel.isSome = true → state.hasEvent = true

variable {m t : Machine μ}

theorem restoreStatePassive_ensures (hm : Settled m) (state : Sh4DmacSnapshot)
    (hplans : state.PlansEligible m.device) :
    Ensures (restoreStatePassive state) m (fun _ t => Settled t) (fun _ t => Settled t) := by
  unfold restoreStatePassive
  refine .bind (.get ?_)
  cases hvalid : m.device.validateStateRestore state with
  | error e => exact .throw hm
  | ok _ =>
    have haccepted := Sh4Dmac.validateStateRestore_ok hvalid
    refine .bind ((cancelEvent_ensures hm.toEvents).mono ?_ fun _ _ h => h)
    rintro _ t ht
    refine onDevice_ensures ?_
    have hrestored : t.device.restored state = m.device.restored state := by
      rw [ht.device]
      rfl
    rw [hrestored]
    have hselected : (∃ index, (m.device.restored state).eligible index = true) →
        state.hasEvent = true := by
      intro heligible
      rw [← Sh4Dmac.selectChannel_isSome_iff] at heligible
      exact hplans hvalid heligible
    rcases Sh4DmacSnapshot.validateEvent_ok haccepted.event with
      ⟨hevent, index, hchannel, hunits, henabled⟩ | ⟨hevent, hchannel, hunits⟩
    · have hindex : (m.device.restored state).scheduledChannel = some index := by
        change state.scheduledChannel.map (Fin.ofNat 4) = some index
        rw [hchannel]
        exact congrArg some (Fin.ofNat_val_eq_self index)
      refine ⟨⟨ht.scheduler, haccepted.registers, .inr (.inr ⟨index, rfl, hevent, hindex, hunits,
        ht.idle.none⟩)⟩, ?_, fun _ => .inr hevent⟩
      intro planned hplanned
      change (m.device.restored state).scheduledChannel = some planned at hplanned
      rw [hindex] at hplanned
      cases hplanned
      exact henabled
    · have hnone : (m.device.restored state).scheduledChannel = none := by
        change state.scheduledChannel.map (Fin.ofNat 4) = none
        rw [hchannel]
        rfl
      refine ⟨⟨ht.scheduler, haccepted.registers, .inl ⟨rfl, hevent, hnone, hunits,
        ht.idle.none⟩⟩, ?_, ?_⟩
      · intro planned hplanned
        change (m.device.restored state).scheduledChannel = some planned at hplanned
        rw [hnone] at hplanned
        cases hplanned
      · intro heligible
        exact .inr (hselected heligible)

theorem rehydrateScheduledEvent_ensures (hm : Settled m) (hroom : Room m)
    (guestCycle : BitVec 64) (channel : BitVec 32) (token : BitVec 64) :
    Ensures (rehydrateScheduledEvent guestCycle channel token) m (fun _ t => Settled t)
      (fun _ t => Settled t) := by
  unfold rehydrateScheduledEvent
  refine .bind (.get ?_)
  split
  swap
  · exact .throw hm
  rename_i hknown
  refine .ite (fun _ => .throw hm) fun hexpected => .ite (fun _ => .throw hm) fun hahead => ?_
  simp only [not_or, not_not, ne_eq] at hexpected
  obtain ⟨-, hevent, hchannel, hunits⟩ := hexpected
  have hnone : NoEvent m.scheduler := by
    rcases hm.plan with hidle | ⟨key, planned, hplanned⟩ | ⟨planned, hawaiting⟩
    · exact hidle.none
    · rw [hplanned.event] at hevent
      exact absurd rfl hevent
    · exact hawaiting.none
  refine .bind (plan_ensures hm.scheduler hnone hroom.eventId ⟨channel.toNat, hknown.2⟩
    guestCycle.toNat (by omega) ?_ rfl ?_)
  · have := guestCycle.isLt
    unfold Scheduler.uint64Max
    omega
  intro id scheduler hscheduler hheld honly
  refine onDevice_ensures ⟨⟨hscheduler, ⟨hm.registers.channels, hm.registers.operation,
    hm.registers.fault⟩, .inr (.inl ⟨_, _, rfl, rfl, hchannel, hunits, hheld, honly⟩)⟩, ?_,
    fun _ => .inl rfl⟩
  intro planned hplanned
  exact hm.active planned hplanned

/-! ## The event -/

/-- A machine in the middle of a transfer: nothing is planned, and only the registers of the
channels and the memory have changed since the callback was entered. -/
structure Moving (m t : Machine μ) : Prop where
  registers : t.device.Registers
  samePlan : SamePlan m.device t.device
  timing : t.device.timing = m.device.timing
  scheduler : t.scheduler = m.scheduler
  phase : t.phase = m.phase

theorem Moving.events (h : Moving m t) (hm : Events m) : Events t :=
  hm.transfer h.scheduler h.phase h.samePlan h.registers

variable {fail : DmacError → Machine μ → Prop}

theorem transferOne_ensures (copy : MemoryPort μ) (hm : Events m)
    (ht : Moving m t) (index : Fin 4) (size : Nat) :
    Ensures (transferOne copy index size) t
      (fun moved u => if moved then Moving m u else Settled u ∧ u.phase = m.phase) fail := by
  have hfault : ∀ (u : Machine μ) reason, Moving m u →
      Ensures (setFault index reason (BitVec.ofNat 64 size) >>= fun _ => pure false) u
        (fun moved u => if moved then Moving m u else Settled u ∧ u.phase = m.phase) fail := by
    intro u reason hu
    refine .bind ((setFault_ensures (hu.events hm) index reason _).mono ?_ fun _ _ h => h)
    intro _ v hv
    exact .pure ⟨hv.1, hv.2.trans hu.phase⟩
  unfold transferOne
  refine .bind (.get ?_)
  cases t.device.transferFault index size with
  | some reason => exact hfault t reason ht
  | none =>
    dsimp only
    generalize copy _ t.memory = result
    have hcopied : Moving m { t with memory := result.2 } :=
      ⟨ht.registers, ht.samePlan, ht.timing, ht.scheduler, ht.phase⟩
    refine .bind (.update (.ite (fun _ => .pure hcopied) fun _ => hfault _ _ hcopied))

theorem transferUnits_ensures (copy : MemoryPort μ) (hm : Events m)
    (ht : Moving m t) (index : Fin 4) (units : Nat) :
    Ensures (transferUnits copy index units) t
      (fun moved u => if moved then Moving m u else Settled u ∧ u.phase = m.phase) fail := by
  induction units generalizing t with
  | zero => exact .pure ht
  | succ units ih =>
    refine .bind (.get (.ite ?_ fun _ => .pure ht))
    intro _
    cases htake : (t.device.channels index).takeRequest t.device.operation with
    | none => exact .pure ht
    | some value =>
      have htaken : Moving m { t with device := t.device.updateChannel index fun _ => value } := by
        have hregisters : (t.device.updateChannel index fun _ => value).Registers :=
          ht.registers.update index fun h => h.takeRequest htake
        exact ⟨hregisters, ⟨ht.samePlan.event, ht.samePlan.pending, ht.samePlan.channel,
          ht.samePlan.units⟩, ht.timing, ht.scheduler, ht.phase⟩
      refine .bind (onDevice_ensures (.bind ((transferOne_ensures copy hm htaken index
        value.transferSize).mono ?_ fun _ _ h => h)))
      intro moved u hu
      refine .ite ?_ ?_
      · rintro rfl
        refine .bind (onDevice_ensures (ih ?_))
        have hu : Moving m u := hu
        have hregisters : (u.device.updateChannel index fun current =>
            current.unitMoved value.transferSize).Registers :=
          hu.registers.update index fun h => h.unitMoved _
        exact ⟨hregisters, ⟨hu.samePlan.event, hu.samePlan.pending, hu.samePlan.channel,
          hu.samePlan.units⟩, hu.timing, hu.scheduler, hu.phase⟩
      · intro hfalse
        rw [if_neg hfalse] at hu
        exact .pure hu

variable {scheduler : EventScheduler DmacCallback}

/-- The callback finds nothing planned any more and plans what comes next. -/
theorem handleTransfer_ensures (copy : MemoryPort μ) {phase : Phase}
    (hregisters : m.device.Registers) (hscheduler : SchedulerOk scheduler phase)
    (hnone : NoEvent scheduler) (hroom : Room { m with scheduler, phase }) (index : Fin 4) :
    Ensures (handleTransfer copy index) { m with scheduler, phase }
      (fun _ t => Settled t ∧ t.phase = phase) (fun _ _ => False) := by
  unfold handleTransfer
  refine .bind (.get (.bind (onDevice_ensures ?_)))
  generalize hentered : ({ m with
    scheduler, phase, device := m.device.callbackEntered } : Machine μ) = n
  have hn : Events n ∧ Idle n ∧ Room n ∧ n.phase = phase := by
    subst hentered
    have hidle : Idle { m with scheduler, phase, device := m.device.callbackEntered } :=
      ⟨rfl, rfl, rfl, rfl, hnone⟩
    exact ⟨⟨hscheduler, ⟨hregisters.channels, hregisters.operation, hregisters.fault⟩,
      .inl hidle⟩, hidle, ⟨hroom.cycle, hroom.eventId⟩, rfl⟩
  obtain ⟨hevents, hidle, hnroom, hphase⟩ := hn
  have hfinish : ∀ t : Machine μ, Moving n t →
      Ensures reevaluate t (fun _ u => Settled u ∧ u.phase = phase) (fun _ _ => False) := by
    intro t ht
    have htroom : Room t := by
      refine ⟨?_, ?_⟩
      · rw [ht.scheduler, ht.timing]
        exact hnroom.cycle
      · rw [ht.scheduler]
        exact hnroom.eventId
    refine (reevaluate_ensures (ht.events hevents) htroom ?_).mono
      (fun _ u hu => ⟨hu.1, hu.2.trans (ht.phase.trans hphase)⟩) fun _ _ h => h
    intro hpending
    rw [ht.samePlan.pending, hidle.pending] at hpending
    cases hpending
  have hstart : Moving n n := ⟨hevents.registers, ⟨rfl, rfl, rfl, rfl⟩, rfl, rfl, rfl⟩
  refine .ite (fun _ => hfinish n hstart) fun _ => ?_
  refine .bind ((transferUnits_ensures copy hevents hstart index _).mono ?_ fun _ _ h => h)
  intro moved t ht
  refine .ite ?_ ?_
  · rintro rfl
    refine .bind (onDevice_ensures (hfinish _ ?_))
    have ht : Moving n t := ht
    have hupdated := ht.registers.update index (f := fun value =>
      { value with
        externalDestinationProgression :=
          if value.pendingRequests = 0 then .addressMode
          else value.externalDestinationProgression }) fun h => ⟨h.count, h.control, h.onDemand⟩
    exact ⟨⟨hupdated.channels, hupdated.operation, hupdated.fault⟩,
      ⟨ht.samePlan.event, ht.samePlan.pending, ht.samePlan.channel, ht.samePlan.units⟩, ht.timing,
      ht.scheduler, ht.phase⟩
  · intro hfalse
    rw [if_neg hfalse] at ht
    exact .pure ⟨ht.1, ht.2.trans hphase⟩

/-! ## The scheduler -/

theorem SchedulerOk.phase_idle {phase : Phase}
    (h : SchedulerOk scheduler phase) (hidle : ¬ scheduler.advanceInProgress = true) :
    phase = .idle := by
  have hadvance := h.advance
  cases phase with
  | idle => rfl
  | loop a => exact absurd hadvance.guarded hidle
  | callback a => exact absurd hadvance.guarded hidle

theorem resetScheduler_ensures (hm : Settled m) (hroom : Room m) :
    Ensures resetScheduler m (fun _ t => Settled t) (fun _ t => Settled t) := by
  unfold resetScheduler
  refine .bind (.get (.ite (fun _ => .throw hm) fun hidle => .ite (fun _ => .throw hm) fun _ => ?_))
  refine .bind (.update (.bind (onDevice_ensures ?_)))
  have hphase := SchedulerOk.phase_idle hm.scheduler hidle
  have hoff : m.scheduler.advanceInProgress = false := by simpa using hidle
  generalize hreset : ({ m with
    scheduler :=
      { m.scheduler with
        events := ∅, eventKeys := ∅, currentCycle := 0, processedEventCount := 0 }
    resetGeneration := m.resetGeneration + 1
    device := m.device.withoutEvent } : Machine μ) = n
  have hscheduler : SchedulerOk n.scheduler n.phase := by
    subst hreset
    change SchedulerOk _ m.phase
    rw [hphase]
    refine ⟨⟨by simp, by simp, by simp, by simp, fun _ _ => Nat.zero_le _⟩, hoff, Nat.zero_le _,
      by simp, ?_⟩
    rintro a (ha | ha) <;> cases ha
  have hempty : Idle n := by
    subst hreset
    refine ⟨rfl, rfl, rfl, rfl, ?_⟩
    rintro key index ⟨kind, hheld⟩
    simp at hheld
  have hregisters : n.device.Registers := by
    subst hreset
    exact ⟨hm.registers.channels, hm.registers.operation, hm.registers.fault⟩
  have hnroom : Room n := by
    subst hreset
    refine ⟨?_, hroom.eventId⟩
    change 0 + maxDelay m.device.timing ≤ _
    have := hroom.cycle
    omega
  refine (reevaluate_ensures ⟨hscheduler, hregisters, .inl hempty⟩ hnroom ?_).mono
    (fun _ _ h => h.1) fun _ _ h => h.elim
  intro hpending
  rw [hempty.pending] at hpending
  cases hpending

/-- The numbers of the scheduler are far from their ends, also where an advance is going. -/
structure InRange (m : Machine μ) : Prop extends Room m where
  target : ∀ a, m.phase = .loop a →
    a.effectiveTarget + maxDelay m.device.timing ≤ Scheduler.uint64Max

/-- An event of another device fires. -/
theorem Settled.fired (hm : Settled m) {a a' : Advance} {key : EventKey}
    (hphase : m.phase = .loop a) (hmin : m.scheduler.events.minKey? = some key)
    (hdue : key.deadline ≤ a.effectiveTarget) (htarget : a'.effectiveTarget = a.effectiveTarget)
    (hcycle : a'.guestCycle = a.guestCycle) (hforeign : ∀ index, ¬ Holds m.scheduler key index) :
    Settled { m with scheduler := extractEvent m.scheduler key, phase := .callback a' } := by
  have hscheduler : SchedulerOk m.scheduler (.loop a) := hphase ▸ hm.scheduler
  refine hm.forward (hscheduler.fired hmin hdue htarget hcycle) ?_
  intro key' index
  rw [holds_erased (extractEvent_getElem? m.scheduler key)]
  constructor
  · exact fun h => h.2
  · intro hheld
    refine ⟨?_, hheld⟩
    rintro rfl
    exact hforeign index hheld

theorem advanceRound_settled (copy : MemoryPort μ) (hm : Settled m)
    (hrange : InRange m) {a : Advance} (hphase : m.phase = .loop a) :
    Settled (resultState (advanceRound copy a m)) := by
  have hscheduler : SchedulerOk m.scheduler (.loop a) := hphase ▸ hm.scheduler
  have hadvance : Advancing m.scheduler a := hscheduler.advance
  unfold advanceRound
  rcases loopHead_cases m.scheduler a with
    ⟨key, a', hhead, hmin, hdue, htarget, hcycle⟩ | ⟨result, hhead, -⟩ | ⟨result, hhead, -, hnone⟩
  · rw [hhead]
    dsimp only
    split
    · rename_i index kind hheld
      have hnoEvent : NoEvent (extractEvent m.scheduler key) := by
        intro key' index' h
        obtain ⟨hne, h⟩ := (holds_erased (extractEvent_getElem? m.scheduler key) key' index').mp h
        rcases hm.plan with hidle | ⟨planned, channel, hplanned⟩ | ⟨channel, hawaiting⟩
        · exact hidle.none key index ⟨kind, hheld⟩
        · exact hne ((hplanned.only key' index' h).trans
            (hplanned.only key index ⟨kind, hheld⟩).symm)
        · exact hawaiting.none key index ⟨kind, hheld⟩
      have hroom : Room { m with
          scheduler := extractEvent m.scheduler key, phase := .callback a' } := by
        refine ⟨?_, hrange.eventId⟩
        have htargetRoom := hrange.target a hphase
        change key.deadline + maxDelay m.device.timing ≤ Scheduler.uint64Max
        omega
      have hcallback := handleTransfer_ensures copy hm.registers
        (hscheduler.fired hmin hdue htarget hcycle) hnoEvent hroom index
      cases hresult : handleTransfer copy index
          { m with scheduler := extractEvent m.scheduler key, phase := .callback a' } with
      | error e t => exact (hcallback.of_error hresult).elim
      | ok _ t =>
        obtain ⟨ht, htphase⟩ := hcallback.of_ok hresult
        have hreturned : SchedulerOk t.scheduler (.callback a') := htphase ▸ ht.scheduler
        exact ht.forward hreturned.returned fun _ _ => Iff.rfl
    · rename_i hforeign
      refine hm.fired hphase hmin hdue htarget hcycle ?_
      rintro index ⟨kind, hheld⟩
      exact hforeign index kind hheld
  · rw [hhead]
    exact hm.forward hscheduler.leftHere fun _ _ => Iff.rfl
  · rw [hhead]
    have htarget : a.effectiveTarget ≤ Scheduler.uint64Max :=
      hadvance.requested.trans (hscheduler.target a (.inl rfl))
    exact hm.forward (hscheduler.left htarget (fun k hk => (hnone k hk).le) hadvance.budgeted)
      fun _ _ => Iff.rfl

theorem advanceBegins_settled (hm : Settled m)
    {result : Except SchedulerError (Advance × EventScheduler DmacCallback)}
    (hresult : ∀ a scheduler, result = .ok (a, scheduler) → ∃ target budget,
      beginAdvance m.scheduler target budget = .ok (a, scheduler) ∧ target ≤ Scheduler.uint64Max) :
    Settled (resultState (advanceBegins m result)) := by
  cases result with
  | error e => exact hm
  | ok value =>
    obtain ⟨a, scheduler⟩ := value
    obtain ⟨target, budget, hbegin, htarget⟩ := hresult a scheduler rfl
    obtain ⟨hscheduler, -⟩ := hm.scheduler.begun hbegin htarget
    obtain ⟨hsame, -⟩ := beginAdvance_spec hm.scheduler.consistent hbegin
    refine hm.forward hscheduler fun key index => ?_
    rw [hsame]
    exact Iff.rfl

theorem deviceScheduled_settled (hm : Settled m) {cycle : BitVec 64} {id : Nat}
    {device : Nat} {kind : SchedulerEventKind}
    (h : scheduleAt m.scheduler cycle.toNat (some (.device device)) kind = .ok (id, scheduler)) :
    Settled { m with scheduler } := by
  have hbound : cycle.toNat ≤ Scheduler.uint64Max := by
    have := cycle.isLt
    unfold Scheduler.uint64Max
    omega
  refine hm.forward (hm.scheduler.scheduled (scheduleAt_spec h) hbound) ?_
  intro key index
  rw [holds_scheduled h]
  constructor
  · rintro (⟨-, hforeign⟩ | ⟨-, hheld⟩)
    · cases hforeign
    · exact hheld
  · intro hheld
    refine .inr ⟨?_, hheld⟩
    -- The new event has an id that was not given out before.
    rintro rfl
    have hissued := hm.scheduler.consistent.issued _ hheld.mem
    have hfresh := (scheduleAt_spec h).id
    dsimp only at hissued hfresh
    omega

theorem deviceCancels_settled (hm : Settled m) (id : Nat) : Settled (deviceCancels m id) := by
  unfold deviceCancels
  split
  · rename_i key hkey
    split
    · rename_i device kind hheld
      refine hm.forward (hm.scheduler.cancelled id).1 ?_
      intro key' index
      rw [holds_erased (cancel_getElem? hkey)]
      constructor
      · exact fun h => h.2
      · intro h
        refine ⟨?_, h⟩
        rintro rfl
        obtain ⟨_, h⟩ := h
        rw [hheld] at h
        cases h
    · exact hm
  · exact hm

/-! ## Runs -/

/-- What an action must not do for the plan to stay exact. -/
def Action.Spares (m : Machine μ) : Action μ → Prop
  | .writeControl index value => ∀ i : Fin 4, i.val = index →
      KeepsAwaited m.device (m.device.updateChannel i fun channel => channel.writeControl value)
  | .writeOperation value => KeepsAwaited m.device (m.device.writeOperation value)
  | .finishExternalTransfer index => m.device.SparesFinish index
  | .completeExternalTransfer index bytes => m.device.SparesComplete index bytes
  | .restoreStatePassive state => state.PlansEligible m.device
  | _ => True

theorem Ensures.settled {α : Type} {x : DmacM μ α}
    (h : Ensures x m (fun _ t => Settled t) (fun _ t => Settled t)) :
    Settled (resultState (x m)) := by
  cases hx : x m with
  | ok a t => exact h.of_ok hx
  | error e t => exact h.of_error hx

theorem Ensures.discard {α : Type} {x : DmacM μ α}
    (h : Ensures x m (fun _ t => Settled t) (fun _ t => Settled t)) :
    Ensures (do let _ ← x) m (fun _ t => Settled t) (fun _ t => Settled t) :=
  .bind (h.mono (fun _ _ ht => .pure ht) fun _ _ ht => ht)

theorem callerAction_settled (hm : Settled m) (hroom : Room m)
    (action : Action μ) (hspares : action.Spares m) :
    Settled (resultState (callerAction m action)) := by
  cases action with
  | writeSource index value =>
    exact Ensures.settled (writeChannel_quiet hm hroom index
      (fun _ _ h => ⟨h.count, h.control, h.onDemand⟩) fun _ => rfl)
  | writeDestination index value =>
    exact Ensures.settled (writeChannel_quiet hm hroom index
      (fun _ _ h => ⟨h.count, h.control, h.onDemand⟩) fun _ => rfl)
  | writeCount index value =>
    refine Ensures.settled (writeChannel_quiet hm hroom index
      (fun _ _ h => ⟨?_, h.control, h.onDemand⟩) fun _ => rfl)
    rw [BitVec.le_def]
    change (value &&& transferCountMask).toNat ≤ _
    rw [BitVec.toNat_and]
    exact Nat.and_le_right
  | writeControl index value =>
    exact Ensures.settled (writeChannel_ensures hm hroom index
      (fun _ _ h => h.writeControl value) hspares)
  | writeOperation value => exact Ensures.settled (writeOperation_ensures hm hroom value hspares)
  | requestTransfer index requests progression =>
    exact Ensures.settled (requestTransfer_ensures hm hroom index requests progression)
  | requestOnDemandTransfer index =>
    exact Ensures.settled (Ensures.discard (requestOnDemandTransfer_ensures hm hroom index))
  | repeatOnDemandTransfer =>
    exact Ensures.settled (Ensures.discard (repeatOnDemandTransfer_ensures hm hroom))
  | validateExternalTransfer index source bytes unitSize expected =>
    exact Ensures.settled (Ensures.discard
      (validateExternalTransfer_ensures hm index source bytes unitSize expected))
  | progressExternalTransfer index bytes =>
    exact Ensures.settled (Ensures.discard (progressExternalTransfer_ensures hm index bytes))
  | finishExternalTransfer index =>
    exact Ensures.settled (Ensures.discard (finishExternalTransfer_ensures hm index hspares))
  | completeExternalTransfer index bytes =>
    exact Ensures.settled (completeExternalTransfer_ensures hm index bytes hspares)
  | reportExternalFault index reason unitSize =>
    exact Ensures.settled (reportExternalFault_ensures hm index reason unitSize)
  | signalNmi => exact Ensures.settled (signalNmi_ensures hm)
  | setExecutionMode mode => exact Ensures.settled (setExecutionMode_ensures hm hroom mode)
  | reset => exact Ensures.settled (resetDevice_ensures hm)
  | restoreStatePassive state => exact Ensures.settled (restoreStatePassive_ensures hm state hspares)
  | rehydrateScheduledEvent guestCycle channel token =>
    exact Ensures.settled (rehydrateScheduledEvent_ensures hm hroom guestCycle channel token)
  | resetScheduler => exact Ensures.settled (resetScheduler_ensures hm hroom)
  | advanceTo cycle budget =>
    refine advanceBegins_settled hm ?_
    intro a scheduler h
    exact ⟨_, _, h, by have := cycle.isLt; unfold Scheduler.uint64Max; omega⟩
  | advanceBy cycles budget =>
    refine advanceBegins_settled hm ?_
    intro a scheduler h
    unfold beginAdvanceBy at h
    split at h
    · cases h
    split at h
    · cases h
    · have hcycle := hm.scheduler.cycle
      exact ⟨_, _, h, by omega⟩
  | advanceRound => exact hm
  | deviceScheduleAt cycle id kind =>
    unfold callerAction
    dsimp only
    cases h : scheduleAt m.scheduler cycle.toNat (some (.device id)) kind with
    | error e => exact hm
    | ok result => exact deviceScheduled_settled hm h
  | deviceCancel id => exact deviceCancels_settled hm id
  | callbackReturns =>
    unfold callerAction
    dsimp only
    cases hphase : m.phase with
    | idle => exact hm
    | loop a => exact hm
    | callback a =>
      have hscheduler : SchedulerOk m.scheduler (.callback a) := hphase ▸ hm.scheduler
      exact hm.forward hscheduler.returned fun _ _ => Iff.rfl
  | callbackThrows =>
    unfold callerAction
    dsimp only
    cases hphase : m.phase with
    | idle => exact hm
    | loop a => exact hm
    | callback a => exact hm.forward hm.scheduler.leftHere fun _ _ => Iff.rfl
  | memoryChanges memory =>
    exact ⟨hm.toEvents.transfer rfl rfl ⟨rfl, rfl, rfl, rfl⟩ hm.registers, hm.active, hm.selected⟩

theorem step_settled (copy : MemoryPort μ) (hm : Settled m) (hrange : InRange m)
    (action : Action μ) (hspares : action.Spares m) : Settled (step copy m action) := by
  unfold step perform
  cases hphase : m.phase with
  | idle => exact callerAction_settled hm hrange.toRoom action hspares
  | callback a => exact callerAction_settled hm hrange.toRoom action hspares
  | loop a =>
    cases action with
    | advanceRound => exact advanceRound_settled copy hm hrange hphase
    | _ => exact hm

/-- Every step of the run finds room on the scheduler and spares the plan. -/
def SparesRun (copy : MemoryPort μ) (m : Machine μ) : List (Action μ) → Prop
  | [] => True
  | action :: rest => (InRange m ∧ action.Spares m) ∧ SparesRun copy (step copy m action) rest

theorem run_keeps (copy : MemoryPort μ) (hm : Settled m)
    {actions : List (Action μ)} (h : SparesRun copy m actions) : Settled (run copy m actions) := by
  induction actions generalizing m with
  | nil => exact hm
  | cons action rest ih =>
    obtain ⟨⟨hrange, hspares⟩, hrest⟩ := h
    exact ih (step_settled copy hm hrange action hspares) hrest

theorem create_settled {budget : Option Nat} {memory : μ} {timing : DmaTiming}
    {mode : DmaExecutionMode}
    (h : Machine.create budget memory timing mode = .ok m) : Settled m := by
  unfold Machine.create at h
  split at h
  · cases h
  · cases h
    refine settled_of_disabled ⟨by constructor <;> simp, rfl, Nat.zero_le _, by simp, ?_⟩
      (Sh4Dmac.Registers.initial _ rfl rfl rfl)
      ⟨rfl, rfl, rfl, rfl, ?_⟩ (Sh4Dmac.enabled_of_operation_eq_zero rfl)
    · rintro a (ha | ha) <;> cases ha
    · rintro key index ⟨kind, hheld⟩
      simp at hheld

end KatanaRecomp.Runtime.Dmac
