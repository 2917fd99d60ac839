import KatanaRecomp.Runtime.SchedulerInvariant

/-! # The guest-cycle budget

The budget of a run is armed once and clamps the target of every advance that
begins afterwards. An advance that has already begun keeps the target it was
given, so arming from inside one of its callbacks is the case to look at. -/
namespace KatanaRecomp.Runtime.Scheduler
variable {κ : Type}

/-! ## The operations -/

inductive BudgetError
  | zeroBudget | immutable | afterFirstAdvance | budgetInThePast | resetDuringAdvance
  | resetGenerationOverflow | restoreDuringAdvance | restoreBehindBudget

def setGuestCycleBudget (s : EventScheduler κ) (maximumCycle : Option (BitVec 64)) :
    Except BudgetError (EventScheduler κ) :=
  let maximumCycle := maximumCycle.map BitVec.toNat
  if maximumCycle = some 0 then .error .zeroBudget
  else if s.guestCycleBudget.isSome ∧ maximumCycle ≠ s.guestCycleBudget then .error .immutable
  else if s.guestCycleBudget.isNone ∧ maximumCycle.isSome ∧ s.currentCycle ≠ 0 then
    .error .afterFirstAdvance
  else if maximumCycle.any (· < s.currentCycle) then .error .budgetInThePast
  else .ok { s with guestCycleBudget := maximumCycle }

def trySetGuestCycleBudgetAfterCurrentCycle (s : EventScheduler κ) (guestCycles : BitVec 64) :
    Option Nat × EventScheduler κ :=
  if s.advanceInProgress || s.guestCycleBudget.isSome || guestCycles == 0 ||
      decide (guestCycles.toNat > uint64Max - s.currentCycle) then (none, s)
  else
    let budget := s.currentCycle + guestCycles.toNat
    (some budget, { s with guestCycleBudget := some budget })

def clear (s : EventScheduler κ) : EventScheduler κ := { s with events := ∅, eventKeys := ∅ }

def reset (s : EventScheduler κ) (resetGeneration : Nat) :
    Except BudgetError (Nat × EventScheduler κ) :=
  if s.advanceInProgress then .error .resetDuringAdvance
  else if resetGeneration = uint64Max then .error .resetGenerationOverflow
  else .ok (resetGeneration + 1, { clear s with currentCycle := 0, processedEventCount := 0 })

def restoreTimePassive (s : EventScheduler κ) (guestCycle : Nat) :
    Except BudgetError (EventScheduler κ) :=
  if s.advanceInProgress then .error .restoreDuringAdvance
  else if s.guestCycleBudget.any (· < guestCycle) then .error .restoreBehindBudget
  else .ok { clear s with currentCycle := guestCycle }

/-! ## Runs -/

/-- A run together with the generation that `reset` counts. -/
structure Session (κ : Type) where
  run : Run κ
  resetGeneration : Nat := 0

def Session.initial : Session κ := ⟨Run.initial none, 0⟩

inductive SessionAction (κ : Type)
  | plain (action : Action κ)
  | setGuestCycleBudget (maximumCycle : Option (BitVec 64))
  | trySetGuestCycleBudgetAfterCurrentCycle (guestCycles : BitVec 64)
  | clear
  | reset
  | restoreTimePassive (guestCycle : Nat)

/-- The run after a call of the caller; one that throws changes nothing. -/
def Session.update (c : Session κ) (s : EventScheduler κ) : Session κ :=
  { c with run := { c.run with scheduler := s, returned := none } }

/-- A budget that a callback arms does not lie before the target of the advance
that runs the callback. -/
def ArmsAhead (c : Session κ) : SessionAction κ → Prop
  | .setGuestCycleBudget (some maximumCycle) =>
    c.run.scheduler.guestCycleBudget = none →
      (∃ s', setGuestCycleBudget c.run.scheduler (some maximumCycle) = .ok s') →
        ∀ a, c.run.phase = .callback a → a.effectiveTarget ≤ maximumCycle.toNat
  | _ => True

/-- An advance in progress ends within the budget, and at it when it was clamped. -/
structure Clamped (s : EventScheduler κ) (a : Advance) : Prop where
  guarded : s.advanceInProgress = true
  budgeted : ∀ budget, s.guestCycleBudget = some budget → a.effectiveTarget ≤ budget
  exact : a.effectiveTarget ≠ a.guestCycle → s.guestCycleBudget = some a.effectiveTarget

def PhaseClamped (s : EventScheduler κ) : Phase → Prop
  | .idle => s.advanceInProgress = false
  | .loop a => Clamped s a
  | .callback a => Clamped s a

structure Within (c : Run κ) : Prop where
  representable : ∀ budget, c.scheduler.guestCycleBudget = some budget → budget ≤ uint64Max
  within : ∀ budget, c.scheduler.guestCycleBudget = some budget → c.scheduler.currentCycle ≤ budget
  phase : PhaseClamped c.scheduler c.phase
  reported : ∀ t result, c.returned = some (t, result) →
    result.status = .guestCycleBudgetExhausted →
    c.scheduler.guestCycleBudget = some c.scheduler.currentCycle

variable {s s' : EventScheduler κ}

theorem PhaseClamped.transfer {p : Phase} (h : PhaseClamped s p)
    (hguard : s'.advanceInProgress = s.advanceInProgress)
    (hbudget : s'.guestCycleBudget = s.guestCycleBudget) : PhaseClamped s' p := by
  cases p with
  | idle => exact hguard.trans h
  | loop a => exact ⟨hguard.trans h.guarded, hbudget ▸ h.budgeted, hbudget ▸ h.exact⟩
  | callback a => exact ⟨hguard.trans h.guarded, hbudget ▸ h.budgeted, hbudget ▸ h.exact⟩

variable {c : Run κ}

/-- A call that moves neither the clock nor the budget. -/
theorem Within.update (h : Within c) (hguard : s'.advanceInProgress = c.scheduler.advanceInProgress)
    (hbudget : s'.guestCycleBudget = c.scheduler.guestCycleBudget)
    (hclock : s'.currentCycle = c.scheduler.currentCycle) (cancelled : List Nat) :
    Within { c with scheduler := s', cancelled := cancelled, returned := none } where
  representable := by
    intro budget hb
    exact h.representable budget (hbudget ▸ hb)
  within := by
    intro budget hb
    show s'.currentCycle ≤ budget
    rw [hclock]
    exact h.within budget (hbudget ▸ hb)
  phase := h.phase.transfer hguard hbudget
  reported := fun _ _ hr => by cases hr

theorem cancel_keeps (s : EventScheduler κ) (id : Nat) :
    (cancel s id).2.advanceInProgress = s.advanceInProgress ∧
      (cancel s id).2.guestCycleBudget = s.guestCycleBudget ∧
      (cancel s id).2.currentCycle = s.currentCycle := by
  unfold cancel
  split <;> exact ⟨rfl, rfl, rfl⟩

theorem Within.afterSchedule (h : Within c) {r : Except SchedulerError (Nat × EventScheduler κ)}
    (hr : ∀ id s', r = .ok (id, s') → ∃ key, Scheduled c.scheduler s' key) :
    Within (c.afterSchedule r) := by
  cases r with
  | error e => exact h.update rfl rfl rfl c.cancelled
  | ok v =>
    obtain ⟨id, s'⟩ := v
    obtain ⟨key, hs⟩ := hr id s' rfl
    exact h.update hs.advanceInProgress hs.guestCycleBudget hs.currentCycle c.cancelled

theorem beginAdvance_clamped {t budget : Nat} {a : Advance}
    (h : beginAdvance s t budget = .ok (a, s')) :
    s' = { s with advanceInProgress := true } ∧ Clamped s' a := by
  unfold beginAdvance at h
  split at h
  · cases h
  · split at h
    · cases h
    · cases h
      refine ⟨rfl, rfl, ?_, ?_⟩
      · intro b hb
        simp only at hb
        simp only [hb]
        omega
      · cases hb : s.guestCycleBudget with
        | none => exact fun hne => absurd rfl hne
        | some b =>
          simp only
          intro hne
          rw [min_eq_right (by omega)]

theorem Within.afterBegin (h : Within c)
    {r : Except SchedulerError (Advance × EventScheduler κ)} (hr : ∀ a s', r = .ok (a, s') →
      s' = { c.scheduler with advanceInProgress := true } ∧ Clamped s' a) :
    Within (c.afterBegin r) := by
  cases r with
  | error e => exact h.update rfl rfl rfl c.cancelled
  | ok v =>
    obtain ⟨a, s'⟩ := v
    obtain ⟨rfl, ha⟩ := hr a s' rfl
    exact ⟨h.representable, h.within, ha, fun _ _ hr => by cases hr⟩

theorem Within.afterLoopHead {a : Advance} (h : Within c)
    (ha : Clamped c.scheduler a) (hret : c.returned = none) :
    Within (c.afterLoopHead a (loopHead c.scheduler a)) := by
  have finish : Within (c.afterLoopHead a (.returns
      ⟨if a.effectiveTarget = a.guestCycle then .reachedTarget else .guestCycleBudgetExhausted,
        a.processed, a.effectiveTarget⟩
      (endAdvance { c.scheduler with currentCycle := a.effectiveTarget }))) := by
    refine ⟨h.representable, ha.budgeted, rfl, ?_⟩
    intro t result hr hstatus
    cases hr
    refine ha.exact fun heq => ?_
    simp [heq] at hstatus
  unfold loopHead
  dsimp only
  split
  · exact finish
  · rename_i key _
    split
    · rename_i hdue
      split
      · refine ⟨h.representable, h.within, rfl, ?_⟩
        intro t result hr hstatus
        cases hr
        cases hstatus
      · refine ⟨h.representable, fun budget hb => hdue.trans (ha.budgeted budget hb),
          ⟨ha.guarded, ha.budgeted, ha.exact⟩, ?_⟩
        intro t result hr
        have hnone : (c.returned : Option (Nat × SchedulerAdvanceResult)) = some (t, result) := hr
        rw [hret] at hnone
        cases hnone
    · exact finish

theorem Within.step {c : Run κ} (h : Within c) (hrep : Reported c) (action : Action κ) :
    Within (step c action) := by
  cases hphase : c.phase.inCaller with
  | false =>
    cases hp : c.phase with
    | idle => rw [hp] at hphase; cases hphase
    | callback a => rw [hp] at hphase; cases hphase
    | loop a =>
      have ha : Clamped c.scheduler a := by
        have := h.phase
        rwa [hp] at this
      cases action with
      | loopHead =>
        simp only [Scheduler.step, hp, Phase.inCaller, Bool.false_eq_true, if_false]
        exact h.afterLoopHead ha (hrep hphase)
      | _ => simpa only [Scheduler.step, hp, Phase.inCaller, Bool.false_eq_true, if_false] using h
  | true =>
    cases action with
    | scheduleAt cycle callback kind =>
      simp only [Scheduler.step, hphase, if_true]
      exact h.afterSchedule fun id s' hr => ⟨_, scheduleAt_spec hr⟩
    | scheduleAfter cycles callback kind =>
      simp only [Scheduler.step, hphase, if_true]
      exact h.afterSchedule fun id s' hr => ⟨_, scheduleAfter_spec hr⟩
    | scheduleAtOrNow cycle callback kind =>
      simp only [Scheduler.step, hphase, if_true]
      exact h.afterSchedule fun id s' hr => ⟨_, scheduleAt_spec hr⟩
    | cancel id =>
      simp only [Scheduler.step, hphase, if_true]
      obtain ⟨hguard, hbudget, hclock⟩ := cancel_keeps c.scheduler id
      exact h.update hguard hbudget hclock _
    | advanceTo t budget =>
      simp only [Scheduler.step, hphase, if_true]
      exact h.afterBegin fun a s' hr => beginAdvance_clamped hr
    | advanceBy t budget =>
      simp only [Scheduler.step, hphase, if_true]
      refine h.afterBegin fun a s' hr => ?_
      unfold beginAdvanceBy at hr
      split at hr
      · cases hr
      · split at hr
        · cases hr
        · exact beginAdvance_clamped hr
    | loopHead => simpa only [Scheduler.step, hphase, if_true] using h
    | callbackReturns =>
      cases hp : c.phase with
      | callback a =>
        simp only [Scheduler.step, hp, Phase.inCaller, if_true]
        have ha := h.phase
        rw [hp] at ha
        exact ⟨h.representable, h.within, ha, fun _ _ hr => by cases hr⟩
      | _ => simpa only [Scheduler.step, hp, Phase.inCaller, if_true, Bool.false_eq_true,
          if_false] using h
    | callbackThrows =>
      cases hp : c.phase with
      | callback a =>
        simp only [Scheduler.step, hp, Phase.inCaller, if_true]
        exact ⟨h.representable, h.within, rfl, fun _ _ hr => by cases hr⟩
      | _ => simpa only [Scheduler.step, hp, Phase.inCaller, if_true, Bool.false_eq_true,
          if_false] using h

/-! ## The operations on the budget -/

variable {maximumCycle : Option (BitVec 64)}

theorem setGuestCycleBudget_spec (h : setGuestCycleBudget s maximumCycle = .ok s') :
    s' = { s with guestCycleBudget := maximumCycle.map BitVec.toNat } ∧
      (s.guestCycleBudget = none ∨ s' = s) ∧
      ∀ budget, s'.guestCycleBudget = some budget → s.currentCycle ≤ budget := by
  unfold setGuestCycleBudget at h
  dsimp only at h
  split at h
  · cases h
  · split at h
    · cases h
    · rename_i hsame
      split at h
      · cases h
      · split at h
        · cases h
        · rename_i hpast
          cases h
          refine ⟨rfl, ?_, ?_⟩
          · cases hb : s.guestCycleBudget with
            | none => exact .inl rfl
            | some budget =>
              have heq : maximumCycle.map BitVec.toNat = some budget := by
                by_contra hne
                exact hsame ⟨by rw [hb]; rfl, by rw [hb]; exact hne⟩
              right
              rw [heq, ← hb]
          · intro budget hb
            rw [show maximumCycle.map BitVec.toNat = some budget from hb] at hpast
            simpa using hpast

variable {c : Session κ}

section
variable (h : Within c.run)
include h

theorem Within.setGuestCycleBudget (hphase : c.run.phase.inCaller = true)
    (harms : ArmsAhead c (.setGuestCycleBudget maximumCycle))
    (hset : setGuestCycleBudget c.run.scheduler maximumCycle = .ok s') :
    Within (c.update s').run := by
  obtain ⟨heq, hnone | hsame, hpast⟩ := setGuestCycleBudget_spec hset
  · refine ⟨?_, ?_, ?_, fun _ _ hr => by cases hr⟩
    · intro budget hb
      have hb : s'.guestCycleBudget = some budget := hb
      rw [heq] at hb
      obtain ⟨m, rfl, rfl⟩ := Option.map_eq_some_iff.mp hb
      have := m.isLt
      unfold uint64Max
      omega
    · intro budget hb
      have hclock : s'.currentCycle = c.run.scheduler.currentCycle := by rw [heq]
      show s'.currentCycle ≤ budget
      rw [hclock]
      exact hpast budget hb
    · have hold := h.phase
      have hguard : s'.advanceInProgress = c.run.scheduler.advanceInProgress := by rw [heq]
      show PhaseClamped s' c.run.phase
      cases hp : c.run.phase with
      | idle =>
        rw [hp] at hold
        exact hguard.trans hold
      | loop a =>
        rw [hp] at hphase
        cases hphase
      | callback a =>
        rw [hp] at hold
        -- without a budget so far the target is the requested cycle
        have htarget : a.effectiveTarget = a.guestCycle := by
          by_contra hne
          have := hold.exact hne
          rw [hnone] at this
          cases this
        refine ⟨hguard.trans hold.guarded, ?_, fun hne => absurd htarget hne⟩
        intro budget hb
        rw [heq] at hb
        obtain ⟨m, rfl, rfl⟩ := Option.map_eq_some_iff.mp hb
        exact harms hnone ⟨s', hset⟩ a hp
  · rw [hsame]
    exact h.update rfl rfl rfl c.run.cancelled

end

theorem minKey?_singleton (key : EventKey) (event : ScheduledEvent κ) :
    ((∅ : Std.TreeMap EventKey (ScheduledEvent κ) EventKey.compare).insert key event).minKey? =
      some key := by
  simp [Std.TreeMap.minKey?_insert]

theorem minKey?_erase_singleton (key : EventKey) (event : ScheduledEvent κ) :
    (((∅ : Std.TreeMap EventKey (ScheduledEvent κ) EventKey.compare).insert key event).erase
      key).minKey? = none := by
  rw [Std.TreeMap.minKey?_eq_none_iff, Std.TreeMap.isEmpty_iff_forall_not_mem]
  intro k hk
  obtain ⟨hne, hk⟩ := EventKey.mem_erase.mp hk
  rcases EventKey.mem_insert.mp hk with rfl | hk
  · exact hne rfl
  · simp at hk

end KatanaRecomp.Runtime.Scheduler
