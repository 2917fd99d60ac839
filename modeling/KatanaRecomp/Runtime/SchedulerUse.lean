import KatanaRecomp.Runtime.SchedulerInvariant

/-! # A scheduler in a device's hands

What a device that schedules and cancels its own events needs of the scheduler:
it is consistent, its phase is one of an advance that can go on, and all its
cycles are 64-bit numbers. -/
namespace KatanaRecomp.Runtime.Scheduler
variable {κ : Type}

/-! ## What an event calls -/

variable {key : EventKey}

theorem compare_eq_iff (k : EventKey) : key.compare k = .eq ↔ k = key := by
  rw [Std.LawfulEqCmp.compare_eq_iff_eq, eq_comm]

theorem scheduleAt_getElem? {s s' : EventScheduler κ} {cycle id : Nat} {callback : κ}
    {kind : SchedulerEventKind} (h : scheduleAt s cycle (some callback) kind = .ok (id, s'))
    (k : EventKey) :
    s'.events[k]? = if k = ⟨cycle, id⟩ then some ⟨callback, kind⟩ else s.events[k]? := by
  unfold scheduleAt at h
  dsimp only at h
  split at h
  · cases h
  split at h
  · cases h
  split at h
  · cases h
  split at h
  · cases h
  · cases h
    rw [Std.TreeMap.getElem?_insert]
    exact if_congr (compare_eq_iff k) rfl rfl

theorem erase_events_getElem? (s : EventScheduler κ) (key k : EventKey) :
    (s.events.erase key)[k]? = if k = key then none else s.events[k]? := by
  rw [Std.TreeMap.getElem?_erase]
  exact if_congr (compare_eq_iff k) rfl rfl

theorem extractEvent_getElem? (s : EventScheduler κ) (key k : EventKey) :
    (extractEvent s key).events[k]? = if k = key then none else s.events[k]? :=
  erase_events_getElem? s key k

theorem cancel_getElem? {s : EventScheduler κ} {id : Nat}
    (h : s.eventKeys[id]? = some key) (k : EventKey) :
    (cancel s id).2.events[k]? = if k = key then none else s.events[k]? := by
  unfold cancel
  rw [h]
  exact erase_events_getElem? s key k

/-- The scheduler is consistent and all its cycles are 64-bit numbers. -/
structure SchedulerOk (scheduler : EventScheduler κ) (phase : Phase) : Prop where
  consistent : Consistent scheduler
  advance : PhaseOk scheduler phase
  cycle : scheduler.currentCycle ≤ uint64Max
  deadlines : ∀ key ∈ scheduler.events, key.deadline ≤ uint64Max
  target : ∀ a, phase = .loop a ∨ phase = .callback a → a.guestCycle ≤ uint64Max

namespace SchedulerOk
variable {scheduler scheduler' : EventScheduler κ} {phase : Phase} (h : SchedulerOk scheduler phase)
include h

theorem scheduled
    (hscheduled : Scheduled scheduler scheduler' key) (hdeadline : key.deadline ≤ uint64Max) :
    SchedulerOk scheduler' phase where
  consistent := h.consistent.scheduled hscheduled
  advance := h.advance.transfer hscheduled.advanceInProgress hscheduled.currentCycle
    hscheduled.guestCycleBudget
  cycle := hscheduled.currentCycle ▸ h.cycle
  deadlines := by
    intro k hk
    rcases (hscheduled.events k).mp hk with rfl | hk
    · exact hdeadline
    · exact h.deadlines k hk
  target := h.target

theorem cancelled (id : Nat) : SchedulerOk (cancel scheduler id).2 phase ∧
      (cancel scheduler id).2.currentCycle = scheduler.currentCycle := by
  cases hcancel : cancel scheduler id with
  | mk found scheduler' =>
    cases found with
    | false =>
      rw [cancel_missing hcancel]
      exact ⟨h, rfl⟩
    | true =>
      obtain ⟨key, -, hremoved, hcycle⟩ := cancel_spec h.consistent hcancel
      have hkept : ∀ k ∈ scheduler'.events, k ∈ scheduler.events :=
        fun k hk => ((hremoved.events k).mp hk).2
      refine ⟨⟨?_, ?_, hcycle ▸ h.cycle, fun k hk => h.deadlines k (hkept k hk), h.target⟩, hcycle⟩
      · refine h.consistent.removed hremoved ?_ ?_
        · intro k hk
          rw [hcycle]
          exact h.consistent.notPast k (hkept k hk)
        · rw [hcycle]
          exact h.consistent.withinBudget
      · exact h.advance.transfer hremoved.advanceInProgress hcycle hremoved.guestCycleBudget

/-- The only thing that stops a deadline that is not in the past. -/
theorem scheduleAt_error {cycle : Nat} {callback : κ}
    {kind : SchedulerEventKind} {e : SchedulerError} (hcycle : scheduler.currentCycle ≤ cycle)
    (herror : scheduleAt scheduler cycle (some callback) kind = .error e) :
    e = .eventIdOverflow := by
  unfold scheduleAt at herror
  dsimp only at herror
  rw [if_neg (by omega)] at herror
  split at herror
  · cases herror
    rfl
  · rw [if_neg, if_neg] at herror
    · cases herror
    · intro hmem
      obtain ⟨key, hkey⟩ := mem_eventKeys_iff.mp hmem
      obtain ⟨hid, hevent⟩ := h.consistent.pending _ key hkey
      have := h.consistent.issued key hevent
      omega
    · intro hmem
      have := h.consistent.issued _ hmem
      simp at this

/-- Leaving an advance, with the clock moved as far as nothing pending forbids. -/
theorem left {now : Nat} (hnow : now ≤ uint64Max)
    (hpending : ∀ key ∈ scheduler.events, now ≤ key.deadline)
    (hbudget : ∀ budget, scheduler.guestCycleBudget = some budget → now ≤ budget) :
    SchedulerOk (endAdvance { scheduler with currentCycle := now }) .idle where
  consistent := ⟨h.consistent.indexed, h.consistent.pending, hpending, h.consistent.issued, hbudget⟩
  advance := rfl
  cycle := hnow
  deadlines := h.deadlines
  target := by
    rintro a (ha | ha) <;> cases ha

theorem leftHere : SchedulerOk (endAdvance scheduler) .idle :=
  h.left h.cycle h.consistent.notPast h.consistent.withinBudget

theorem begun {a : Advance} {target budget : Nat}
    (hbegin : beginAdvance scheduler target budget = .ok (a, scheduler'))
    (htarget : target ≤ uint64Max) :
    SchedulerOk scheduler' (.loop a) ∧ scheduler'.currentCycle = scheduler.currentCycle := by
  obtain ⟨hscheduler, hadvancing⟩ := beginAdvance_spec h.consistent hbegin
  have hcycle : a.guestCycle = target := by
    unfold beginAdvance at hbegin
    split at hbegin
    · cases hbegin
    split at hbegin
    · cases hbegin
    · cases hbegin
      rfl
  subst hscheduler
  refine ⟨⟨⟨h.consistent.indexed, h.consistent.pending, h.consistent.notPast,
    h.consistent.issued, h.consistent.withinBudget⟩, hadvancing, h.cycle, h.deadlines, ?_⟩, rfl⟩
  rintro a' (ha | ha) <;> cases ha
  rw [hcycle]
  exact htarget

omit h

theorem fired {a a' : Advance} (h : SchedulerOk scheduler (.loop a))
    (hmin : scheduler.events.minKey? = some key) (hdue : key.deadline ≤ a.effectiveTarget)
    (htarget : a'.effectiveTarget = a.effectiveTarget) (hcycle : a'.guestCycle = a.guestCycle) :
    SchedulerOk (extractEvent scheduler key) (.callback a') := by
  obtain ⟨hmem, hleast⟩ := EventKey.minKey?_spec hmin
  have hremoved := extractEvent_spec hmem
  have hadvance : Advancing scheduler a := h.advance
  have hkept : ∀ k ∈ (extractEvent scheduler key).events, k ∈ scheduler.events :=
    fun k hk => ((hremoved.events k).mp hk).2
  refine ⟨h.consistent.removed hremoved ?_ ?_, ?_, h.deadlines key hmem,
    fun k hk => h.deadlines k (hkept k hk), ?_⟩
  · intro k hk
    change key.deadline ≤ k.deadline
    rcases hleast k (hkept k hk) with rfl | hbefore
    · exact le_rfl
    · unfold EventKey.Before at hbefore
      omega
  · intro budget hbudget
    exact hdue.trans (hadvance.budgeted budget hbudget)
  · refine ⟨hadvance.guarded, ?_, ?_, ?_⟩
    · rw [htarget]
      exact hdue
    · rw [htarget, hcycle]
      exact hadvance.requested
    · intro budget hbudget
      rw [htarget]
      exact hadvance.budgeted budget hbudget
  · rintro b (hb | hb) <;> cases hb
    rw [hcycle]
    exact h.target a (.inl rfl)

/-- A callback has returned into its advance. -/
theorem returned {a : Advance} (h : SchedulerOk scheduler (.callback a)) :
    SchedulerOk scheduler (.loop a) := by
  refine ⟨h.consistent, h.advance, h.cycle, h.deadlines, ?_⟩
  rintro b (hb | hb) <;> cases hb
  exact h.target a (.inr rfl)

end SchedulerOk
end KatanaRecomp.Runtime.Scheduler
