import KatanaRecomp.Runtime.Scheduler

/-! # What holds along every run of the scheduler

One invariant carries the ordering law: every fired key lies before every
pending key. `schedule` keeps it because a new id is larger than every id in
use and its deadline is not in the past, `loopHead` because it fires the least
pending key. The other fields say what that argument reads. -/
namespace KatanaRecomp.Runtime.Scheduler
open Std
variable {κ : Type}

namespace EventKey

instance : TransCmp compare := inferInstanceAs (TransCmp (compareLex _ _))

instance : LawfulEqCmp compare where
  eq_of_compare {a b} h := by
    obtain ⟨da, ia⟩ := a
    obtain ⟨db, ib⟩ := b
    simp [compare, compareLex, compareOn] at h
    simp_all

theorem compare_isLE {a b : EventKey} (h : (compare a b).isLE) : a = b ∨ Before a b := by
  obtain ⟨da, ia⟩ := a
  obtain ⟨db, ib⟩ := b
  simp only [compare, compareLex, compareOn, Ordering.isLE_then_iff_and, Nat.isLE_compare,
    Nat.compare_eq_lt] at h
  simp only [mk.injEq, Before]
  omega

theorem mem_insert {t : TreeMap EventKey (ScheduledEvent κ) compare} {k a : EventKey}
    {v : ScheduledEvent κ} : a ∈ t.insert k v ↔ a = k ∨ a ∈ t := by
  rw [TreeMap.mem_insert, LawfulEqCmp.compare_eq_iff_eq, eq_comm]

theorem mem_erase {t : TreeMap EventKey (ScheduledEvent κ) compare} {k a : EventKey} :
    a ∈ t.erase k ↔ a ≠ k ∧ a ∈ t := by
  rw [TreeMap.mem_erase, Ne, LawfulEqCmp.compare_eq_iff_eq, eq_comm]

/-- The event at `begin()` is pending and every other pending event lies after it. -/
theorem minKey?_spec {t : TreeMap EventKey (ScheduledEvent κ) compare} {k : EventKey}
    (h : t.minKey? = some k) : k ∈ t ∧ ∀ a ∈ t, a = k ∨ Before k a := by
  obtain ⟨hk, hle⟩ := TreeMap.minKey?_eq_some_iff_mem_and_forall.mp h
  refine ⟨hk, fun a ha => ?_⟩
  rcases compare_isLE (hle a ha) with rfl | hb
  · exact .inl rfl
  · exact .inr hb

theorem minKey?_none {t : TreeMap EventKey (ScheduledEvent κ) compare}
    (h : t.minKey? = none) (a : EventKey) : a ∉ t :=
  TreeMap.isEmpty_iff_forall_not_mem.mp (TreeMap.minKey?_eq_none_iff.mp h) a

end EventKey

/-- The two containers agree, and nothing pending lies in the past. -/
structure Consistent (s : EventScheduler κ) : Prop where
  indexed : ∀ key ∈ s.events, s.eventKeys[key.id]? = some key
  pending : ∀ id key, s.eventKeys[id]? = some key → key.id = id ∧ key ∈ s.events
  notPast : ∀ key ∈ s.events, s.currentCycle ≤ key.deadline
  issued : ∀ key ∈ s.events, key.id < s.nextEventId
  withinBudget : ∀ budget, s.guestCycleBudget = some budget → s.currentCycle ≤ budget

/-- What the locals of an advance in progress satisfy. -/
structure Advancing (s : EventScheduler κ) (a : Advance) : Prop where
  guarded : s.advanceInProgress = true
  ahead : s.currentCycle ≤ a.effectiveTarget
  requested : a.effectiveTarget ≤ a.guestCycle
  budgeted : ∀ budget, s.guestCycleBudget = some budget → a.effectiveTarget ≤ budget

def PhaseOk (s : EventScheduler κ) : Phase → Prop
  | .idle => s.advanceInProgress = false
  | .loop a => Advancing s a
  | .callback a => Advancing s a

structure Invariant (c : Run κ) : Prop where
  consistent : Consistent c.scheduler
  phase : PhaseOk c.scheduler c.phase
  firedSorted : c.fired.Pairwise EventKey.Before
  firedBeforePending : ∀ f ∈ c.fired, ∀ key ∈ c.scheduler.events, f.Before key
  firedPast : ∀ f ∈ c.fired, f.deadline ≤ c.scheduler.currentCycle
  firedIssued : ∀ f ∈ c.fired, f.id < c.scheduler.nextEventId
  firedOnce : (c.fired.map EventKey.id).Nodup
  firedGone : ∀ f ∈ c.fired, f.id ∉ c.scheduler.eventKeys
  cancelledIssued : ∀ id ∈ c.cancelled, id < c.scheduler.nextEventId
  cancelledGone : ∀ id ∈ c.cancelled, id ∉ c.scheduler.eventKeys
  cancelledUnfired : ∀ id ∈ c.cancelled, ∀ f ∈ c.fired, f.id ≠ id
  returned : ∀ t result, c.returned = some (t, result) → result.status = .reachedTarget →
    ∀ key ∈ c.scheduler.events, t < key.deadline

/-! ## What each operation does -/

/-- A successful `scheduleAt` issues the next id and adds exactly its key. -/
structure Scheduled (s s' : EventScheduler κ) (key : EventKey) : Prop where
  id : key.id = s.nextEventId
  deadline : s.currentCycle ≤ key.deadline
  nextEventId : s'.nextEventId = s.nextEventId + 1
  events : ∀ k, k ∈ s'.events ↔ k = key ∨ k ∈ s.events
  eventKeys : ∀ i, s'.eventKeys[i]? = if i = key.id then some key else s.eventKeys[i]?
  currentCycle : s'.currentCycle = s.currentCycle
  guestCycleBudget : s'.guestCycleBudget = s.guestCycleBudget
  advanceInProgress : s'.advanceInProgress = s.advanceInProgress

variable {s s' : EventScheduler κ} {kind : SchedulerEventKind} {callback : Option κ}

theorem scheduleAt_spec {cycle id : Nat} (h : scheduleAt s cycle callback kind = .ok (id, s')) :
    Scheduled s s' ⟨cycle, id⟩ := by
  unfold scheduleAt at h
  cases callback with
  | none => cases h
  | some callback =>
    dsimp only at h
    split at h
    · cases h
    · rename_i hpast
      split at h
      · cases h
      · split at h
        · cases h
        · split at h
          · cases h
          · cases h
            refine ⟨rfl, by simpa using hpast, rfl, fun k => EventKey.mem_insert, ?_, rfl, rfl, rfl⟩
            intro i
            rw [HashMap.getElem?_insert]
            by_cases hi : i = s.nextEventId
            · simp [hi]
            · simp [hi, Ne.symm hi]

theorem scheduleAfter_spec {cycles id : Nat}
    (h : scheduleAfter s cycles callback kind = .ok (id, s')) :
    Scheduled s s' ⟨s.currentCycle + cycles, id⟩ := by
  unfold scheduleAfter at h
  split at h
  · cases h
  · exact scheduleAt_spec h

/-- A successful `cancel` removes exactly the key of that id. -/
structure Removed (s s' : EventScheduler κ) (key : EventKey) : Prop where
  was : key ∈ s.events
  nextEventId : s'.nextEventId = s.nextEventId
  events : ∀ k, k ∈ s'.events ↔ k ≠ key ∧ k ∈ s.events
  eventKeys : ∀ i, s'.eventKeys[i]? = if i = key.id then none else s.eventKeys[i]?
  guestCycleBudget : s'.guestCycleBudget = s.guestCycleBudget
  advanceInProgress : s'.advanceInProgress = s.advanceInProgress

theorem erase_getElem? (m : HashMap Nat EventKey) (k i : Nat) :
    (m.erase k)[i]? = if i = k then none else m[i]? := by
  rw [HashMap.getElem?_erase]
  by_cases hi : i = k
  · simp [hi]
  · simp [hi, Ne.symm hi]

variable {id : Nat}

theorem cancel_spec (hs : Consistent s) (h : cancel s id = (true, s')) :
    ∃ key, key.id = id ∧ Removed s s' key ∧ s'.currentCycle = s.currentCycle := by
  unfold cancel at h
  split at h
  · cases h
  · rename_i key hkey
    cases h
    obtain ⟨hid, hmem⟩ := hs.pending id key hkey
    refine ⟨key, hid, ⟨hmem, rfl, fun k => EventKey.mem_erase, ?_, rfl, rfl⟩, rfl⟩
    intro i
    rw [hid]
    exact erase_getElem? s.eventKeys id i

theorem cancel_missing (h : cancel s id = (false, s')) : s' = s := by
  unfold cancel at h
  split at h
  · cases h; rfl
  · cases h

variable {key : EventKey}

theorem extractEvent_spec {s : EventScheduler κ} (hk : key ∈ s.events) :
    Removed s (extractEvent s key) key :=
  ⟨hk, rfl, fun _ => EventKey.mem_erase, erase_getElem? s.eventKeys key.id, rfl, rfl⟩

/-- The three ways the head of the loop goes on. -/
theorem loopHead_cases (s : EventScheduler κ) (a : Advance) :
    (∃ key a', loopHead s a = .fire key a' (extractEvent s key) ∧
      s.events.minKey? = some key ∧ key.deadline ≤ a.effectiveTarget ∧
      a'.effectiveTarget = a.effectiveTarget ∧ a'.guestCycle = a.guestCycle) ∨
    (∃ result, loopHead s a = .returns result (endAdvance s) ∧
      result.status = .eventBudgetExhausted) ∨ (∃ result, loopHead s a =
        .returns result (endAdvance { s with currentCycle := a.effectiveTarget }) ∧
      (result.status = .reachedTarget → a.effectiveTarget = a.guestCycle) ∧
      ∀ key ∈ s.events, a.effectiveTarget < key.deadline) := by
  unfold loopHead
  cases hmin : s.events.minKey? with
  | none =>
    refine .inr (.inr ⟨_, rfl, ?_, fun key hk => absurd hk (EventKey.minKey?_none hmin key)⟩)
    intro h
    by_contra hne
    simp [hne] at h
  | some key =>
    obtain ⟨_, hleast⟩ := EventKey.minKey?_spec hmin
    dsimp only
    split
    · rename_i hle
      split
      · exact .inr (.inl ⟨_, rfl, rfl⟩)
      · exact .inl ⟨key, _, rfl, rfl, hle, rfl, rfl⟩
    · rename_i hlt
      refine .inr (.inr ⟨_, rfl, ?_, ?_⟩)
      · intro h
        by_contra hne
        simp [hne] at h
      · intro k hk
        rcases hleast k hk with rfl | hb
        · omega
        · unfold EventKey.Before at hb
          omega

/-! ## Preservation -/

theorem mem_eventKeys_iff {m : HashMap Nat EventKey} {i : Nat} : i ∈ m ↔ ∃ k, m[i]? = some k := by
  rw [HashMap.mem_iff_isSome_getElem?, Option.isSome_iff_exists]

theorem Consistent.scheduled (hs : Consistent s) (h : Scheduled s s' key) : Consistent s' := by
  have fresh : ∀ k ∈ s.events, k.id ≠ key.id := fun k hk => by
    have := hs.issued k hk
    rw [h.id]
    omega
  constructor
  · intro k hk
    rcases (h.events k).mp hk with rfl | hk
    · rw [h.eventKeys, if_pos rfl]
    · rw [h.eventKeys, if_neg (fresh k hk)]
      exact hs.indexed k hk
  · intro i k hik
    rw [h.eventKeys] at hik
    split at hik
    · cases hik
      exact ⟨by simp_all, (h.events key).mpr (.inl rfl)⟩
    · obtain ⟨hid, hk⟩ := hs.pending i k hik
      exact ⟨hid, (h.events k).mpr (.inr hk)⟩
  · intro k hk
    rw [h.currentCycle]
    rcases (h.events k).mp hk with rfl | hk
    · exact h.deadline
    · exact hs.notPast k hk
  · intro k hk
    rw [h.nextEventId]
    rcases (h.events k).mp hk with rfl | hk
    · rw [h.id]
      omega
    · have := hs.issued k hk
      omega
  · rw [h.guestCycleBudget, h.currentCycle]
    exact hs.withinBudget

/-- Removing a key keeps the containers in agreement; the clock may move as
long as it passes no pending event and stays within the budget. -/
theorem Consistent.removed (hs : Consistent s)
    (h : Removed s s' key) (hclock : ∀ k ∈ s'.events, s'.currentCycle ≤ k.deadline)
    (hbudget : ∀ budget, s.guestCycleBudget = some budget → s'.currentCycle ≤ budget) :
    Consistent s' := by
  have other : ∀ k ∈ s'.events, k.id ≠ key.id := fun k hk hid => by
    obtain ⟨hne, hk⟩ := (h.events k).mp hk
    have hk' := hs.indexed k hk
    rw [hid, hs.indexed key h.was] at hk'
    exact hne (Option.some.inj hk').symm
  constructor
  · intro k hk
    rw [h.eventKeys, if_neg (other k hk)]
    exact hs.indexed k ((h.events k).mp hk).2
  · intro i k hik
    rw [h.eventKeys] at hik
    split at hik
    · cases hik
    · rename_i hi
      obtain ⟨hid, hk⟩ := hs.pending i k hik
      exact ⟨hid, (h.events k).mpr ⟨by rintro rfl; exact hi hid.symm, hk⟩⟩
  · exact hclock
  · intro k hk
    rw [h.nextEventId]
    exact hs.issued k ((h.events k).mp hk).2
  · rw [h.guestCycleBudget]
    exact hbudget

theorem Scheduled.gone (h : Scheduled s s' key)
    {i : Nat} (hi : i < s.nextEventId) (hgone : i ∉ s.eventKeys) : i ∉ s'.eventKeys := by
  rw [mem_eventKeys_iff] at hgone ⊢
  have hid := h.id
  rw [h.eventKeys, if_neg (by omega)]
  exact hgone

theorem Removed.gone (h : Removed s s' key)
    {i : Nat} (hgone : i ∉ s.eventKeys) : i ∉ s'.eventKeys := by
  rw [mem_eventKeys_iff] at hgone ⊢
  rw [h.eventKeys]
  split
  · simp
  · exact hgone

theorem Removed.gone_self (h : Removed s s' key) : key.id ∉ s'.eventKeys := by
  rw [mem_eventKeys_iff, h.eventKeys, if_pos rfl]
  simp

theorem PhaseOk.transfer {p : Phase} (h : PhaseOk s p)
    (hguard : s'.advanceInProgress = s.advanceInProgress)
    (hclock : s'.currentCycle = s.currentCycle)
    (hbudget : s'.guestCycleBudget = s.guestCycleBudget) : PhaseOk s' p := by
  cases p with
  | idle => exact hguard.trans h
  | loop a =>
    exact ⟨hguard.trans h.guarded, hclock ▸ h.ahead, h.requested, by rw [hbudget]; exact h.budgeted⟩
  | callback a =>
    exact ⟨hguard.trans h.guarded, hclock ▸ h.ahead, h.requested, by rw [hbudget]; exact h.budgeted⟩

variable {c : Run κ}

section
variable (h : Invariant c)
include h

/-- Nothing but the report of the last advance is forgotten. -/
theorem Invariant.forget : Invariant { c with returned := none } :=
  { h with returned := fun _ _ hr => by cases hr }

theorem Invariant.scheduled (hs : Scheduled c.scheduler s' key) :
    Invariant { c with scheduler := s', returned := none } where
  consistent := h.consistent.scheduled hs
  phase := h.phase.transfer hs.advanceInProgress hs.currentCycle hs.guestCycleBudget
  firedSorted := h.firedSorted
  firedBeforePending := by
    intro f hf k hk
    rcases (hs.events k).mp hk with rfl | hk
    · have hd := h.firedPast f hf
      have hi := h.firedIssued f hf
      have hdk := hs.deadline
      have hik := hs.id
      unfold EventKey.Before
      omega
    · exact h.firedBeforePending f hf k hk
  firedPast := by
    intro f hf
    rw [hs.currentCycle]
    exact h.firedPast f hf
  firedIssued := by
    intro f hf
    have := h.firedIssued f hf
    rw [hs.nextEventId]
    omega
  firedOnce := h.firedOnce
  firedGone := fun f hf => hs.gone (h.firedIssued f hf) (h.firedGone f hf)
  cancelledIssued := by
    intro i hi
    have := h.cancelledIssued i hi
    rw [hs.nextEventId]
    omega
  cancelledGone := fun i hi => hs.gone (h.cancelledIssued i hi) (h.cancelledGone i hi)
  cancelledUnfired := h.cancelledUnfired
  returned := fun _ _ hr => by cases hr

theorem Invariant.afterSchedule {r : Except SchedulerError (Nat × EventScheduler κ)}
    (hr : ∀ id s', r = .ok (id, s') → ∃ key, Scheduled c.scheduler s' key) :
    Invariant (c.afterSchedule r) := by
  cases r with
  | error e => exact h.forget
  | ok v =>
    obtain ⟨id, s'⟩ := v
    obtain ⟨key, hs⟩ := hr id s' rfl
    exact h.scheduled hs

theorem Invariant.cancelled {found : Bool}
    (hc : cancel c.scheduler id = (found, s')) :
    Invariant { c with
      scheduler := s'
      cancelled := if found then id :: c.cancelled else c.cancelled
      returned := none } := by
  cases found with
  | false =>
    cases cancel_missing hc
    exact h.forget
  | true =>
    obtain ⟨key, hid, hrem, hclock⟩ := cancel_spec h.consistent hc
    have hpending := h.consistent.indexed key hrem.was
    have hunfired : ∀ f ∈ c.fired, f.id ≠ id := fun f hf he =>
      h.firedGone f hf (mem_eventKeys_iff.mpr ⟨key, by rw [he, ← hid]; exact hpending⟩)
    refine
      { consistent := h.consistent.removed hrem ?_ ?_
        phase := h.phase.transfer hrem.advanceInProgress hclock hrem.guestCycleBudget
        firedSorted := h.firedSorted
        firedBeforePending := fun f hf k hk =>
          h.firedBeforePending f hf k ((hrem.events k).mp hk).2
        firedPast := fun f hf => hclock ▸ h.firedPast f hf
        firedIssued := fun f hf => hrem.nextEventId ▸ h.firedIssued f hf
        firedOnce := h.firedOnce
        firedGone := fun f hf => hrem.gone (h.firedGone f hf)
        cancelledIssued := ?_
        cancelledGone := ?_
        cancelledUnfired := ?_
        returned := fun _ _ hr => by cases hr }
    · intro k hk
      rw [hclock]
      exact h.consistent.notPast k ((hrem.events k).mp hk).2
    · intro budget hb
      rw [hclock]
      exact h.consistent.withinBudget budget hb
    · intro i hi
      rw [hrem.nextEventId]
      rcases List.mem_cons.mp hi with rfl | hi
      · exact hid ▸ h.consistent.issued key hrem.was
      · exact h.cancelledIssued i hi
    · intro i hi
      rcases List.mem_cons.mp hi with rfl | hi
      · exact hid ▸ hrem.gone_self
      · exact hrem.gone (h.cancelledGone i hi)
    · intro i hi f hf
      rcases List.mem_cons.mp hi with rfl | hi
      · exact hunfired f hf
      · exact h.cancelledUnfired i hi f hf

end

theorem beginAdvance_spec {t budget : Nat} {a : Advance}
    (hs : Consistent s) (h : beginAdvance s t budget = .ok (a, s')) :
    s' = { s with advanceInProgress := true } ∧ Advancing s' a := by
  unfold beginAdvance at h
  split at h
  · cases h
  · split at h
    · cases h
    · rename_i hback
      cases h
      refine ⟨rfl, rfl, ?_, ?_, ?_⟩
      · cases hb : s.guestCycleBudget with
        | none => simp only; omega
        | some b =>
          have := hs.withinBudget b hb
          simp only; omega
      · cases s.guestCycleBudget with
        | none => simp
        | some b => simp only; omega
      · intro b hb
        simp only at hb
        simp only [hb]
        omega

section
variable (h : Invariant c)
include h

theorem Invariant.afterBegin
    {r : Except SchedulerError (Advance × EventScheduler κ)} (hr : ∀ a s', r = .ok (a, s') →
      s' = { c.scheduler with advanceInProgress := true } ∧ Advancing s' a) :
    Invariant (c.afterBegin r) := by
  cases r with
  | error e => exact h.forget
  | ok v =>
    obtain ⟨a, s'⟩ := v
    obtain ⟨rfl, ha⟩ := hr a s' rfl
    -- Only the guard and the phase differ from `c`.
    exact
      { h with
        consistent := ⟨h.consistent.indexed, h.consistent.pending, h.consistent.notPast,
          h.consistent.issued, h.consistent.withinBudget⟩
        phase := ha
        returned := fun _ _ hr => by cases hr }

theorem Invariant.fire {a a' : Advance}
    (ha : Advancing c.scheduler a) (hmin : c.scheduler.events.minKey? = some key)
    (hdue : key.deadline ≤ a.effectiveTarget) (htarget : a'.effectiveTarget = a.effectiveTarget)
    (hcycle : a'.guestCycle = a.guestCycle) (hret : c.returned = none) :
    Invariant { c with
      scheduler := extractEvent c.scheduler key
      phase := .callback a'
      fired := c.fired ++ [key] } := by
  obtain ⟨hkey, hleast⟩ := EventKey.minKey?_spec hmin
  have hrem := extractEvent_spec hkey
  have hafter : ∀ k ∈ (extractEvent c.scheduler key).events, key.Before k := fun k hk => by
    obtain ⟨hne, hk⟩ := (hrem.events k).mp hk
    exact (hleast k hk).resolve_left hne
  have hpending := h.consistent.indexed key hkey
  refine
    { consistent := h.consistent.removed hrem ?_ ?_
      phase := ⟨ha.guarded, ?_, ?_, ?_⟩
      firedSorted := ?_
      firedBeforePending := ?_
      firedPast := ?_
      firedIssued := ?_
      firedOnce := ?_
      firedGone := ?_
      cancelledIssued := h.cancelledIssued
      cancelledGone := fun i hi => hrem.gone (h.cancelledGone i hi)
      cancelledUnfired := ?_
      returned := fun t r hr => by rw [hret] at hr; cases hr }
  · intro k hk
    have hb := hafter k hk
    unfold EventKey.Before at hb
    show key.deadline ≤ k.deadline
    omega
  · intro budget hb
    exact hdue.trans (ha.budgeted budget hb)
  · show key.deadline ≤ a'.effectiveTarget
    omega
  · rw [htarget, hcycle]
    exact ha.requested
  · intro budget hb
    rw [htarget]
    exact ha.budgeted budget hb
  · refine List.pairwise_append.mpr ⟨h.firedSorted, List.pairwise_singleton _ _, ?_⟩
    intro f hf k hk
    rw [List.mem_singleton.mp hk]
    exact h.firedBeforePending f hf key hkey
  · intro f hf k hk
    rcases List.mem_append.mp hf with hf | hf
    · exact h.firedBeforePending f hf k ((hrem.events k).mp hk).2
    · rw [List.mem_singleton.mp hf]
      exact hafter k hk
  · intro f hf
    show f.deadline ≤ key.deadline
    rcases List.mem_append.mp hf with hf | hf
    · exact (h.firedPast f hf).trans (h.consistent.notPast key hkey)
    · rw [List.mem_singleton.mp hf]
  · intro f hf
    rcases List.mem_append.mp hf with hf | hf
    · exact h.firedIssued f hf
    · rw [List.mem_singleton.mp hf]
      exact h.consistent.issued key hkey
  · rw [List.map_append, List.nodup_append]
    refine ⟨h.firedOnce, by simp, ?_⟩
    intro i hi j hj
    obtain ⟨f, hf, rfl⟩ := List.mem_map.mp hi
    rw [List.map_singleton, List.mem_singleton] at hj
    rw [hj]
    exact fun he => h.firedGone f hf (mem_eventKeys_iff.mpr ⟨key, by rw [he]; exact hpending⟩)
  · intro f hf
    rcases List.mem_append.mp hf with hf | hf
    · exact hrem.gone (h.firedGone f hf)
    · rw [List.mem_singleton.mp hf]
      exact hrem.gone_self
  · intro i hi f hf
    rcases List.mem_append.mp hf with hf | hf
    · exact h.cancelledUnfired i hi f hf
    · rw [List.mem_singleton.mp hf]
      exact fun he => h.cancelledGone i hi (mem_eventKeys_iff.mpr ⟨key, by rw [← he]; exact hpending⟩)

/-- Leaving an advance moves the clock only up to pending events. -/
theorem Invariant.leave {now : Nat} {returned : Option (Nat × SchedulerAdvanceResult)}
    (hnow : c.scheduler.currentCycle ≤ now)
    (hclock : ∀ k ∈ c.scheduler.events, now ≤ k.deadline)
    (hbudget : ∀ budget, c.scheduler.guestCycleBudget = some budget → now ≤ budget)
    (hret : ∀ t result, returned = some (t, result) → result.status = .reachedTarget →
      ∀ key ∈ c.scheduler.events, t < key.deadline) :
    Invariant { c with
      scheduler := endAdvance { c.scheduler with currentCycle := now }
      phase := .idle
      returned := returned } :=
  { h with
    consistent := ⟨h.consistent.indexed, h.consistent.pending, hclock, h.consistent.issued, hbudget⟩
    phase := rfl
    firedPast := fun f hf => (h.firedPast f hf).trans hnow
    returned := hret }

theorem Invariant.loopHead {a : Advance}
    (hphase : c.phase = .loop a) (hret : c.returned = none) : Invariant (step c .loopHead) := by
  have ha : Advancing c.scheduler a := by
    have := h.phase
    rwa [hphase] at this
  have hstep : step c .loopHead = c.afterLoopHead a (Scheduler.loopHead c.scheduler a) := by
    simp only [step, hphase, Phase.inCaller, Bool.false_eq_true, if_false]
  rw [hstep]
  rcases loopHead_cases c.scheduler a with
    ⟨key, a', he, hmin, hdue, htarget, hcycle⟩ | ⟨result, he, hst⟩ | ⟨result, he, hst, hnone⟩
  · rw [he]
    exact h.fire ha hmin hdue htarget hcycle hret
  · rw [he]
    refine h.leave (Nat.le_refl _) h.consistent.notPast h.consistent.withinBudget ?_
    intro t r hr hreached
    cases hr
    rw [hst] at hreached
    cases hreached
  · rw [he]
    refine h.leave ha.ahead (fun k hk => (hnone k hk).le) ha.budgeted ?_
    intro t r hr hreached
    cases hr
    rw [← hst hreached]
    exact hnone

end

/-- The report of an advance is only there while the caller is in control. -/
def Reported (c : Run κ) : Prop := c.phase.inCaller = false → c.returned = none

theorem reported_step (h : Reported c) (action : Action κ) : Reported (step c action) := by
  unfold Reported at *
  unfold step
  split
  · rename_i hcaller
    split <;> first
      | (intro hc; rw [hcaller] at hc; cases hc)
      | (intro _; rfl)
      | (unfold Run.afterSchedule; split <;> exact fun _ => rfl)
      | (unfold Run.afterBegin; split <;> exact fun _ => rfl)
  · split
    · unfold Run.afterLoopHead
      split <;> exact fun hc => by cases hc
    · exact h

theorem Invariant.step {c : Run κ} (h : Invariant c) (hrep : Reported c) (action : Action κ) :
    Invariant (step c action) := by
  cases hphase : c.phase.inCaller with
  | false =>
    cases hp : c.phase with
    | idle => rw [hp] at hphase; cases hphase
    | callback a => rw [hp] at hphase; cases hphase
    | loop a =>
      cases action with
      | loopHead => exact h.loopHead hp (hrep hphase)
      | _ => simpa only [Scheduler.step, hp, Phase.inCaller, Bool.false_eq_true, if_false] using h
  | true =>
    cases action with
    | scheduleAt cycle callback kind =>
      simp only [Scheduler.step, hphase, if_true]
      exact h.afterSchedule fun id s' hr => ⟨_, scheduleAt_spec hr⟩
    | scheduleAfter cycles callback kind =>
      simp only [Scheduler.step, hphase, if_true]
      exact h.afterSchedule fun id s' hr => ⟨_, scheduleAfter_spec hr⟩
    | scheduleAtOrNow cycle callback kind =>
      simp only [Scheduler.step, hphase, if_true]
      exact h.afterSchedule fun id s' hr => ⟨_, scheduleAt_spec hr⟩
    | cancel id =>
      simp only [Scheduler.step, hphase, if_true]
      exact h.cancelled rfl
    | advanceTo t budget =>
      simp only [Scheduler.step, hphase, if_true]
      exact h.afterBegin fun a s' hr => beginAdvance_spec h.consistent hr
    | advanceBy t budget =>
      simp only [Scheduler.step, hphase, if_true]
      refine h.afterBegin fun a s' hr => ?_
      unfold beginAdvanceBy at hr
      split at hr
      · cases hr
      · split at hr
        · cases hr
        · exact beginAdvance_spec h.consistent hr
    | loopHead => simpa only [Scheduler.step, hphase, if_true] using h
    | callbackReturns =>
      cases hp : c.phase with
      | callback a =>
        simp only [Scheduler.step, hp, Phase.inCaller, if_true]
        have ha := h.phase
        rw [hp] at ha
        exact { h.forget with phase := ha }
      | _ => simpa only [Scheduler.step, hp, Phase.inCaller, if_true, Bool.false_eq_true,
          if_false] using h
    | callbackThrows =>
      cases hp : c.phase with
      | callback a =>
        simp only [Scheduler.step, hp, Phase.inCaller, if_true]
        exact h.leave (Nat.le_refl _) h.consistent.notPast h.consistent.withinBudget
          (fun _ _ hr => by cases hr)
      | _ => simpa only [Scheduler.step, hp, Phase.inCaller, if_true, Bool.false_eq_true,
          if_false] using h

theorem initial_invariant (budget : Option Nat) : Invariant (Run.initial (κ := κ) budget) where
  consistent := by constructor <;> simp [Run.initial]
  phase := rfl
  firedSorted := .nil
  firedBeforePending := by simp [Run.initial]
  firedPast := by simp [Run.initial]
  firedIssued := by simp [Run.initial]
  firedOnce := .nil
  firedGone := by simp [Run.initial]
  cancelledIssued := by simp [Run.initial]
  cancelledGone := by simp [Run.initial]
  cancelledUnfired := by simp [Run.initial]
  returned := fun _ _ hr => by cases hr

theorem run_preserves (h : Invariant c) (hrep : Reported c)
    (actions : List (Action κ)) : Invariant (run c actions) := by
  induction actions generalizing c with
  | nil => exact h
  | cons action rest ih => exact ih (h.step hrep action) (reported_step hrep action)

/-- In every state a scheduler reaches, in the middle of a callback or between
advances, its two containers hold the same events under equal keys, nothing
pending lies in the past, events have fired in strictly increasing order of
deadline and id, each at most once and none whose cancel succeeded, and an
advance that reported its target has left nothing due. -/
theorem run_invariant (budget : Option Nat) (actions : List (Action κ)) :
    let c : Run κ := run (Run.initial budget) actions
    (∀ key : EventKey, key ∈ c.scheduler.events ↔ c.scheduler.eventKeys[key.id]? = some key) ∧
    (∀ (id : Nat) (key : EventKey), c.scheduler.eventKeys[id]? = some key → key.id = id) ∧
    (∀ key ∈ c.scheduler.events, c.scheduler.currentCycle ≤ key.deadline) ∧
    c.fired.Pairwise EventKey.Before ∧ (c.fired.map EventKey.id).Nodup ∧
    (∀ f ∈ c.fired, f.id ∉ c.cancelled) ∧
    (∀ t result, c.returned = some (t, result) → result.status = .reachedTarget →
      ∀ key ∈ c.scheduler.events, t < key.deadline) := by
  intro c
  have h : Invariant c := run_preserves (initial_invariant budget) (fun _ => rfl) actions
  refine ⟨fun key => ⟨h.consistent.indexed key, fun hk => (h.consistent.pending _ _ hk).2⟩,
    fun id key hk => (h.consistent.pending id key hk).1, h.consistent.notPast, h.firedSorted,
    h.firedOnce, fun f hf hc => h.cancelledUnfired _ hc f hf rfl, h.returned⟩

end KatanaRecomp.Runtime.Scheduler
