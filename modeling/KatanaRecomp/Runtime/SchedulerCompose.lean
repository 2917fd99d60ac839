import KatanaRecomp.Runtime.SchedulerAdvance

/-! # Advances compose

An advance that stops at an earlier cycle on its way changes nothing, as long as no
callback on the way to that cycle arms a guest-cycle budget that holds the rest back. -/
namespace KatanaRecomp.Runtime.Scheduler
variable {κ : Type} {callbacks : Callbacks κ} {s : EventScheduler κ}
  {target eventBudget guestCycle : Nat}

/-- An advance that does not reach its event budget is a pursuit of its target. -/
theorem pursues_of_advanceLoop {fuel : Nat} :
    ∀ {s : EventScheduler κ} {processed : Nat} {r : Advanced κ},
      processed + r.fired.length < eventBudget →
      advanceLoop callbacks fuel ⟨guestCycle, eventBudget, target, processed⟩ s = some r →
        ∃ r', Pursues callbacks target s r' ∧
          r = Advanced.reported guestCycle target processed r' := by
  induction fuel with
  | zero =>
    intro s processed r _ h
    cases h
  | succ fuel ih =>
    intro s processed r hcount h
    rw [advanceLoop] at h
    unfold loopHead at h
    dsimp only at h
    cases hmin : s.events.minKey? with
    | none =>
      simp only [hmin, Option.some.injEq] at h
      exact ⟨_, .finished (by simp [hmin]), h.symm⟩
    | some key =>
      by_cases hdue : key.deadline ≤ target
      · have hbudget : processed ≠ eventBudget := by omega
        simp only [hmin, if_pos hdue, if_neg hbudget] at h
        cases hevent : s.events[key]? with
        | none => simp [hevent] at h
        | some event =>
          simp only [hevent] at h
          split_ifs at h with hthrows
          · simp only [Option.some.injEq] at h
            exact ⟨_, .threw hmin hdue hevent hthrows, h.symm⟩
          · obtain ⟨rest, hrest, rfl⟩ := Option.map_eq_some_iff.mp h
            obtain ⟨r', hr', rfl⟩ := ih (by simp [Advanced.behind] at hcount; omega) hrest
            refine ⟨_, .fired hmin hdue hevent hthrows hr', ?_⟩
            unfold Advanced.reported Advanced.behind
            cases r'.1 <;> simp [Nat.add_assoc, Nat.add_comm 1]
      · simp only [hmin, if_neg hdue, Option.some.injEq] at h
        refine ⟨_, .finished fun other hother => ?_, h.symm⟩
        cases Option.some.inj (hmin.symm.trans hother)
        exact Nat.not_le.mp hdue

theorem advanceLoop_of_pursues {r : Bool × Advanced κ} (h : Pursues callbacks target s r) :
    ∀ {processed : Nat}, processed + r.2.fired.length < eventBudget → ∃ fuel,
      advanceLoop callbacks fuel ⟨guestCycle, eventBudget, target, processed⟩ s =
        some (Advanced.reported guestCycle target processed r) := by
  induction h with
  | @finished s hidle =>
    refine fun _ => ⟨1, ?_⟩
    rw [advanceLoop]
    unfold loopHead
    dsimp only
    cases hmin : s.events.minKey? with
    | none => rfl
    | some key => simp only [if_neg (Nat.not_le.mpr (hidle key hmin))]; rfl
  | threw hmin hdue hevent hthrows =>
    intro processed hcount
    have hbudget : processed ≠ eventBudget := by omega
    refine ⟨1, ?_⟩
    rw [advanceLoop]
    unfold loopHead
    simp only [hmin, if_pos hdue, if_neg hbudget, hevent, if_pos hthrows]
    rfl
  | @fired s key event r hmin hdue hevent hthrows hrest ih =>
    intro processed hcount
    have hbudget : processed ≠ eventBudget := by omega
    obtain ⟨fuel, hfuel⟩ := @ih (processed + 1) (by simp [Advanced.behind] at hcount; omega)
    refine ⟨fuel + 1, ?_⟩
    rw [advanceLoop]
    unfold loopHead
    simp only [hmin, if_pos hdue, if_neg hbudget, hevent, if_neg hthrows, hfuel, Option.map_some]
    unfold Advanced.reported Advanced.behind
    cases r.1 <;> simp [Nat.add_assoc, Nat.add_comm 1]

/-- The target of an advance within the guest-cycle budget. -/
def effectiveTarget (s : EventScheduler κ) (guestCycle : Nat) : Nat :=
  match s.guestCycleBudget with
  | some budget => min guestCycle budget
  | none => guestCycle

theorem effectiveTarget_none (h : s.guestCycleBudget = none) :
    effectiveTarget s guestCycle = guestCycle := by
  unfold effectiveTarget
  rw [h]

theorem effectiveTarget_some {budget : Nat} (h : s.guestCycleBudget = some budget) :
    effectiveTarget s guestCycle = min guestCycle budget := by
  unfold effectiveTarget
  rw [h]

/-- The target is the requested cycle, or a budget in front of it. -/
theorem effectiveTarget_cases (s : EventScheduler κ) (guestCycle : Nat) :
    effectiveTarget s guestCycle = guestCycle ∨ ∃ budget < guestCycle,
      s.guestCycleBudget = some budget ∧ effectiveTarget s guestCycle = budget := by
  cases h : s.guestCycleBudget with
  | none => exact .inl (effectiveTarget_none h)
  | some budget =>
    rw [effectiveTarget_some h]
    by_cases hlt : budget < guestCycle
    · exact .inr ⟨budget, hlt, rfl, Nat.min_eq_right hlt.le⟩
    · exact .inl (Nat.min_eq_left (Nat.not_lt.mp hlt))

/-- The caller's advance is a pursuit. -/
theorem advances_iff (hclosed : s.advanceInProgress = false)
    (hpast : s.currentCycle ≤ guestCycle) {r : Advanced κ}
    (hcount : r.fired.length < eventBudget) : Advances callbacks eventBudget s guestCycle r ↔
      ∃ r', Pursues callbacks (effectiveTarget s guestCycle) (reopened s) r' ∧
        r = Advanced.reported guestCycle (effectiveTarget s guestCycle) 0 r' := by
  have hbegin : beginAdvance s guestCycle eventBudget =
      .ok (⟨guestCycle, eventBudget, effectiveTarget s guestCycle, 0⟩, reopened s) := by
    unfold beginAdvance
    rw [if_neg (by simp [hclosed]), if_neg (by omega)]
    rfl
  unfold Advances advanceTo
  rw [hbegin]
  simp only [Option.map_eq_some_iff, Except.ok.injEq, exists_eq_right]
  constructor
  · rintro ⟨fuel, h⟩
    exact pursues_of_advanceLoop (by omega) h
  · rintro ⟨r', hr', rfl⟩
    exact advanceLoop_of_pursues hr' (by simpa [Advanced.reported] using hcount)

theorem advanceLoop_succ {fuel : Nat} :
    ∀ {a : Advance} {s : EventScheduler κ} {r : Advanced κ},
      advanceLoop callbacks fuel a s = some r → advanceLoop callbacks (fuel + 1) a s = some r := by
  induction fuel with
  | zero =>
    intro a s r h
    cases h
  | succ fuel ih =>
    intro a s r h
    rw [advanceLoop] at h ⊢
    cases hhead : loopHead s a with
    | returns result s' => rwa [hhead] at h
    | fire key a' s' =>
      simp only [hhead] at h ⊢
      cases hevent : s.events[key]? with
      | none => simp [hevent] at h
      | some event =>
        simp only [hevent] at h ⊢
        split_ifs at h ⊢ with hthrows
        · exact h
        · obtain ⟨rest, hrest, hr⟩ := Option.map_eq_some_iff.mp h
          rw [ih hrest]
          simpa using hr

theorem advanceLoop_mono {fuel fuel' : Nat} (hle : fuel ≤ fuel') {a : Advance} {r : Advanced κ}
    (h : advanceLoop callbacks fuel a s = some r) : advanceLoop callbacks fuel' a s = some r := by
  induction hle with
  | refl => exact h
  | step _ ih => exact advanceLoop_succ ih

theorem Advances.unique {r r' : Advanced κ} (h : Advances callbacks eventBudget s target r)
    (h' : Advances callbacks eventBudget s target r') : r = r' := by
  obtain ⟨fuel, h⟩ := h
  obtain ⟨fuel', h'⟩ := h'
  unfold advanceTo at h h'
  cases hbegin : beginAdvance s target eventBudget with
  | error e => simp [hbegin] at h
  | ok started =>
    obtain ⟨a, s'⟩ := started
    simp only [hbegin, Option.map_eq_some_iff, Except.ok.injEq, exists_eq_right] at h h'
    have hleft := advanceLoop_mono (Nat.le_max_left fuel fuel') h
    have hright := advanceLoop_mono (Nat.le_max_right fuel fuel') h'
    exact Option.some.inj (hleft.symm.trans hright)

/-! ## The budget on the way -/

/-- A budget that is armed stays. -/
theorem Call.perform_budget {budget : Nat} (h : s.guestCycleBudget = some budget) (call : Call κ) :
    (call.perform s).guestCycleBudget = some budget := by
  have hscheduleAt : ∀ cycle callback kind,
      (afterScheduling s (Scheduler.scheduleAt s cycle callback kind)).guestCycleBudget =
        some budget := by
    intro cycle callback kind
    cases hscheduled : Scheduler.scheduleAt s cycle callback kind with
    | error e => exact h
    | ok scheduled => exact (scheduleAt_spec hscheduled).guestCycleBudget.trans h
  cases call with
  | scheduleAt cycle callback kind => exact hscheduleAt cycle callback kind
  | scheduleAfter cycles callback kind =>
    unfold perform Scheduler.scheduleAfter
    dsimp only
    split_ifs
    · exact h
    · exact hscheduleAt _ callback kind
  | scheduleAtOrNow cycle callback kind => exact hscheduleAt _ callback kind
  | cancel id => exact (cancel_keeps s id).2.1.trans h
  | clear => exact h
  | setGuestCycleBudget maximum =>
    unfold perform Scheduler.setGuestCycleBudget
    dsimp only
    split_ifs with hzero himmutable hfirst hpast
    · exact h
    · exact h
    · exact h
    · exact h
    · -- only the budget that is there gets through
      rw [h, not_and_not_right] at himmutable
      exact himmutable rfl

theorem Callbacks.run_budget {budget : Nat} (h : s.guestCycleBudget = some budget)
    (key : EventKey) (event : ScheduledEvent κ) :
    (callbacks.run s key event).guestCycleBudget = some budget := by
  unfold run
  generalize callbacks.calls s key event = calls
  induction calls generalizing s with
  | nil => exact h
  | cons call rest ih => exact ih (Call.perform_budget h call)

/-- The callback of a fired event leaves the budget behind. -/
def Fired.Leaves (callbacks : Callbacks κ) (fired : Fired κ) (budget : Nat) : Prop :=
  (callbacks.run fired.seen fired.key fired.event).guestCycleBudget = some budget

/-- The budget at the end was there before, or a fired event left it. -/
theorem Pursues.budget {r : Bool × Advanced κ} {budget : Nat} (h : Pursues callbacks target s r) :
    r.2.scheduler.guestCycleBudget = some budget ↔ s.guestCycleBudget = some budget ∨
      ∃ fired ∈ r.2.fired, fired.Leaves callbacks budget := by
  have hsticky : ∀ {s : EventScheduler κ} {key : EventKey} {event : ScheduledEvent κ},
      s.guestCycleBudget = some budget →
        (callbacks.run (extractEvent s key) key event).guestCycleBudget = some budget :=
    fun {s key event} hbudget => Callbacks.run_budget (s := extractEvent s key) hbudget key event
  induction h with
  | finished hidle => simp [endAdvance]
  | threw hmin hdue hevent hthrows => simpa [endAdvance, Fired.Leaves] using hsticky
  | fired hmin hdue hevent hthrows hrest ih =>
    refine ih.trans ?_
    simp only [Advanced.behind, List.mem_cons, exists_eq_or_imp]
    exact ⟨.inr, fun hor => hor.elim (fun hbudget => .inl (hsticky hbudget)) id⟩

/-- What a finished pursuit leaves: an advance can begin, at the target, and nothing up to
the target is due. -/
structure Finished (target : Nat) (s : EventScheduler κ) : Prop where
  closed : s.advanceInProgress = false
  cycle : s.currentCycle = target
  idle : ∀ key, s.events.minKey? = some key → target < key.deadline

theorem Pursues.ended {r : Bool × Advanced κ} (h : Pursues callbacks target s r)
    (hreturned : r.1 = true) : Finished target r.2.scheduler := by
  induction h with
  | finished hidle => exact ⟨rfl, rfl, hidle⟩
  | threw hmin hdue hevent hthrows => cases hreturned
  | fired hmin hdue hevent hthrows hrest ih => exact ih hreturned

/-- Nothing is due for a target that the pursuit has passed. -/
theorem Finished.pursues {earlier : Nat} (h : Finished earlier s) (hlt : target < earlier) :
    Pursues callbacks target (reopened s)
      (true, { scheduler := endAdvance { reopened s with currentCycle := target } }) :=
  .finished fun key hkey => hlt.trans (h.idle key hkey)

/-- The advance to a later cycle is the advance to an earlier one with the advance from there
behind it: the same events with the same scheduler seen by each, the same end. -/
def AdvanceComposes (callbacks : Callbacks κ) (eventBudget : Nat) (s : EventScheduler κ)
    (earlier later : Nat) : Prop := ∀ r : Advanced κ, r.fired.length < eventBudget →
    (Advances callbacks eventBudget s later r ↔
      ∃ first, Advances callbacks eventBudget s earlier first ∧ (first.result = none ∧ r = first ∨
          ∃ result rest, first.result = some result ∧
            Advances callbacks eventBudget first.scheduler later rest ∧
            r.fired = first.fired ++ rest.fired ∧ r.scheduler = rest.scheduler ∧
            r.result = rest.result.map fun last =>
              { last with processedEvents := result.processedEvents + last.processedEvents }))

/-- An event fired on the way to the earlier cycle leaves a budget in front of the later one,
and an advance up to that budget returns. -/
def HeldBack (callbacks : Callbacks κ) (eventBudget : Nat) (s : EventScheduler κ)
    (earlier later : Nat) : Prop :=
  ∃ budget < later,
    (∃ first, Advances callbacks eventBudget s earlier first ∧
      ∃ fired ∈ first.fired, fired.Leaves callbacks budget) ∧
    ∃ r, Advances callbacks eventBudget s (max earlier budget) r ∧ r.result ≠ none ∧
      r.fired.length < eventBudget

theorem not_advances_of_open (hopen : s.advanceInProgress = true) (r : Advanced κ) :
    ¬Advances callbacks eventBudget s guestCycle r := by
  rintro ⟨fuel, h⟩
  unfold advanceTo beginAdvance at h
  rw [if_pos hopen] at h
  cases h

theorem Pursues.budget_free {budget : Nat} (hbudget : s.guestCycleBudget = none)
    {r : Bool × Advanced κ} (h : Pursues callbacks target (reopened s) r) :
    r.2.scheduler.guestCycleBudget = some budget ↔
      ∃ fired ∈ r.2.fired, fired.Leaves callbacks budget := by
  refine h.budget.trans (or_iff_right fun hsome => ?_)
  cases hbudget.symm.trans hsome

section
variable {earlier later : Nat} (hclosed : s.advanceInProgress = false)
  (hbudget : s.guestCycleBudget = none)
include hclosed hbudget

/-- Without a guest-cycle budget the target is the requested cycle. -/
theorem advances_free_iff (hpast : s.currentCycle ≤ guestCycle) {r : Advanced κ}
    (hcount : r.fired.length < eventBudget) : Advances callbacks eventBudget s guestCycle r ↔
      ∃ r', Pursues callbacks guestCycle (reopened s) r' ∧
        r = Advanced.reported guestCycle guestCycle 0 r' := by
  rw [advances_iff hclosed hpast hcount, effectiveTarget_none hbudget]

theorem advances_of_pursues (hpast : s.currentCycle ≤ guestCycle)
    {r : Bool × Advanced κ} (h : Pursues callbacks guestCycle (reopened s) r)
    (hcount : r.2.fired.length < eventBudget) : Advances callbacks eventBudget s guestCycle
      (Advanced.reported guestCycle guestCycle 0 r) :=
  (advances_free_iff hclosed hbudget hpast (show (Advanced.reported _ _ 0 r).fired.length < _
    from hcount)).mpr ⟨r, h, rfl⟩

/-- The advance from the earlier cycle on returns at the budget that it found. -/
theorem heldBack_iff (hpast : s.currentCycle ≤ earlier) :
    HeldBack callbacks eventBudget s earlier later ↔ ∃ first, ∃ budget < later,
      Pursues callbacks earlier (reopened s) first ∧ first.1 = true ∧
      first.2.scheduler.guestCycleBudget = some budget ∧ ∃ rest,
        Pursues callbacks budget (reopened first.2.scheduler) rest ∧ rest.1 = true ∧
        first.2.fired.length + rest.2.fired.length < eventBudget := by
  constructor
  · rintro ⟨budget, hlt, ⟨other, hother, fired, hfired, hleaves⟩, r, hr, hresult, hcount⟩
    obtain ⟨r', hwhole, rfl⟩ :=
      (advances_free_iff hclosed hbudget (hpast.trans (Nat.le_max_left _ _)) hcount).mp hr
    have hreturned : r'.1 = true := by
      by_contra hthrew
      simp [Advanced.reported, hthrew] at hresult
    obtain ⟨first, hfirst, ⟨hthrew, rfl⟩ | ⟨hstopped, rest, hrest, rfl⟩⟩ :=
      hwhole.split (Nat.le_max_left earlier budget) rfl
    · cases hthrew.symm.trans hreturned
    have hlength : first.2.fired.length + rest.2.fired.length < eventBudget := by
      simpa [Advanced.reported, Advanced.append] using hcount
    obtain rfl := hother.unique
      (advances_of_pursues hclosed hbudget hpast hfirst (by omega))
    have hleft := (hfirst.budget_free hbudget).mpr ⟨fired, hfired, hleaves⟩
    refine ⟨first, budget, hlt, hfirst, hstopped, hleft, ?_⟩
    obtain hle | hbefore := le_or_gt earlier budget
    · rw [Nat.max_eq_right hle] at hrest
      exact ⟨rest, hrest, hreturned, hlength⟩
    · refine ⟨_, (hfirst.ended hstopped).pursues hbefore, rfl, ?_⟩
      change first.2.fired.length + 0 < eventBudget
      omega
  · rintro ⟨first, budget, hlt, hfirst, hstopped, hleft, rest, hrest, hreturned, hlength⟩
    have hshort : first.2.fired.length < eventBudget := by omega
    have hreported := advances_of_pursues hclosed hbudget hpast hfirst hshort
    refine ⟨budget, hlt, ⟨_, hreported, (hfirst.budget_free hbudget).mp hleft⟩, ?_⟩
    obtain hle | hbefore := le_or_gt earlier budget
    · rw [Nat.max_eq_right hle]
      refine ⟨Advanced.reported budget budget 0 (rest.1, first.2.append rest.2), ?_, ?_, ?_⟩
      · refine advances_of_pursues hclosed hbudget (hpast.trans hle)
          ((hfirst.join hle rfl).2 hstopped hrest) ?_
        simpa [Advanced.append] using hlength
      · simp [Advanced.reported, hreturned]
      · simpa [Advanced.reported, Advanced.append] using hlength
    · rw [Nat.max_eq_left hbefore.le]
      exact ⟨_, hreported, by simp [Advanced.reported, hstopped], hshort⟩

end

/-- Where no budget makes it return early, the later advance is the pursuit of its cycle. -/
theorem pursues_effective_iff {later used : Nat} {rest : Bool × Advanced κ}
    (hfree : ∀ budget < later, s.guestCycleBudget = some budget → ∀ stop,
      Pursues callbacks budget (reopened s) stop → stop.1 = true →
        ¬used + stop.2.fired.length < eventBudget)
    (hcount : used + rest.2.fired.length < eventBudget) :
    Pursues callbacks later (reopened s) rest ↔
      Pursues callbacks (effectiveTarget s later) (reopened s) rest ∧
        (rest.1 = true → effectiveTarget s later = later) := by
  obtain heq | ⟨budget, hlt, hsome, heq⟩ := effectiveTarget_cases s later
  · rw [heq]
    exact (and_iff_left fun _ => rfl).symm
  rw [heq]
  constructor
  · intro hrest
    obtain ⟨stop, hstop, ⟨hthrew, rfl⟩ | ⟨hreturned, behind, -, rfl⟩⟩ := hrest.split hlt.le rfl
    · exact ⟨hstop, fun hreturned => by cases hthrew.symm.trans hreturned⟩
    · refine absurd ?_ (hfree budget hlt hsome stop hstop hreturned)
      simp only [Advanced.append, List.length_append] at hcount
      omega
  · rintro ⟨hrest, -⟩
    cases hthrew : rest.1 with
    | false => exact (hrest.join hlt.le rfl).1 hthrew
    | true => exact absurd hcount (hfree budget hlt hsome rest hrest hthrew)

/-- Two advances compose exactly where no budget holds the later one back. -/
theorem advance_to_composes (callbacks : Callbacks κ) (eventBudget : Nat) {s : EventScheduler κ}
    (hbudget : s.guestCycleBudget = none) {earlier later : Nat} (hpast : s.currentCycle ≤ earlier)
    (hle : earlier ≤ later) : AdvanceComposes callbacks eventBudget s earlier later ↔
      ¬HeldBack callbacks eventBudget s earlier later := by
  cases hclosed : s.advanceInProgress with
  | true =>
    refine iff_of_true (fun r hcount => ⟨fun h => absurd h (not_advances_of_open hclosed r), ?_⟩) ?_
    · rintro ⟨first, h, -⟩
      exact absurd h (not_advances_of_open hclosed first)
    · rintro ⟨budget, -, ⟨first, h, -⟩, -⟩
      exact not_advances_of_open hclosed first h
  | false =>
  rw [heldBack_iff hclosed hbudget hpast]
  constructor
  · rintro hcomposes ⟨first, budget, hlt, hfirst, hstopped, hleft, rest, hrest, hreturned, hlength⟩
    obtain ⟨hshut, hcycle, -⟩ := hfirst.ended hstopped
    have heffective : effectiveTarget first.2.scheduler later = budget := by
      rw [effectiveTarget_some hleft, Nat.min_eq_right hlt.le]
    -- the two advances end at the budget, the whole one at the later cycle
    have hwhole := (hcomposes ⟨rest.2.scheduler, first.2.fired ++ rest.2.fired,
      some ⟨.guestCycleBudgetExhausted, first.2.fired.length + rest.2.fired.length, budget⟩⟩
      (by rwa [List.length_append])).mpr
        ⟨_, advances_of_pursues hclosed hbudget hpast hfirst (by omega),
        .inr ⟨⟨.reachedTarget, first.2.fired.length, earlier⟩,
          Advanced.reported later budget 0 rest, by simp [Advanced.reported, hstopped],
          (advances_iff (r := Advanced.reported later budget 0 rest) hshut (hcycle.trans_le hle)
            (show rest.2.fired.length < eventBudget by omega)).mpr
            ⟨rest, by rwa [heffective], by rw [heffective]⟩, rfl, rfl,
          by simp [Advanced.reported, hreturned, hlt.ne]⟩⟩
    obtain ⟨r', hpursue, hr⟩ := (advances_free_iff hclosed hbudget (hpast.trans hle)
      (by rwa [List.length_append])).mp hwhole
    have hended : r'.1 = true := by
      by_contra hthrew
      simp [Advanced.reported, hthrew] at hr
    have hsame : rest.2.scheduler = r'.2.scheduler := by
      rw [Advanced.reported, Advanced.mk.injEq] at hr
      exact hr.1
    have hlater := (hpursue.ended hended).cycle
    rw [← hsame, (hrest.ended hreturned).cycle] at hlater
    exact hlt.ne hlater
  intro hheld r hcount
  rw [advances_free_iff hclosed hbudget (hpast.trans hle) hcount]
  have hfree : ∀ {first : Bool × Advanced κ}, Pursues callbacks earlier (reopened s) first →
      first.1 = true → ∀ budget < later, first.2.scheduler.guestCycleBudget = some budget →
      ∀ stop, Pursues callbacks budget (reopened first.2.scheduler) stop → stop.1 = true →
        ¬first.2.fired.length + stop.2.fired.length < eventBudget :=
    fun hfirst hstopped budget hlt hleft stop hstop hreturned hlength =>
      hheld ⟨_, budget, hlt, hfirst, hstopped, hleft, stop, hstop, hreturned, hlength⟩
  constructor
  · rintro ⟨r', hwhole, rfl⟩
    obtain ⟨first, hfirst, hend⟩ := hwhole.split hle rfl
    have hadvances := @advances_of_pursues _ _ _ eventBudget _ hclosed hbudget hpast _ hfirst
    rcases hend with ⟨hthrew, rfl⟩ | ⟨hreturned, rest, hrest, rfl⟩
    · refine ⟨_, hadvances hcount, .inl ⟨by simp [Advanced.reported, hthrew], ?_⟩⟩
      simp [Advanced.reported, hthrew]
    · have hlength : first.2.fired.length + rest.2.fired.length < eventBudget := by
        simpa [Advanced.reported, Advanced.append] using hcount
      obtain ⟨hshut, hcycle, -⟩ := hfirst.ended hreturned
      obtain ⟨heffective, htarget⟩ :=
        (pursues_effective_iff (hfree hfirst hreturned) hlength).mp hrest
      refine ⟨_, hadvances (by omega), .inr ⟨⟨.reachedTarget, first.2.fired.length, earlier⟩,
        Advanced.reported later _ 0 rest, by simp [Advanced.reported, hreturned],
        (advances_iff (r := Advanced.reported later _ 0 rest) hshut (hcycle.trans_le hle)
          (show rest.2.fired.length < eventBudget by omega)).mpr ⟨rest, heffective, rfl⟩,
        rfl, rfl, ?_⟩⟩
      cases hlast : rest.1 with
      | false => simp [Advanced.reported, Advanced.append, hlast]
      | true => simp [Advanced.reported, Advanced.append, hlast, htarget hlast]
  · rintro ⟨first, hfirst, ⟨hthrew, rfl⟩ | ⟨result, rest, hresult, hrest, hfired, hscheduler,
      hlast⟩⟩
    · obtain ⟨first', hpursue, rfl⟩ :=
        (advances_free_iff hclosed hbudget hpast hcount).mp hfirst
      have hthrew' : first'.1 = false := by
        by_contra hreturned
        simp [Advanced.reported, hreturned] at hthrew
      refine ⟨first', (hpursue.join hle rfl).1 hthrew', ?_⟩
      simp [Advanced.reported, hthrew']
    · have hlength : first.fired.length + rest.fired.length < eventBudget := by
        rwa [hfired, List.length_append] at hcount
      obtain ⟨first', hpursue, rfl⟩ :=
        (advances_free_iff hclosed hbudget hpast (by omega)).mp hfirst
      have hreturned : first'.1 = true := by
        by_contra hthrew
        simp [Advanced.reported, hthrew] at hresult
      obtain ⟨hshut, hcycle, -⟩ := hpursue.ended hreturned
      obtain ⟨rest', hpursue', rfl⟩ :=
        (advances_iff hshut (hcycle.trans_le hle) (by omega)).mp hrest
      -- an early end would have held the advance back
      have htarget : rest'.1 = true → effectiveTarget first'.2.scheduler later = later := by
        intro hended
        obtain heq | ⟨budget, hlt, hsome, heq⟩ := effectiveTarget_cases first'.2.scheduler later
        · exact heq
        · exact absurd hlength (hfree hpursue hreturned budget hlt hsome rest'
            (heq ▸ hpursue') hended)
      have hlater := (pursues_effective_iff (hfree hpursue hreturned) hlength).mpr
        ⟨hpursue', htarget⟩
      refine ⟨_, (hpursue.join hle rfl).2 hreturned hlater, ?_⟩
      obtain ⟨scheduler, fired, last⟩ := r
      simp only [Advanced.reported, hreturned, if_true, Option.some.injEq] at hresult
      subst hresult
      simp only at hfired hscheduler hlast
      subst hfired hscheduler hlast
      cases hend : rest'.1 with
      | false => simp [Advanced.reported, Advanced.append, hend]
      | true => simp [Advanced.reported, Advanced.append, hend, htarget hend]

/-- Two advances one after the other on a scheduler with one event at its first cycle. -/
def oneEvent : EventScheduler Unit where
  nextEventId := 2
  events := (∅ : Std.TreeMap EventKey (ScheduledEvent Unit) EventKey.compare).insert ⟨0, 1⟩
    ⟨(), .unknown⟩
  eventKeys := (∅ : Std.HashMap Nat EventKey).insert 1 ⟨0, 1⟩

/-! ## A callback that arms the budget -/

/-- A callback at the first cycle that arms a guest-cycle budget of 50. -/
def armingCallbacks : Callbacks Unit where
  calls _ key _ := if key.deadline = 0 then [.setGuestCycleBudget (some 50)] else []
  throws _ _ _ := false

/-- The scheduler behind that callback. -/
def armed : EventScheduler Unit :=
  Call.perform (extractEvent (reopened oneEvent) ⟨0, 1⟩) (.setGuestCycleBudget (some 50))

theorem oneEvent_minKey : (reopened oneEvent).events.minKey? = some ⟨0, 1⟩ := minKey?_singleton _ _

theorem armed_minKey : armed.events.minKey? = none := minKey?_erase_singleton _ _

def armedBehind (target : Nat) : Advanced Unit where
  scheduler := endAdvance { armed with currentCycle := target }
  fired := [⟨⟨0, 1⟩, ⟨(), .unknown⟩, extractEvent (reopened oneEvent) ⟨0, 1⟩⟩]
  result := some ⟨.reachedTarget, 1, target⟩

/-- The advance itself does not notice the budget: its target is fixed when it begins. -/
theorem arming_advances (target : Nat) :
    Advances armingCallbacks 10 oneEvent target (armedBehind target) := by
  have hhead : loopHead (reopened oneEvent) ⟨target, 10, target, 0⟩ =
      .fire ⟨0, 1⟩ ⟨target, 10, target, 1⟩ (extractEvent (reopened oneEvent) ⟨0, 1⟩) := by
    unfold loopHead
    simp [oneEvent_minKey]
  have hrest : loopHead armed ⟨target, 10, target, 1⟩ =
      .returns ⟨.reachedTarget, 1, target⟩ (endAdvance { armed with currentCycle := target }) := by
    unfold loopHead
    simp [armed_minKey]
  have hevent : (reopened oneEvent).events[(⟨0, 1⟩ : EventKey)]? = some ⟨(), .unknown⟩ := by
    change oneEvent.events[(⟨0, 1⟩ : EventKey)]? = _
    rw [oneEvent, Std.TreeMap.getElem?_insert]
    simp
  have hrun : armingCallbacks.run (extractEvent (reopened oneEvent) ⟨0, 1⟩) ⟨0, 1⟩
      ⟨(), .unknown⟩ = armed := rfl
  refine ⟨2, ?_⟩
  unfold advanceTo
  change (advanceLoop armingCallbacks 2 ⟨target, 10, target, 0⟩ (reopened oneEvent)).map _ = _
  rw [advanceLoop, hhead]
  simp only [hevent]
  rw [if_neg (by simp [armingCallbacks]), hrun, advanceLoop, hrest]
  rfl

/-- Behind the earlier advance the budget holds the later one back. -/
theorem held_back (r : Advanced Unit)
    (h : Advances armingCallbacks 10 (endAdvance { armed with currentCycle := 0 }) 100 r) :
    r.scheduler.currentCycle = 50 := by
  have hrest : loopHead { armed with currentCycle := 0 } ⟨100, 10, 50, 0⟩ =
      .returns ⟨.guestCycleBudgetExhausted, 0, 50⟩
        (endAdvance { armed with currentCycle := 50 }) := by
    unfold loopHead
    simp [armed_minKey]
  have hrun : Advances armingCallbacks 10 (endAdvance { armed with currentCycle := 0 }) 100
      { scheduler := endAdvance { armed with currentCycle := 50 }
        result := some ⟨.guestCycleBudgetExhausted, 0, 50⟩ } := by
    refine ⟨1, ?_⟩
    unfold advanceTo
    change (advanceLoop armingCallbacks 1 ⟨100, 10, 50, 0⟩
      { armed with currentCycle := 0 }).map _ = _
    rw [advanceLoop, hrest]
    rfl
  rw [h.unique hrun]
  rfl

/-- An armed budget behind the later cycle holds nothing back. -/
theorem advance_to_composes_armed : AdvanceComposes armingCallbacks 10 oneEvent 0 40 := by
  refine (advance_to_composes armingCallbacks 10 rfl (Nat.le_refl 0) (Nat.zero_le 40)).mpr ?_
  rintro ⟨budget, hlt, ⟨first, hfirst, fired, hfired, hleaves⟩, -⟩
  obtain rfl := hfirst.unique (arming_advances 0)
  cases List.mem_singleton.mp hfired
  cases Option.some.inj (hleaves.symm.trans (rfl : armed.guestCycleBudget = some 50))
  exact absurd hlt (by decide)

theorem armed_budget_splits : ¬∀ (callbacks : Callbacks Unit) (eventBudget : Nat)
    (s : EventScheduler Unit) (earlier later : Nat), s.guestCycleBudget = none →
    s.currentCycle ≤ earlier → earlier ≤ later →
    AdvanceComposes callbacks eventBudget s earlier later := by
  intro h
  obtain ⟨first, hfirst, hend⟩ :=
    (h armingCallbacks 10 oneEvent 0 100 rfl (Nat.le_refl 0) (Nat.zero_le 100) (armedBehind 100)
      (by decide : 1 < 10)).mp (arming_advances 100)
  obtain rfl := hfirst.unique (arming_advances 0)
  rcases hend with ⟨hthrew, -⟩ | ⟨result, rest, -, hrest, -, hsame, -⟩
  · cases hthrew
  · have hcycle := held_back rest hrest
    rw [← hsame] at hcycle
    exact absurd hcycle (by decide : (100 : Nat) ≠ 50)

end KatanaRecomp.Runtime.Scheduler
