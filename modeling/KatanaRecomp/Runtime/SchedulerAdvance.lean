import KatanaRecomp.Runtime.SchedulerBudget

/-! # Whole advances

`advance_to` with its callbacks: each is what it does with the scheduler, given the
scheduler as it finds it and its event. Nested advances, resets and restores throw inside
an advance and change nothing. -/
namespace KatanaRecomp.Runtime.Scheduler
variable {κ : Type}

/-- What a callback can call. -/
inductive Call (κ : Type)
  | scheduleAt (guestCycle : Nat) (callback : Option κ) (kind : SchedulerEventKind)
  | scheduleAfter (guestCycles : Nat) (callback : Option κ) (kind : SchedulerEventKind)
  | scheduleAtOrNow (guestCycle : Nat) (callback : Option κ) (kind : SchedulerEventKind)
  | cancel (eventId : Nat)
  | clear
  | setGuestCycleBudget (maximumCycle : Option (BitVec 64))

def afterScheduling (s : EventScheduler κ) :
    Except SchedulerError (Nat × EventScheduler κ) → EventScheduler κ
  | .ok (_, s') => s'
  | .error _ => s

/-- A call that throws leaves the scheduler as it was. -/
def Call.perform (s : EventScheduler κ) : Call κ → EventScheduler κ
  | .scheduleAt cycle callback kind =>
    afterScheduling s (Scheduler.scheduleAt s cycle callback kind)
  | .scheduleAfter cycles callback kind =>
    afterScheduling s (Scheduler.scheduleAfter s cycles callback kind)
  | .scheduleAtOrNow cycle callback kind =>
    afterScheduling s (Scheduler.scheduleAtOrNow s cycle callback kind)
  | .cancel id => (Scheduler.cancel s id).2
  | .clear => Scheduler.clear s
  | .setGuestCycleBudget maximum =>
    match Scheduler.setGuestCycleBudget s maximum with
    | .ok s' => s'
    | .error _ => s

/-- The code behind the events: its calls in order, and whether it throws in the end. -/
structure Callbacks (κ : Type) where
  calls : EventScheduler κ → EventKey → ScheduledEvent κ → List (Call κ)
  throws : EventScheduler κ → EventKey → ScheduledEvent κ → Bool

def Callbacks.run (callbacks : Callbacks κ) (s : EventScheduler κ) (key : EventKey)
    (event : ScheduledEvent κ) : EventScheduler κ :=
  (callbacks.calls s key event).foldl Call.perform s

/-- A fired event with the scheduler that its callback saw. -/
structure Fired (κ : Type) where
  key : EventKey
  event : ScheduledEvent κ
  seen : EventScheduler κ

/-- How an advance ended; there is no result where a callback threw. -/
structure Advanced (κ : Type) where
  scheduler : EventScheduler κ
  fired : List (Fired κ) := []
  result : Option SchedulerAdvanceResult := none

def Advanced.behind (first : Fired κ) (rest : Advanced κ) : Advanced κ :=
  { rest with fired := first :: rest.fired }

/-- The loop of `advance_to`; none where the fuel is spent. -/
def advanceLoop (callbacks : Callbacks κ) : Nat → Advance → EventScheduler κ → Option (Advanced κ)
  | 0, _, _ => none
  | fuel + 1, a, s =>
    match loopHead s a with
    | .returns result s' => some { scheduler := s', result := some result }
    | .fire key a' s' =>
      match s.events[key]? with
      | none => none
      | some event =>
        if callbacks.throws s' key event then
          some { scheduler := endAdvance (callbacks.run s' key event), fired := [⟨key, event, s'⟩] }
        else
          (advanceLoop callbacks fuel a' (callbacks.run s' key event)).map
            (Advanced.behind ⟨key, event, s'⟩)

/-- `advance_to`. -/
def advanceTo (callbacks : Callbacks κ) (fuel : Nat) (s : EventScheduler κ)
    (guestCycle eventBudget : Nat) : Option (Except SchedulerError (Advanced κ)) :=
  match beginAdvance s guestCycle eventBudget with
  | .error e => some (.error e)
  | .ok (a, s') => (advanceLoop callbacks fuel a s').map .ok

/-- The advance comes to an end. -/
def Advances (callbacks : Callbacks κ) (eventBudget : Nat) (s : EventScheduler κ)
    (guestCycle : Nat) (r : Advanced κ) : Prop :=
  ∃ fuel, advanceTo callbacks fuel s guestCycle eventBudget = some (.ok r)

/-! ## Without an event budget -/

/-- The loop of an advance whose event budget is not reached: it ends at its target, or in
a callback that throws, or goes on behind an event. -/
inductive Pursues (callbacks : Callbacks κ) (target : Nat) :
    EventScheduler κ → Bool × Advanced κ → Prop
  | finished {s : EventScheduler κ}
      (hidle : ∀ key, s.events.minKey? = some key → target < key.deadline) :
      Pursues callbacks target s
        (true, { scheduler := endAdvance { s with currentCycle := target } })
  | threw {s : EventScheduler κ} {key : EventKey} {event : ScheduledEvent κ}
      (hmin : s.events.minKey? = some key) (hdue : key.deadline ≤ target)
      (hevent : s.events[key]? = some event)
      (hthrows : callbacks.throws (extractEvent s key) key event = true) :
      Pursues callbacks target s
        (false,
          { scheduler := endAdvance (callbacks.run (extractEvent s key) key event)
            fired := [⟨key, event, extractEvent s key⟩] })
  | fired {s : EventScheduler κ} {key : EventKey} {event : ScheduledEvent κ}
      {r : Bool × Advanced κ} (hmin : s.events.minKey? = some key) (hdue : key.deadline ≤ target)
      (hevent : s.events[key]? = some event)
      (hthrows : ¬callbacks.throws (extractEvent s key) key event = true)
      (hrest : Pursues callbacks target (callbacks.run (extractEvent s key) key event) r) :
      Pursues callbacks target s (r.1, r.2.behind ⟨key, event, extractEvent s key⟩)

/-- The result that `advance_to` reports, with the target it was given and the one it had. -/
def Advanced.reported (guestCycle target processed : Nat) (r : Bool × Advanced κ) : Advanced κ :=
  { r.2 with
    result :=
      if r.1 then
        some ⟨if target = guestCycle then .reachedTarget else .guestCycleBudgetExhausted,
          processed + r.2.fired.length, target⟩
      else none }

section
variable {callbacks : Callbacks κ} {target : Nat} {s : EventScheduler κ} {r : Bool × Advanced κ}

/-- The callback sees the cycle of its event, whatever the clock was before. -/
theorem Pursues.clock (h : Pursues callbacks target s r) (cycle : Nat) :
    Pursues callbacks target { s with currentCycle := cycle } r := by
  cases h with
  | finished hidle => exact .finished hidle
  | threw hmin hdue hevent hthrows => exact .threw hmin hdue hevent hthrows
  | fired hmin hdue hevent hthrows hrest => exact .fired hmin hdue hevent hthrows hrest

/-! ## Splitting at an earlier cycle -/

theorem afterScheduleAt_advanceInProgress (s : EventScheduler κ) (cycle : Nat)
    (callback : Option κ) (kind : SchedulerEventKind) :
    (afterScheduling s (scheduleAt s cycle callback kind)).advanceInProgress =
      s.advanceInProgress := by
  cases h : scheduleAt s cycle callback kind with
  | error e => rfl
  | ok scheduled =>
    obtain ⟨id, s'⟩ := scheduled
    exact (scheduleAt_spec h).advanceInProgress

theorem Call.perform_advanceInProgress (s : EventScheduler κ) (call : Call κ) :
    (call.perform s).advanceInProgress = s.advanceInProgress := by
  cases call with
  | scheduleAt cycle callback kind => exact afterScheduleAt_advanceInProgress s cycle callback kind
  | scheduleAfter cycles callback kind =>
    change (afterScheduling s (Scheduler.scheduleAfter s cycles callback kind)).advanceInProgress = _
    unfold Scheduler.scheduleAfter
    split_ifs
    · rfl
    · exact afterScheduleAt_advanceInProgress s _ callback kind
  | scheduleAtOrNow cycle callback kind =>
    exact afterScheduleAt_advanceInProgress s _ callback kind
  | cancel id =>
    change (Scheduler.cancel s id).2.advanceInProgress = _
    unfold Scheduler.cancel
    cases s.eventKeys[id]? <;> rfl
  | clear => rfl
  | setGuestCycleBudget maximum =>
    unfold perform Scheduler.setGuestCycleBudget
    dsimp only
    split_ifs <;> rfl

theorem Callbacks.run_advanceInProgress (s : EventScheduler κ) (key : EventKey)
    (event : ScheduledEvent κ) :
    (callbacks.run s key event).advanceInProgress = s.advanceInProgress := by
  unfold run
  generalize callbacks.calls s key event = calls
  induction calls generalizing s with
  | nil => rfl
  | cons call rest ih => rw [List.foldl_cons, ih, Call.perform_advanceInProgress]

/-- The scheduler at the start of the next advance. -/
def reopened (s : EventScheduler κ) : EventScheduler κ := { s with advanceInProgress := true }

def Advanced.append (first rest : Advanced κ) : Advanced κ :=
  { rest with fired := first.fired ++ rest.fired }

/-- A pursuit that stops where it is goes on as if it had not. -/
theorem pursues_reopened_iff {cycle : Nat} (hopen : s.advanceInProgress = true) :
    Pursues callbacks target (reopened (endAdvance { s with currentCycle := cycle })) r ↔
      Pursues callbacks target s r := by
  have hreopened : reopened (endAdvance { s with currentCycle := cycle }) =
      { s with currentCycle := cycle } := by
    unfold reopened endAdvance
    rw [← hopen]
  rw [hreopened]
  exact ⟨fun h => h.clock s.currentCycle, fun h => h.clock cycle⟩

/-- The later advance ends as the whole one does, with what the earlier one fired in front. -/
theorem Pursues.split {earlier : Nat} (hle : earlier ≤ target)
    (h : Pursues callbacks target s r) (hopen : s.advanceInProgress = true) :
    ∃ first, Pursues callbacks earlier s first ∧ (first.1 = false ∧ r = first ∨
      first.1 = true ∧ ∃ rest, Pursues callbacks target (reopened first.2.scheduler) rest ∧
        r = (rest.1, first.2.append rest.2)) := by
  have hstop : ∀ {s : EventScheduler κ} {r : Bool × Advanced κ}, s.advanceInProgress = true →
      (∀ key, s.events.minKey? = some key → earlier < key.deadline) →
      Pursues callbacks target s r → ∃ first, Pursues callbacks earlier s first ∧
        (first.1 = false ∧ r = first ∨ first.1 = true ∧ ∃ rest,
          Pursues callbacks target (reopened first.2.scheduler) rest ∧
          r = (rest.1, first.2.append rest.2)) := fun hopen hidle h =>
    ⟨_, .finished hidle, .inr ⟨rfl, _, (pursues_reopened_iff hopen).mpr h, rfl⟩⟩
  have hlate : ∀ {s : EventScheduler κ} {key : EventKey}, s.events.minKey? = some key →
      ¬key.deadline ≤ earlier → ∀ other, s.events.minKey? = some other →
        earlier < other.deadline := by
    intro s key hmin hearly other hother
    cases Option.some.inj (hmin.symm.trans hother)
    exact Nat.not_le.mp hearly
  induction h with
  | finished hidle =>
    exact hstop hopen (fun key hkey => hle.trans_lt (hidle key hkey)) (.finished hidle)
  | @threw s key event hmin hdue hevent hthrows =>
    by_cases hearly : key.deadline ≤ earlier
    · exact ⟨_, .threw hmin hearly hevent hthrows, .inl ⟨rfl, rfl⟩⟩
    · exact hstop hopen (hlate hmin hearly) (.threw hmin hdue hevent hthrows)
  | @fired s key event r hmin hdue hevent hthrows hrest ih =>
    by_cases hearly : key.deadline ≤ earlier
    · -- the event is due in both advances
      obtain ⟨first, hfirst, hend⟩ := ih ((callbacks.run_advanceInProgress _ key event).trans hopen)
      refine ⟨_, .fired hmin hearly hevent hthrows hfirst, ?_⟩
      obtain ⟨hthrew, rfl⟩ | ⟨hreturned, later, hlater, rfl⟩ := hend
      · exact .inl ⟨hthrew, rfl⟩
      · exact .inr ⟨hreturned, later, hlater, rfl⟩
    · exact hstop hopen (hlate hmin hearly) (.fired hmin hdue hevent hthrows hrest)

/-- Two advances one after the other are one. -/
theorem Pursues.join {earlier : Nat} (hle : earlier ≤ target) {first : Bool × Advanced κ}
    (h : Pursues callbacks earlier s first) (hopen : s.advanceInProgress = true) :
    (first.1 = false → Pursues callbacks target s first) ∧
      ∀ {rest : Bool × Advanced κ}, first.1 = true →
        Pursues callbacks target (reopened first.2.scheduler) rest →
        Pursues callbacks target s (rest.1, first.2.append rest.2) := by
  induction h with
  | finished hidle =>
    exact ⟨fun hthrew => (by cases hthrew), fun _ hrest => (pursues_reopened_iff hopen).mp hrest⟩
  | threw hmin hdue hevent hthrows =>
    exact ⟨fun _ => .threw hmin (hdue.trans hle) hevent hthrows,
      fun hreturned => by cases hreturned⟩
  | @fired s key event r hmin hdue hevent hthrows hrest ih =>
    obtain ⟨hthrew, hreturned⟩ := ih ((callbacks.run_advanceInProgress _ key event).trans hopen)
    exact ⟨fun hfalse => .fired hmin (hdue.trans hle) hevent hthrows (hthrew hfalse),
      fun htrue hbehind => .fired hmin (hdue.trans hle) hevent hthrows (hreturned htrue hbehind)⟩

end
end KatanaRecomp.Runtime.Scheduler
