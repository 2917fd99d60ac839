import Mathlib

/-! # The guest-cycle event scheduler

`EventScheduler` keeps its pending events twice: `events` orders them by
deadline and id, `eventKeys` finds the key of an id for `cancel`. A callback
runs in the middle of `advanceTo` and may call back into the scheduler, so an
advance is not one step here: `Phase` names its control points and `step` is
what the program can do at each of them. Whatever a callback does is then a
sequence of actions between the firing of its event and its return or throw. -/
namespace KatanaRecomp.Runtime.Scheduler

/-- `std::numeric_limits<std::uint64_t>::max()`. -/
def uint64Max : Nat := 2 ^ 64 - 1

inductive SchedulerEventKind
  | unknown | discRead | sh4Dmac | gdRomPacket | hollyG1Dma | hollyG2Dma
  | hollyPvrDma | mapleDma | mediaVideo | mediaAudio | pvrRender | pvrVblankIn
  | pvrVblankOut | pvrHblank | scifTransmit | systemAsic | sh4Rtc | sh4Tmu0
  | sh4Tmu1 | sh4Tmu2 | aicaTick

structure EventKey where
  deadline : Nat
  id : Nat
  deriving DecidableEq

namespace EventKey

/-- The order of `std::pair<std::uint64_t, SchedulerEventId>`. -/
def compare : EventKey → EventKey → Ordering := compareLex (compareOn deadline) (compareOn id)

/-- Lexicographic order of keys, as `compare` decides it. -/
def Before (a b : EventKey) : Prop :=
  a.deadline < b.deadline ∨ a.deadline = b.deadline ∧ a.id < b.id

instance (a b : EventKey) : Decidable (Before a b) := inferInstanceAs (Decidable (_ ∨ _))

end EventKey

structure ScheduledEvent (κ : Type) where
  callback : κ
  kind : SchedulerEventKind

inductive SchedulerError
  | missingCallback | deadlineInThePast | eventIdOverflow | duplicateKey | duplicateId
  | recursiveAdvance | clockRunsBackwards | targetOverflow
  deriving DecidableEq

structure EventScheduler (κ : Type) where
  currentCycle : Nat := 0
  nextEventId : Nat := 1
  processedEventCount : Nat := 0
  guestCycleBudget : Option Nat := none
  advanceInProgress : Bool := false
  events : Std.TreeMap EventKey (ScheduledEvent κ) EventKey.compare := ∅
  eventKeys : Std.HashMap Nat EventKey := ∅

variable {κ : Type}

def scheduleAt (s : EventScheduler κ) (guestCycle : Nat) (callback : Option κ)
    (kind : SchedulerEventKind) : Except SchedulerError (Nat × EventScheduler κ) :=
  match callback with
  | none => .error .missingCallback
  | some callback =>
    if guestCycle < s.currentCycle then .error .deadlineInThePast
    else if s.nextEventId = uint64Max then .error .eventIdOverflow
    else
      let eventId := s.nextEventId
      let key : EventKey := ⟨guestCycle, eventId⟩
      if key ∈ s.events then .error .duplicateKey
      -- The failed second emplace erases the first one again before it throws.
      else if eventId ∈ s.eventKeys then .error .duplicateId
      else .ok (eventId,
        { s with
          events := s.events.insert key ⟨callback, kind⟩
          eventKeys := s.eventKeys.insert eventId key
          nextEventId := s.nextEventId + 1 })

def scheduleAfter (s : EventScheduler κ) (guestCycles : Nat) (callback : Option κ)
    (kind : SchedulerEventKind) : Except SchedulerError (Nat × EventScheduler κ) :=
  if guestCycles > uint64Max - s.currentCycle then .error .targetOverflow
  else scheduleAt s (s.currentCycle + guestCycles) callback kind

def scheduleAtOrNow (s : EventScheduler κ) (requestedGuestCycle : Nat) (callback : Option κ)
    (kind : SchedulerEventKind) : Except SchedulerError (Nat × EventScheduler κ) :=
  scheduleAt s (max requestedGuestCycle s.currentCycle) callback kind

def cancel (s : EventScheduler κ) (eventId : Nat) : Bool × EventScheduler κ :=
  match s.eventKeys[eventId]? with
  | none => (false, s)
  | some key =>
    (true, { s with events := s.events.erase key, eventKeys := s.eventKeys.erase eventId })

inductive SchedulerAdvanceStatus
  | reachedTarget | eventBudgetExhausted | guestCycleBudgetExhausted

structure SchedulerAdvanceResult where
  status : SchedulerAdvanceStatus
  processedEvents : Nat
  guestCycle : Nat

/-- The locals of a running `advance_to`. -/
structure Advance where
  guestCycle : Nat
  eventBudget : Nat
  effectiveTarget : Nat
  processed : Nat

/-- `advance_to` up to its loop: the two checks, the guard and the target. -/
def beginAdvance (s : EventScheduler κ) (guestCycle eventBudget : Nat) :
    Except SchedulerError (Advance × EventScheduler κ) :=
  if s.advanceInProgress then .error .recursiveAdvance
  else if guestCycle < s.currentCycle then .error .clockRunsBackwards
  else
    let effectiveTarget := match s.guestCycleBudget with
      | some budget => min guestCycle budget
      | none => guestCycle
    .ok (⟨guestCycle, eventBudget, effectiveTarget, 0⟩, { s with advanceInProgress := true })

/-- `advance_by` up to the same point. -/
def beginAdvanceBy (s : EventScheduler κ) (guestCycles eventBudget : Nat) :
    Except SchedulerError (Advance × EventScheduler κ) :=
  if s.advanceInProgress then .error .recursiveAdvance
  else if guestCycles > uint64Max - s.currentCycle then .error .targetOverflow
  else beginAdvance s (s.currentCycle + guestCycles) eventBudget

/-- What the head of the loop decides. -/
inductive LoopOutcome (κ : Type)
  | fire (key : EventKey) (advance : Advance) (s : EventScheduler κ)
  | returns (result : SchedulerAdvanceResult) (s : EventScheduler κ)

/-- `AdvanceGuard`'s destructor. -/
def endAdvance (s : EventScheduler κ) : EventScheduler κ := { s with advanceInProgress := false }

/-- The bookkeeping before a callback is entered. -/
def extractEvent (s : EventScheduler κ) (key : EventKey) : EventScheduler κ :=
  { s with
    events := s.events.erase key
    eventKeys := s.eventKeys.erase key.id
    currentCycle := key.deadline
    processedEventCount := s.processedEventCount + 1 }

/-- One evaluation of the `while` condition of `advance_to` with the body up to
the callback, or with the code after the loop. -/
def loopHead (s : EventScheduler κ) (a : Advance) : LoopOutcome κ :=
  let finish :=
    let s' := { s with currentCycle := a.effectiveTarget }
    LoopOutcome.returns
      ⟨if a.effectiveTarget = a.guestCycle then .reachedTarget else .guestCycleBudgetExhausted,
        a.processed, a.effectiveTarget⟩ (endAdvance s')
  match s.events.minKey? with
  | none => finish
  | some key =>
    if key.deadline ≤ a.effectiveTarget then
      if a.processed = a.eventBudget then
        .returns ⟨.eventBudgetExhausted, a.processed, s.currentCycle⟩ (endAdvance s)
      else .fire key { a with processed := a.processed + 1 } (extractEvent s key)
    else finish

/-! ## Runs -/

inductive Phase
  | idle
  | loop (a : Advance)
  | callback (a : Advance)

inductive Action (κ : Type)
  | scheduleAt (guestCycle : Nat) (callback : Option κ) (kind : SchedulerEventKind)
  | scheduleAfter (guestCycles : Nat) (callback : Option κ) (kind : SchedulerEventKind)
  | scheduleAtOrNow (guestCycle : Nat) (callback : Option κ) (kind : SchedulerEventKind)
  | cancel (eventId : Nat)
  | advanceTo (guestCycle eventBudget : Nat)
  | advanceBy (guestCycles eventBudget : Nat)
  | loopHead
  | callbackReturns
  | callbackThrows

/-- A scheduler in use, with what has happened to its events: the keys fired
(oldest first), the ids whose `cancel` returned true, and the result of the
`advance_to` that the last action completed, with the cycle it was asked for. -/
structure Run (κ : Type) where
  scheduler : EventScheduler κ
  phase : Phase := .idle
  fired : List EventKey := []
  cancelled : List Nat := []
  returned : Option (Nat × SchedulerAdvanceResult) := none

/-- A scheduler before its first use, with the run's guest-cycle budget armed. -/
def Run.initial (guestCycleBudget : Option Nat) : Run κ :=
  { scheduler := { guestCycleBudget := guestCycleBudget } }

/-- The caller is in control between advances and inside a callback. -/
def Phase.inCaller : Phase → Bool
  | .loop _ => false
  | _ => true

/-- A call that throws leaves the scheduler as it was. -/
def Run.afterSchedule (c : Run κ) : Except SchedulerError (Nat × EventScheduler κ) → Run κ
  | .ok (_, s) => { c with scheduler := s, returned := none }
  | .error _ => { c with returned := none }

def Run.afterBegin (c : Run κ) : Except SchedulerError (Advance × EventScheduler κ) → Run κ
  | .ok (a, s) => { c with scheduler := s, phase := .loop a, returned := none }
  | .error _ => { c with returned := none }

def Run.afterLoopHead (c : Run κ) (a : Advance) : LoopOutcome κ → Run κ
  | .fire key a' s =>
    { c with scheduler := s, phase := .callback a', fired := c.fired ++ [key] }
  | .returns result s =>
    { c with scheduler := s, phase := .idle, returned := some (a.guestCycle, result) }

/-- One action; an action its phase does not admit does nothing. -/
def step (c : Run κ) (action : Action κ) : Run κ :=
  if c.phase.inCaller then
    match action, c.phase with
    | .scheduleAt cycle callback kind, _ =>
      c.afterSchedule (scheduleAt c.scheduler cycle callback kind)
    | .scheduleAfter cycles callback kind, _ =>
      c.afterSchedule (scheduleAfter c.scheduler cycles callback kind)
    | .scheduleAtOrNow cycle callback kind, _ =>
      c.afterSchedule (scheduleAtOrNow c.scheduler cycle callback kind)
    | .cancel eventId, _ =>
      let (found, s) := cancel c.scheduler eventId
      { c with
        scheduler := s
        cancelled := if found then eventId :: c.cancelled else c.cancelled
        returned := none }
    -- Inside a callback the guard is set, so both advances throw there.
    | .advanceTo guestCycle eventBudget, _ =>
      c.afterBegin (beginAdvance c.scheduler guestCycle eventBudget)
    | .advanceBy guestCycles eventBudget, _ =>
      c.afterBegin (beginAdvanceBy c.scheduler guestCycles eventBudget)
    | .callbackReturns, .callback a => { c with phase := .loop a, returned := none }
    | .callbackThrows, .callback _ =>
      { c with scheduler := endAdvance c.scheduler, phase := .idle, returned := none }
    | _, _ => c
  else
    match action, c.phase with
    | .loopHead, .loop a => c.afterLoopHead a (loopHead c.scheduler a)
    | _, _ => c

def run (c : Run κ) (actions : List (Action κ)) : Run κ := actions.foldl step c

end KatanaRecomp.Runtime.Scheduler
