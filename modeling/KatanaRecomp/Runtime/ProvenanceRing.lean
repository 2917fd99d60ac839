import KatanaRecomp.Lib.RecentRing
import KatanaRecomp.Runtime.CodeTrackerInvariant

/-! # The provenance ring

The events of a tracker are a log that only the scalar and the disc-load writes
extend, and of which the ring keeps the end. -/
namespace KatanaRecomp.Runtime.ExecutableCodeTracker
open Lib

/-! ## The log -/

/-- The event that an operation reports, if it completes. -/
def eventOf (t : ExecutableCodeTracker) : Operation → Option CodeInvalidationEvent
  | .observeWrite address size source bytesChanged =>
    match t.observeWrite address size source bytesChanged with
    | .error _ => none
    | .ok (result, t') =>
      some
        { sequence := t.nextProvenanceSequence
          virtualAddress := address
          physicalAddress := canonicalPhysicalAddress address
          size := size
          source := result.source
          byteIdentical := result.byteIdentical
          pages := result.changedPages.map fun page => ⟨page, t'.pageGeneration page⟩
          invalidatedBlocks := result.invalidatedBlocks
          unlinkedSources := result.unlinkedSources }
  | .discLoadWrite plan =>
    (t.commitDiscLoadWrite plan).map fun t' =>
      { plan.preparedEvent with
        sequence := t.nextProvenanceSequence
        pages := plan.preparedEvent.pages.map fun page =>
          { page with generation := t'.pageGeneration page.physicalPage } }
  | _ => none

/-- The event with a sequence number of its own; the last number is never given out. -/
def numberedEvent (t : ExecutableCodeTracker) (operation : Operation) :
    List CodeInvalidationEvent :=
  if t.nextProvenanceSequence = uint64Max then [] else (t.eventOf operation).toList

/-- What the operations of a run report, in order. -/
def logOf (report : ExecutableCodeTracker → Operation → List CodeInvalidationEvent) :
    ExecutableCodeTracker → List Operation → List CodeInvalidationEvent
  | _, [] => []
  | t, operation :: rest =>
    report t operation ++ match t.apply operation with
      | none => []
      | some t' => logOf report t' rest

/-- The events of a run. -/
def eventLog : ExecutableCodeTracker → List Operation → List CodeInvalidationEvent :=
  logOf fun t operation => (t.eventOf operation).toList

/-- Those with a number of their own. -/
def numberedLog : ExecutableCodeTracker → List Operation → List CodeInvalidationEvent :=
  logOf numberedEvent

/-! ## The invariant -/

structure Logged (capacity : Nat) (t : ExecutableCodeTracker)
    (log reported : List CodeInvalidationEvent) : Prop where
  sized : t.provenanceCapacity = capacity
  ring : RecentRing t.provenanceCapacity log t.invalidationEvents t.oldestInvalidationEvent
  ordered : log.Pairwise (fun earlier later => earlier.sequence < later.sequence)
  below : ∀ event ∈ log, event.sequence < t.nextProvenanceSequence
  bounded : t.nextProvenanceSequence ≤ uint64Max
  counted : t.nextProvenanceSequence ≠ uint64Max →
    t.droppedProvenanceEvents + t.invalidationEvents.length = t.nextProvenanceSequence
  complete : t.nextProvenanceSequence ≠ uint64Max → log = reported

variable {capacity : Nat} {t t' : ExecutableCodeTracker} {log reported : List CodeInvalidationEvent}

/-- The invariant reads the ring and its counters only. -/
theorem Logged.transfer (h : Logged capacity t log reported) (hcapacity : t'.provenanceCapacity = t.provenanceCapacity)
    (hevents : t'.invalidationEvents = t.invalidationEvents)
    (holdest : t'.oldestInvalidationEvent = t.oldestInvalidationEvent)
    (hnext : t'.nextProvenanceSequence = t.nextProvenanceSequence)
    (hdropped : t'.droppedProvenanceEvents = t.droppedProvenanceEvents) : Logged capacity t' log reported := by
  refine ⟨hcapacity.trans h.sized, ?_, h.ordered, ?_, ?_, ?_, ?_⟩
  · rw [hcapacity, hevents, holdest]
    exact h.ring
  · rw [hnext]
    exact h.below
  · rw [hnext]
    exact h.bounded
  · rw [hnext, hdropped, hevents]
    exact h.counted
  · rw [hnext]
    exact h.complete

/-- The event as it goes into the ring. -/
def stamp (t : ExecutableCodeTracker) (event : CodeInvalidationEvent) : CodeInvalidationEvent :=
  { event with
    sequence := t.nextProvenanceSequence
    pages := event.pages.map fun page =>
      { page with generation := t.pageGeneration page.physicalPage } }

variable (event : CodeInvalidationEvent)
include event

theorem appendEvent_eq : t.appendEvent event =
      if t.nextProvenanceSequence = uint64Max then
        { t with droppedProvenanceEvents := countUp t.droppedProvenanceEvents }
      else if t.invalidationEvents.length = t.provenanceCapacity then
        { t with
          invalidationEvents := t.invalidationEvents.set t.oldestInvalidationEvent (t.stamp event)
          oldestInvalidationEvent := (t.oldestInvalidationEvent + 1) % t.provenanceCapacity
          droppedProvenanceEvents := countUp t.droppedProvenanceEvents
          nextProvenanceSequence := t.nextProvenanceSequence + 1 }
      else
        { t with
          invalidationEvents := t.invalidationEvents ++ [t.stamp event]
          nextProvenanceSequence := t.nextProvenanceSequence + 1 } := rfl

theorem appendEvent_generations : (t.appendEvent event).generations = t.generations := by
  rw [appendEvent_eq]
  split
  · rfl
  split
  · rfl
  · rfl

theorem appendEvent_pageGeneration (address : Nat) :
    (t.appendEvent event).pageGeneration address = t.pageGeneration address := by
  unfold pageGeneration
  rw [appendEvent_generations]

omit event

theorem countUp_of_lt {counter : Nat} (h : counter < uint64Max) : countUp counter = counter + 1 :=
  if_neg h.ne

/-- A numbered event extends the log. -/
theorem Logged.appendEvent (h : Logged capacity t log reported) (event : CodeInvalidationEvent) :
    Logged capacity (t.appendEvent event)
      (log ++ if t.nextProvenanceSequence = uint64Max then [] else [t.stamp event])
      (reported ++ [t.stamp event]) := by
  rw [appendEvent_eq]
  by_cases hlast : t.nextProvenanceSequence = uint64Max
  · rw [if_pos hlast, if_pos hlast, List.append_nil]
    exact ⟨h.sized, h.ring, h.ordered, h.below, h.bounded, fun hne => absurd hlast hne,
      fun hne => absurd hlast hne⟩
  rw [if_neg hlast, if_neg hlast]
  have hbounded := h.bounded
  have hcounted := h.counted hlast
  have hcomplete : log ++ [t.stamp event] = reported ++ [t.stamp event] := by
    rw [h.complete hlast]
  have hordered : (log ++ [t.stamp event]).Pairwise
      (fun earlier later => earlier.sequence < later.sequence) := by
    rw [List.pairwise_append]
    refine ⟨h.ordered, List.pairwise_singleton _ _, ?_⟩
    intro earlier hearlier later hlater
    rw [List.mem_singleton.mp hlater]
    exact h.below earlier hearlier
  have hbelow : ∀ e ∈ log ++ [t.stamp event], e.sequence < t.nextProvenanceSequence + 1 := by
    intro e he
    rcases List.mem_append.mp he with hold | hnew
    · exact (h.below e hold).trans (Nat.lt_succ_self _)
    · rw [List.mem_singleton.mp hnew]
      exact Nat.lt_succ_self _
  by_cases hfull : t.invalidationEvents.length = t.provenanceCapacity
  · rw [if_pos hfull]
    refine ⟨h.sized, h.ring.replace hfull _, hordered, hbelow, ?_, ?_, fun _ => hcomplete⟩
    · change t.nextProvenanceSequence + 1 ≤ uint64Max
      omega
    · intro _
      change countUp t.droppedProvenanceEvents + (t.invalidationEvents.set _ _).length =
        t.nextProvenanceSequence + 1
      rw [List.length_set, countUp_of_lt (by omega)]
      omega
  · rw [if_neg hfull]
    refine ⟨h.sized, h.ring.push hfull _, hordered, hbelow, ?_, ?_, fun _ => hcomplete⟩
    · change t.nextProvenanceSequence + 1 ≤ uint64Max
      omega
    · intro _
      change t.droppedProvenanceEvents + (t.invalidationEvents ++ [_]).length =
        t.nextProvenanceSequence + 1
      rw [List.length_append, List.length_singleton]
      omega

/-! ## Batches and reads -/

/-- A batch counts both counters up; neither is cut off while the sequence is not. -/
theorem countUp_iterate {dropped next : Nat} (count : Nat) (hnext : next ≤ uint64Max) {kept : Nat}
    (hcounted : next ≠ uint64Max → dropped + kept = next) :
    next ≤ countUp^[count] next ∧ countUp^[count] next ≤ uint64Max ∧
      (countUp^[count] next ≠ uint64Max →
        countUp^[count] dropped + kept = countUp^[count] next) := by
  induction count with
  | zero => exact ⟨le_rfl, hnext, hcounted⟩
  | succ count ih =>
    obtain ⟨hle, hbounded, hkept⟩ := ih
    rw [Function.iterate_succ_apply', Function.iterate_succ_apply']
    by_cases hlast : countUp^[count] next = uint64Max
    · have hstays : countUp (countUp^[count] next) = uint64Max := by
        rw [hlast]
        exact if_pos rfl
      rw [hstays]
      exact ⟨hnext, le_rfl, fun hne => absurd rfl hne⟩
    · have hsum := hkept hlast
      rw [countUp_of_lt (by omega), countUp_of_lt (by omega)]
      exact ⟨by omega, by omega, fun _ => by omega⟩

theorem Logged.observeWriteBatch (h : Logged capacity t log reported) {events : List GuestWriteEvent}
    (hbatch : t.observeWriteBatch events = some t') : Logged capacity t' log reported := by
  unfold ExecutableCodeTracker.observeWriteBatch at hbatch
  split at hbatch
  · cases hbatch
  obtain ⟨ranges, -, hmaps⟩ := Option.bind_eq_some_iff.mp hbatch
  obtain ⟨maps, -, hswept⟩ := Option.bind_eq_some_iff.mp hmaps
  split at hswept
  · cases hswept
  cases hswept
  obtain ⟨hle, hbounded, hcounted⟩ := countUp_iterate events.length h.bounded h.counted
  refine ⟨h.sized, h.ring, h.ordered, ?_, hbounded, hcounted, ?_⟩
  · intro event hevent
    exact lt_of_lt_of_le (h.below event hevent) hle
  · intro hne
    apply h.complete
    intro hlast
    have hstays : uint64Max ≤ countUp^[events.length] t.nextProvenanceSequence := hlast ▸ hle
    exact hne (le_antisymm hbounded hstays)

theorem Logged.rotateEvents (h : Logged capacity t log reported) : Logged capacity t.rotateEvents log reported := by
  refine ⟨h.sized, h.ring.read, h.ordered, h.below, h.bounded, ?_, h.complete⟩
  intro hne
  change t.droppedProvenanceEvents + (t.invalidationEvents.rotate _).length = _
  rw [List.length_rotate]
  exact h.counted hne

/-! ## Writes -/

variable {source : CodeWriteSource} {result : CodeInvalidationResult} {address : BitVec 32}
  {bytesChanged : Bool}

variable {size : Nat}

section
variable (hobserve : t.observeWrite address size source bytesChanged = .ok (result, t'))
include hobserve

/-- A scalar write is recorded by a tracker with the ring of the one before. -/
theorem observeWrite_recorded :
    ∃ swept : ExecutableCodeTracker,
      t' = swept.recordInvalidationEvent address (canonicalPhysicalAddress address) size result ∧
        swept.nextProvenanceSequence = t.nextProvenanceSequence ∧
        ∀ capacity log reported, Logged capacity t log reported → Logged capacity swept log reported := by
  unfold ExecutableCodeTracker.observeWrite at hobserve
  simp only at hobserve
  split at hobserve
  · cases hobserve
  split at hobserve
  · cases hobserve
  split at hobserve
  · cases hobserve
    exact ⟨t, rfl, rfl, fun _ _ _ h => h⟩
  · cases hobserve
    exact ⟨_, rfl, rfl, fun _ _ _ h => h.transfer rfl rfl rfl rfl rfl⟩

theorem eventOf_observeWrite :
    t.eventOf (.observeWrite address size source bytesChanged) = some
        { sequence := t.nextProvenanceSequence
          virtualAddress := address
          physicalAddress := canonicalPhysicalAddress address
          size := size
          source := result.source
          byteIdentical := result.byteIdentical
          pages := result.changedPages.map fun page => ⟨page, t'.pageGeneration page⟩
          invalidatedBlocks := result.invalidatedBlocks
          unlinkedSources := result.unlinkedSources } := by
  simp only [eventOf, hobserve]

end

theorem Logged.observeWrite (h : Logged capacity t log reported)
    (hobserve : t.observeWrite address size source bytesChanged = .ok (result, t')) :
    Logged capacity t' (log ++ t.numberedEvent (.observeWrite address size source bytesChanged))
      (reported ++ (t.eventOf (.observeWrite address size source bytesChanged)).toList) := by
  obtain ⟨swept, rfl, hnext, hlogged⟩ := observeWrite_recorded hobserve
  have happended := (hlogged capacity log reported h).appendEvent
    { virtualAddress := address
      physicalAddress := canonicalPhysicalAddress address
      size := size
      source := result.source
      byteIdentical := result.byteIdentical
      pages := result.changedPages.map fun page => { physicalPage := page }
      invalidatedBlocks := result.invalidatedBlocks
      unlinkedSources := result.unlinkedSources }
  unfold numberedEvent
  rw [eventOf_observeWrite hobserve]
  rw [hnext] at happended
  simpa only [recordInvalidationEvent, stamp, hnext, appendEvent_pageGeneration, List.map_map,
    Function.comp_def, Option.toList_some] using happended

variable {plan : PreparedDiscLoadWrite}

section
variable (hcommit : t.commitDiscLoadWrite plan = some t')
include hcommit

/-- A commit appends the event it prepared, to a tracker with the ring of the one before. -/
theorem commitDiscLoadWrite_recorded
    : ∃ committed : ExecutableCodeTracker,
      t' = committed.appendEvent plan.preparedEvent ∧
        committed.nextProvenanceSequence = t.nextProvenanceSequence ∧
        ∀ capacity log reported, Logged capacity t log reported → Logged capacity committed log reported := by
  unfold ExecutableCodeTracker.commitDiscLoadWrite at hcommit
  obtain ⟨maps, -, hcommitted⟩ := Option.bind_eq_some_iff.mp hcommit
  simp only [ne_eq] at hcommitted
  split at hcommitted
  · simp at hcommitted
  · simp only [Option.pure_def, Option.some.injEq] at hcommitted
    exact ⟨_, hcommitted.symm, rfl, fun _ _ _ h => h.transfer rfl rfl rfl rfl rfl⟩

theorem eventOf_discLoadWrite
    : t.eventOf (.discLoadWrite plan) = some
        { plan.preparedEvent with
          sequence := t.nextProvenanceSequence
          pages := plan.preparedEvent.pages.map fun page =>
            { page with generation := t'.pageGeneration page.physicalPage } } := by
  simp only [eventOf, hcommit, Option.map_some]

end

variable (h : Logged capacity t log reported)
include h

theorem Logged.commitDiscLoadWrite (hcommit : t.commitDiscLoadWrite plan = some t') :
    Logged capacity t' (log ++ t.numberedEvent (.discLoadWrite plan))
      (reported ++ (t.eventOf (.discLoadWrite plan)).toList) := by
  obtain ⟨committed, heq, hnext, hlogged⟩ := commitDiscLoadWrite_recorded hcommit
  have happended := (hlogged capacity log reported h).appendEvent plan.preparedEvent
  unfold numberedEvent
  rw [eventOf_discLoadWrite hcommit, heq]
  rw [hnext] at happended
  simpa only [stamp, hnext, appendEvent_pageGeneration, Option.toList_some] using happended

theorem Logged.apply {operation : Operation}
    (happly : t.apply operation = some t') : Logged capacity t' (log ++ t.numberedEvent operation)
      (reported ++ (t.eventOf operation).toList) := by
  have hsilent : t.eventOf operation = none → Logged capacity t' log reported →
      Logged capacity t' (log ++ t.numberedEvent operation)
        (reported ++ (t.eventOf operation).toList) := by
    intro hnone hlogged
    unfold numberedEvent
    rw [hnone, Option.toList_none, ite_self, List.append_nil, List.append_nil]
    exact hlogged
  cases operation with
  | registerBlock block =>
    refine hsilent rfl ?_
    unfold ExecutableCodeTracker.apply at happly
    dsimp only at happly
    split at happly
    · rename_i hregister
      cases happly
      rcases registerBlock_cases hregister with ⟨_, rfl, _⟩ | ⟨_, _, _, _, _, rfl⟩
      · exact h.transfer rfl rfl rfl rfl rfl
      · exact h.transfer rfl rfl rfl rfl rfl
    · cases happly
      exact h
  | retireBlock identity =>
    refine hsilent rfl ?_
    cases happly
    rcases retireBlock_cases t identity with heq | ⟨_, _, _, _, _, heq⟩
    · rw [heq]
      exact h
    · rw [heq]
      exact h.transfer rfl rfl rfl rfl rfl
  | observeWrite address size source bytesChanged =>
    unfold ExecutableCodeTracker.apply at happly
    dsimp only at happly
    split at happly
    · rename_i hobserve
      cases happly
      exact h.observeWrite hobserve
    · rename_i hobserve
      cases happly
      exact hsilent (by simp only [eventOf, hobserve]) h
  | observeWriteBatch events => exact hsilent rfl (h.observeWriteBatch happly)
  | discLoadWrite plan => exact h.commitDiscLoadWrite happly
  | invalidationEvents =>
    cases happly
    exact hsilent rfl h.rotateEvents
  | setLookupMode mode =>
    cases happly
    exact hsilent rfl (h.transfer rfl rfl rfl rfl rfl)
  | resetPerformanceCounters =>
    cases happly
    exact hsilent rfl (h.transfer rfl rfl rfl rfl rfl)

theorem Logged.run {operations : List Operation} (hrun : t.run operations = some t') :
    Logged capacity t' (log ++ t.numberedLog operations) (reported ++ t.eventLog operations) := by
  induction operations generalizing t log reported with
  | nil =>
    cases hrun
    rw [numberedLog, eventLog, logOf, logOf, List.append_nil, List.append_nil]
    exact h
  | cons operation rest ih =>
    obtain ⟨middle, happly, hrest⟩ := Option.bind_eq_some_iff.mp hrun
    have hlogged := ih (h.apply happly) hrest
    rw [numberedLog, eventLog, logOf, logOf, happly, ← List.append_assoc, ← List.append_assoc]
    exact hlogged

omit h

theorem Logged.create (hcreate : create capacity = .ok t) : Logged capacity t [] [] := by
  unfold ExecutableCodeTracker.create at hcreate
  split at hcreate
  · cases hcreate
  · rename_i hpositive
    cases hcreate
    refine ⟨rfl, RecentRing.init (Nat.pos_of_ne_zero hpositive), List.Pairwise.nil, ?_,
      Nat.zero_le _, fun _ => rfl, fun _ => rfl⟩
    intro event hevent
    cases hevent

end KatanaRecomp.Runtime.ExecutableCodeTracker
