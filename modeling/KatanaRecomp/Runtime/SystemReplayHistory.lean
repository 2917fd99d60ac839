import KatanaRecomp.Runtime.SystemReplay

/-! # What a log knows of its past

Digest, counters, last time and retained prefix of a log are functions of the
events that it has accepted (`Holds`). The decision about an event depends on
nothing else (`Admissible`), apart from the capacity of an exact log. So two logs
that are fed the same calls go in step until the exact one is full. -/
namespace KatanaRecomp.Runtime.SystemReplay
open Lib ByteFormat

/-! ## Functions of the accepted events -/

/-- The sequence numbers are the positions. -/
def sequenced (events : List SystemReplayEvent) : List SystemReplayEvent :=
  events.mapIdx fun i event => { event with sequence := BitVec.ofNat 64 i }

def countsOf (events : List SystemReplayEvent) : SystemReplayEventCounts :=
  events.foldl (fun counts event => counts.count (systemReplayEventCoverage event)) fun _ => 0

def coverageOf (events : List SystemReplayEvent) : BitVec 32 :=
  events.foldl (fun coverage event => coverage ||| systemReplayEventCoverage event) 0

def streamDigestOf (profile : SystemReplayProfile) (enabled : BitVec 32)
    (events : List SystemReplayEvent) : BitVec 64 :=
  (sequenced events).foldl hashEvent (orderingDigestSeed profile enabled)

def orderingDigestOf (profile : SystemReplayProfile) (enabled : BitVec 32)
    (events : List SystemReplayEvent) : BitVec 64 :=
  finalizeOrderingDigest (streamDigestOf profile enabled events) events.length (coverageOf events)
    (countsOf events)

section
variable (events : List SystemReplayEvent)
include events

theorem sequenced_concat (event : SystemReplayEvent) : sequenced (events ++ [event]) =
      sequenced events ++ [{ event with sequence := BitVec.ofNat 64 events.length }] :=
  List.mapIdx_concat

@[simp] theorem length_sequenced : (sequenced events).length = events.length := List.length_mapIdx

theorem sequenced_getElem? (k : Nat) : (sequenced events)[k]? =
      events[k]?.map fun event => { event with sequence := BitVec.ofNat 64 k } :=
  List.getElem?_mapIdx

theorem sequenced_map_unsequenced : (sequenced events).map SystemReplayEvent.unsequenced =
      events.map SystemReplayEvent.unsequenced := by
  apply List.ext_getElem?
  intro k
  rw [List.getElem?_map, List.getElem?_map, sequenced_getElem?, Option.map_map]
  rfl

theorem countsOf_concat (event : SystemReplayEvent) :
    countsOf (events ++ [event]) = (countsOf events).count (systemReplayEventCoverage event) :=
  List.foldl_concat _ _ _ _

theorem coverageOf_concat (event : SystemReplayEvent) :
    coverageOf (events ++ [event]) = coverageOf events ||| systemReplayEventCoverage event :=
  List.foldl_concat _ _ _ _

end

theorem streamDigestOf_nil (profile : SystemReplayProfile) (enabled : BitVec 32) :
    streamDigestOf profile enabled [] = orderingDigestSeed profile enabled := by
  unfold streamDigestOf sequenced
  rw [List.mapIdx_nil, List.foldl_nil]

theorem streamDigestOf_concat (profile : SystemReplayProfile) (enabled : BitVec 32)
    (events : List SystemReplayEvent) (event : SystemReplayEvent) :
    streamDigestOf profile enabled (events ++ [event]) =
      hashEvent (streamDigestOf profile enabled events)
        { event with sequence := BitVec.ofNat 64 events.length } := by
  unfold streamDigestOf
  rw [sequenced_concat, List.foldl_concat]

/-! ## Which events a log takes -/

/-- The guest time of the event lies before that of the last one. -/
def Backwards (last : Option SystemReplayEvent) (event : SystemReplayEvent) : Prop :=
  ∃ before, last = some before ∧ (event.timeEpoch < before.timeEpoch ∨
    event.timeEpoch = before.timeEpoch ∧ event.guestCycle < before.guestCycle)

/-- The event may follow the events before it. -/
structure Admissible (profile : SystemReplayProfile) (enabled : BitVec 32)
    (before : List SystemReplayEvent) (event : SystemReplayEvent) : Prop where
  valid : validateEvent event = .ok ()
  hooked : ¬ (profile = .deterministicV1 ∧ systemReplayEventCoverage event &&& ~~~enabled ≠ 0)
  forwards : ¬ Backwards before.getLast? event
  numbered : before.length ≠ uint64Max
  counted : ¬ ∃ i : Fin systemReplayCoverageClassCount,
    (systemReplayEventCoverage event).getLsbD i.val = true ∧ countsOf before i = uint64Max

variable {event : SystemReplayEvent}

theorem Admissible.unsequenced {profile : SystemReplayProfile} {enabled : BitVec 32}
    {before : List SystemReplayEvent} :
    Admissible profile enabled before event.unsequenced ↔ Admissible profile enabled before event :=
  ⟨fun h => ⟨h.valid, h.hooked, h.forwards, h.numbered, h.counted⟩,
    fun h => ⟨h.valid, h.hooked, h.forwards, h.numbered, h.counted⟩⟩

namespace SystemReplayLog

/-- The digest of the events so far. -/
def streamDigest (log : SystemReplayLog) : BitVec 64 :=
  if log.orderingDigestInitialized then log.orderingDigestState
  else orderingDigestSeed log.config.profile log.enabledCoverage

/-- An exact log has no room left. -/
def Full (log : SystemReplayLog) : Prop :=
  log.config.storageMode = .exactEvents ∧ log.events.length = log.config.capacity

/-- The log has taken these events and nothing else. -/
structure Holds (log : SystemReplayLog) (events : List SystemReplayEvent) : Prop where
  required : log.requiredCoverage = systemReplayRequiredCoverage log.config.profile
  known : log.enabledCoverage &&& ~~~allCoverage = 0
  capacity : 0 < log.config.capacity ∧ log.config.capacity ≤ maximumCapacity
  profile : log.config.profile = .general ∨ log.config.profile = .deterministicV1
  retained : log.events = (sequenced events).take log.config.capacity
  count : log.eventCount = events.length
  digest : log.streamDigest = streamDigestOf log.config.profile log.enabledCoverage events
  observed : log.observedCoverage = coverageOf events
  counts : log.eventCounts = countsOf events
  lastCycle : log.lastGuestCycle = events.getLast?.map SystemReplayEvent.guestCycle
  lastEpoch : log.lastTimeEpoch = events.getLast?.map SystemReplayEvent.timeEpoch
  fits : log.config.storageMode = .exactEvents → events.length ≤ log.config.capacity
  plain : ∀ event ∈ events, event.unsequenced = event
  admitted : ∀ k event, events[k]? = some event →
    Admissible log.config.profile log.enabledCoverage (events.take k) event

namespace Holds
variable {log : SystemReplayLog} {events : List SystemReplayEvent} (h : Holds log events)
include h

/-- Neither the seal nor the count of dropped events matters. -/
theorem frame (hash : Option (BitVec 64)) (dropped : Nat) :
    Holds { log with finalGuestStateHash := hash, droppedEvents := dropped } events :=
  ⟨h.required, h.known, h.capacity, h.profile, h.retained, h.count, h.digest, h.observed, h.counts,
    h.lastCycle, h.lastEpoch, h.fits, h.plain, h.admitted⟩

theorem orderingDigest :
    log.orderingDigest = orderingDigestOf log.config.profile log.enabledCoverage events := by
  change finalizeOrderingDigest log.streamDigest log.eventCount log.observedCoverage
    log.eventCounts = _
  rw [h.digest, h.count, h.observed, h.counts]
  rfl

theorem length_events : log.events.length = min log.config.capacity events.length := by
  rw [h.retained, List.length_take, length_sequenced]

theorem events_of_fits (hfits : events.length ≤ log.config.capacity) :
    log.events = sequenced events := by
  rw [h.retained, List.take_of_length_le (by rwa [length_sequenced])]

theorem full_iff :
    log.Full ↔ log.config.storageMode = .exactEvents ∧ events.length = log.config.capacity := by
  unfold Full
  rw [h.length_events]
  constructor
  · intro hfull
    have hfits := h.fits hfull.1
    exact ⟨hfull.1, by omega⟩
  · intro hfull
    exact ⟨hfull.1, by omega⟩

theorem runsBackwards_iff (event : SystemReplayEvent) :
    log.runsBackwards event = true ↔ Backwards events.getLast? event := by
  unfold runsBackwards Backwards
  rw [h.lastEpoch, h.lastCycle]
  cases events.getLast? with
  | none => simp
  | some before => simp

/-- The checks of `record` decide about the event from the events before it. -/
theorem checks_iff (hopen : log.isSealed = false) (event : SystemReplayEvent) :
    (log.checkEvent event = .ok () ∧ log.checkCounters event = .ok ()) ↔
      Admissible log.config.profile log.enabledCoverage events event := by
  have hback := h.runsBackwards_iff event
  unfold checkEvent checkCounters
  rw [hopen, if_neg Bool.false_ne_true, h.count, h.counts]
  constructor
  · rintro ⟨hevent, hcounters⟩
    obtain ⟨_, hvalid, hevent⟩ := bind_eq_ok hevent
    split at hevent
    · cases hevent
    rename_i hhooked
    split at hevent
    · cases hevent
    rename_i hforwards
    split at hcounters
    · cases hcounters
    rename_i hnumbered
    split at hcounters
    · cases hcounters
    rename_i hcounted
    exact ⟨hvalid, hhooked, fun hb => hforwards (hback.mpr hb), hnumbered, hcounted⟩
  · intro hadmissible
    refine ⟨?_, ?_⟩
    · rw [hadmissible.valid]
      change (if _ then _ else _) = _
      rw [if_neg hadmissible.hooked, if_neg fun hb => hadmissible.forwards (hback.mp hb)]
    · rw [if_neg hadmissible.numbered, if_neg hadmissible.counted]

omit h

end Holds

/-! ## One call -/

/-- A refused event leaves everything but the count of dropped events. -/
theorem noteDroppedEvent_eq (log : SystemReplayLog) :
    log.noteDroppedEvent = { log with droppedEvents := log.noteDroppedEvent.droppedEvents } := by
  unfold noteDroppedEvent
  split
  · rfl
  · split <;> rfl

variable {log : SystemReplayLog}

theorem noteDroppedEvent_droppedEvents_ne_zero
    (hopen : log.isSealed = false) : log.noteDroppedEvent.droppedEvents ≠ 0 := by
  unfold noteDroppedEvent
  rw [hopen, if_neg Bool.false_ne_true]
  split
  · exact Nat.succ_ne_zero _
  · rename_i hmax
    rw [not_not.mp hmax]
    decide

variable {e : ReplayError}

theorem record_of_checkEvent
    (h : log.checkEvent event = .error e) : record event log = .error e log := by
  simp only [record, bind, EStateM.bind, get, getThe, MonadStateOf.get, EStateM.get, h, ofChecked,
    throw, throwThe, MonadExceptOf.throw, EStateM.throw]

section
variable (h : log.checkEvent event = .ok ())
include h

theorem record_of_full (hfull : log.Full) :
    record event log = .error .capacityExhausted log.noteDroppedEvent := by
  unfold Full at hfull
  simp only [record, bind, EStateM.bind, get, getThe, MonadStateOf.get, EStateM.get, h, ofChecked,
    hfull, and_self, if_true, throw, throwThe, MonadExceptOf.throw, EStateM.throw, pure,
    EStateM.pure, modify, modifyGet, MonadStateOf.modifyGet, EStateM.modifyGet]

theorem record_of_checkCounters
    (hroom : ¬ log.Full)
    (hcounters : log.checkCounters event = .error e) : record event log = .error e log := by
  unfold Full at hroom
  simp only [record, bind, EStateM.bind, get, getThe, MonadStateOf.get, EStateM.get, h, ofChecked,
    hroom, hcounters, if_false, throw, throwThe, MonadExceptOf.throw, EStateM.throw, pure,
    EStateM.pure]

theorem record_of_checks (hroom : ¬ log.Full) (hcounters : log.checkCounters event = .ok ()) :
    record event log = .ok () (log.accept event) := by
  unfold Full at hroom
  simp only [record, bind, EStateM.bind, get, getThe, MonadStateOf.get, EStateM.get, h, ofChecked,
    hroom, hcounters, if_false, pure, EStateM.pure, modify, modifyGet, MonadStateOf.modifyGet,
    EStateM.modifyGet]

end

/-- Everything a call of `record` can do. -/
theorem record_cases (log : SystemReplayLog) (event : SystemReplayEvent) :
    (record event log = .ok () (log.accept event) ∧ ¬ log.Full ∧ log.checkEvent event = .ok () ∧
      log.checkCounters event = .ok ()) ∨ (∃ e, record event log = .error e log ∧
      ¬ (log.checkEvent event = .ok () ∧ log.checkCounters event = .ok ())) ∨
    (record event log = .error .capacityExhausted log.noteDroppedEvent ∧ log.Full) := by
  cases hevent : log.checkEvent event with
  | error e => exact .inr (.inl ⟨e, record_of_checkEvent hevent, fun h => nomatch h.1⟩)
  | ok _ =>
    by_cases hfull : log.Full
    · exact .inr (.inr ⟨record_of_full hevent hfull, hfull⟩)
    · cases hcounters : log.checkCounters event with
      | error e =>
        exact .inr (.inl ⟨e, record_of_checkCounters hevent hfull hcounters, fun h => nomatch h.2⟩)
      | ok _ => exact .inl ⟨record_of_checks hevent hfull hcounters, hfull, rfl, rfl⟩

/-- A `record` that throws changes nothing but the count of dropped events. -/
theorem record_error_frame {log t : SystemReplayLog}
    (h : record event log = .error e t) : t = { log with droppedEvents := t.droppedEvents } := by
  rcases record_cases log event with ⟨hok, -⟩ | ⟨e', herror, -⟩ | ⟨hfull, -⟩
  · rw [h] at hok
    cases hok
  · rw [h] at herror
    cases herror
    rfl
  · rw [h] at hfull
    cases hfull
    exact noteDroppedEvent_eq log

theorem Holds.accept {events : List SystemReplayEvent} (h : Holds log events) (hroom : ¬ log.Full)
    (hadmissible : Admissible log.config.profile log.enabledCoverage events event) :
    Holds (log.accept event) (events ++ [event.unsequenced]) := by
  have hlast : (events ++ [event.unsequenced]).getLast? = some event.unsequenced :=
    List.getLast?_concat
  refine ⟨h.required, h.known, h.capacity, h.profile, ?_, ?_, ?_, ?_, ?_, ?_, ?_, ?_, ?_, ?_⟩
  · -- a full prefix stays, a shorter one is the whole list
    rw [h.full_iff] at hroom
    change (if log.retainsEvent = true then _ else _) = List.take log.config.capacity _
    rw [sequenced_concat, h.retained, h.count]
    unfold retainsEvent
    rw [h.length_events]
    by_cases hlt : events.length < log.config.capacity
    · rw [if_pos (by simp; omega), List.take_of_length_le (by simp; omega),
        List.take_of_length_le (by simp; omega)]
      rfl
    · rw [List.take_append_of_le_length (by simp; omega), if_neg]
      simp only [Bool.or_eq_true, beq_iff_eq, decide_eq_true_eq, not_or, not_lt]
      refine ⟨fun hexact => hroom ⟨hexact, ?_⟩, by omega⟩
      have hfits := h.fits hexact
      omega
  · change log.eventCount + 1 = _
    rw [h.count, List.length_append]
    rfl
  · change hashEvent log.streamDigest { event with sequence := BitVec.ofNat 64 log.eventCount } = _
    rw [h.digest, h.count, streamDigestOf_concat]
    rfl
  · change log.observedCoverage ||| systemReplayEventCoverage event = _
    rw [h.observed, coverageOf_concat]
    rfl
  · change log.eventCounts.count (systemReplayEventCoverage event) = _
    rw [h.counts, countsOf_concat]
    rfl
  · rw [hlast]
    rfl
  · rw [hlast]
    rfl
  · intro hexact
    rw [h.full_iff] at hroom
    have hfits := h.fits hexact
    have hne : events.length ≠ log.config.capacity := fun heq => hroom ⟨hexact, heq⟩
    change (events ++ [event.unsequenced]).length ≤ log.config.capacity
    rw [List.length_append, List.length_singleton]
    omega
  · intro e he
    rcases List.mem_append.mp he with he | he
    · exact h.plain e he
    · rw [List.mem_singleton.mp he]
      rfl
  · intro k e hk
    rcases Nat.lt_trichotomy k events.length with hlt | heq | hgt
    · rw [List.getElem?_append_left hlt] at hk
      rw [List.take_append_of_le_length (by omega)]
      exact h.admitted k e hk
    · subst heq
      rw [List.getElem?_concat_length] at hk
      cases hk
      rw [List.take_left]
      exact Admissible.unsequenced.mpr hadmissible
    · rw [List.getElem?_eq_none (by rw [List.length_append, List.length_singleton]; omega)] at hk
      cases hk

end SystemReplayLog

open SystemReplayLog

/-! ## A sequence of calls -/

/-- What decides about a call: `inject` has one more check. -/
def Call.Admissible (profile : SystemReplayProfile) (enabled : BitVec 32)
    (before : List SystemReplayEvent) (call : Call) : Prop :=
  SystemReplay.Admissible profile enabled before call.event ∧
    ∀ event, call = .inject event → externalKind event.kind = true

/-- Only `try_record` notes that an event was refused. -/
def Call.refused (log : SystemReplayLog) : Call → SystemReplayLog
  | .tryRecord _ => log.noteDroppedEvent
  | _ => log

variable {log t : SystemReplayLog}

theorem perform_tryRecord_ok
    (h : record event log = .ok () t) : (Call.tryRecord event).perform log = .ok true t := by
  change tryRecord event log = _
  simp only [tryRecord, bind, EStateM.bind, get, getThe, MonadStateOf.get, EStateM.get, tryCatch,
    tryCatchThe, MonadExceptOf.tryCatch, EStateM.tryCatch, h, pure, EStateM.pure]

theorem perform_tryRecord_error
    {e : ReplayError} (h : record event log = .error e t) : (Call.tryRecord event).perform log =
      .ok false (if t.droppedEvents = log.droppedEvents then t.noteDroppedEvent else t) := by
  change tryRecord event log = _
  simp only [tryRecord, bind, EStateM.bind, get, getThe, MonadStateOf.get, EStateM.get, tryCatch,
    tryCatchThe, MonadExceptOf.tryCatch, EStateM.tryCatch, h, pure, EStateM.pure, modify, modifyGet,
    MonadStateOf.modifyGet, EStateM.modifyGet, EStateM.dummyRestore, EStateM.Backtrackable.restore]
  rfl

theorem perform_record (event : SystemReplayEvent) :
    (Call.record event).perform log = (record event log).map fun _ => true := by
  change (do SystemReplayLog.record event; pure true : ReplayM Bool) log = _
  simp only [bind, EStateM.bind]
  cases SystemReplayLog.record event log <;> rfl

theorem perform_inject {event : SystemReplayEvent}
    (h : externalKind event.kind = true) :
    (Call.inject event).perform log = (Call.record { event with injected := true }).perform log := by
  change (do SystemReplayLog.inject event; pure true : ReplayM Bool) log = _
  unfold SystemReplayLog.inject
  rw [h]
  rfl

theorem perform_inject_error {event : SystemReplayEvent}
    (h : externalKind event.kind = false) :
    (Call.inject event).perform log = .error .notExternal log := by
  change (do SystemReplayLog.inject event; pure true : ReplayM Bool) log = _
  unfold SystemReplayLog.inject
  rw [h]
  rfl

/-- Everything a call can do. -/
inductive Outcome (log : SystemReplayLog) (call : Call) : Prop
  | took (htaken : taken log call = true) (hafter : after log call = log.accept call.event)
      (hroom : ¬ log.Full) (hevent : log.checkEvent call.event = .ok ())
      (hcounters : log.checkCounters call.event = .ok ())
      (hinject : ∀ event, call = .inject event → externalKind event.kind = true)
  | refused (htaken : taken log call = false) (hafter : after log call = call.refused log)
      (hchecks : ¬ ((log.checkEvent call.event = .ok () ∧ log.checkCounters call.event = .ok ()) ∧
        ∀ event, call = .inject event → externalKind event.kind = true))
  | dropped (htaken : taken log call = false) (dropped : Nat)
      (hafter : after log call = { log with droppedEvents := dropped }) (hfull : log.Full)
      (hdropped : log.isSealed = false → dropped ≠ 0)

theorem Outcome.of_record (log : SystemReplayLog) (event : SystemReplayEvent) :
    Outcome log (.record event) := by
  have hperform := @perform_record log event
  have hinject : ∀ other, Call.record event = .inject other → externalKind other.kind = true := by
    intro other h
    cases h
  rcases record_cases log event with ⟨hok, hroom, hevent, hcounters⟩ | ⟨e, herror, hchecks⟩ |
    ⟨herror, hfull⟩
  · rw [hok] at hperform
    exact .took (by unfold taken; rw [hperform]; rfl) (by unfold after; rw [hperform]; rfl) hroom
      hevent hcounters hinject
  · rw [herror] at hperform
    exact .refused (by unfold taken; rw [hperform]; rfl) (by unfold after; rw [hperform]; rfl)
      fun h => hchecks h.1
  · rw [herror] at hperform
    refine .dropped (by unfold taken; rw [hperform]; rfl) log.noteDroppedEvent.droppedEvents ?_ hfull
      noteDroppedEvent_droppedEvents_ne_zero
    unfold after
    rw [hperform]
    exact noteDroppedEvent_eq log

theorem Outcome.of_tryRecord (log : SystemReplayLog) (event : SystemReplayEvent) :
    Outcome log (.tryRecord event) := by
  have hinject : ∀ other, Call.tryRecord event = .inject other → externalKind other.kind = true := by
    intro other h
    cases h
  rcases record_cases log event with ⟨hok, hroom, hevent, hcounters⟩ | ⟨e, herror, hchecks⟩ |
    ⟨herror, hfull⟩
  · have hperform := perform_tryRecord_ok hok
    exact .took (by unfold taken; rw [hperform]) (by unfold after; rw [hperform]; rfl) hroom
      hevent hcounters hinject
  · have hperform := perform_tryRecord_error herror
    rw [if_pos rfl] at hperform
    exact .refused (by unfold taken; rw [hperform]) (by unfold after; rw [hperform]; rfl)
      fun h => hchecks h.1
  · have hperform := perform_tryRecord_error herror
    have hafter : after log (.tryRecord event) =
        if log.noteDroppedEvent.droppedEvents = log.droppedEvents then
          log.noteDroppedEvent.noteDroppedEvent else log.noteDroppedEvent := by
      unfold after
      rw [hperform]
    have htaken : taken log (.tryRecord event) = false := by
      unfold taken
      rw [hperform]
    have hframe := noteDroppedEvent_eq log
    by_cases hsame : log.noteDroppedEvent.droppedEvents = log.droppedEvents
    · -- the counter is saturated, so noting the drop again changes nothing either
      rw [if_pos hsame] at hafter
      refine .dropped htaken log.noteDroppedEvent.noteDroppedEvent.droppedEvents ?_ hfull ?_
      · rw [hafter, noteDroppedEvent_eq log.noteDroppedEvent, hframe]
      · intro hopen
        apply noteDroppedEvent_droppedEvents_ne_zero
        rw [hframe]
        exact hopen
    · rw [if_neg hsame] at hafter
      refine .dropped htaken log.noteDroppedEvent.droppedEvents ?_ hfull
        noteDroppedEvent_droppedEvents_ne_zero
      rw [hafter]
      exact hframe

theorem Outcome.of_inject (log : SystemReplayLog) (event : SystemReplayEvent) :
    Outcome log (.inject event) := by
  cases hkind : externalKind event.kind with
  | false =>
    have hperform := @perform_inject_error log event hkind
    refine .refused (by unfold taken; rw [hperform]) (by unfold after; rw [hperform]; rfl) ?_
    intro h
    have := h.2 event rfl
    rw [hkind] at this
    cases this
  | true =>
    have hperform := @perform_inject log event hkind
    have htaken : taken log (.inject event) =
        taken log (.record { event with injected := true }) := by
      unfold taken
      rw [hperform]
    have hafter : after log (.inject event) =
        after log (.record { event with injected := true }) := by
      unfold after
      rw [hperform]
    have hinject : ∀ other, Call.inject event = .inject other → externalKind other.kind = true := by
      intro other h
      cases h
      exact hkind
    cases Outcome.of_record log { event with injected := true } with
    | took h hnext hroom hevent hcounters _ =>
      exact .took (htaken.trans h) (hafter.trans hnext) hroom hevent hcounters hinject
    | refused h hnext hchecks =>
      refine .refused (htaken.trans h) (hafter.trans hnext) fun hall => hchecks ⟨hall.1, ?_⟩
      intro other heq
      cases heq
    | dropped h dropped hnext hfull hdropped =>
      exact .dropped (htaken.trans h) dropped (hafter.trans hnext) hfull hdropped

theorem outcome (log : SystemReplayLog) (call : Call) : Outcome log call := by
  cases call with
  | record event => exact .of_record log event
  | tryRecord event => exact .of_tryRecord log event
  | inject event => exact .of_inject log event

theorem Call.refused_eq (call : Call) (log : SystemReplayLog) :
    call.refused log = { log with droppedEvents := (call.refused log).droppedEvents } := by
  cases call with
  | tryRecord event => exact noteDroppedEvent_eq log
  | record event => rfl
  | inject event => rfl

/-- A new call has the log hold what it held before and the event that it took. -/
structure Extends (log next : SystemReplayLog) (before new : List SystemReplayEvent) : Prop where
  holds : Holds next (before ++ new)
  isOpen : next.isSealed = false
  config : next.config = log.config
  enabled : next.enabledCoverage = log.enabledCoverage

variable {events : List SystemReplayEvent}

theorem Extends.nothing
    (h : Holds log events) (hopen : log.isSealed = false) (dropped : Nat) :
    Extends log { log with droppedEvents := dropped } events [] := by
  refine ⟨?_, hopen, rfl, rfl⟩
  rw [List.append_nil]
  exact h.frame _ _

theorem after_extends
    (h : Holds log events) (hopen : log.isSealed = false) (call : Call) :
    Extends log (after log call) events
      (if taken log call then [call.event.unsequenced] else []) := by
  cases outcome log call with
  | took htaken hafter hroom hevent hcounters _ =>
    rw [htaken, hafter, if_pos rfl]
    exact ⟨h.accept hroom ((h.checks_iff hopen _).mp ⟨hevent, hcounters⟩), hopen, rfl, rfl⟩
  | refused htaken hafter _ =>
    rw [htaken, hafter, if_neg Bool.false_ne_true, Call.refused_eq]
    exact .nothing h hopen _
  | dropped htaken n hafter _ _ =>
    rw [htaken, hafter, if_neg Bool.false_ne_true]
    exact .nothing h hopen n

theorem feed_extends
    (h : Holds log events) (hopen : log.isSealed = false) (calls : List Call) :
    Extends log (feed log calls) events (accepted log calls) := by
  induction calls generalizing log events with
  | nil =>
    change Extends log log events []
    exact ⟨by rwa [List.append_nil], hopen, rfl, rfl⟩
  | cons call calls ih =>
    have hstep := after_extends h hopen call
    have hrest := ih hstep.holds hstep.isOpen
    refine ⟨?_, hrest.isOpen, hrest.config.trans hstep.config, hrest.enabled.trans hstep.enabled⟩
    change Holds (feed (after log call) calls) (events ++ (_ ++ accepted (after log call) calls))
    rw [← List.append_assoc]
    exact hrest.holds

/-- A drop is never forgotten. -/
theorem droppedEvents_after (hopen : log.isSealed = false) {call : Call}
    (h : (after log call).droppedEvents = 0) : log.droppedEvents = 0 := by
  cases outcome log call with
  | took _ hafter _ _ _ _ =>
    rw [hafter] at h
    exact h
  | refused _ hafter _ =>
    rw [hafter] at h
    cases call with
    | tryRecord event => exact absurd h (noteDroppedEvent_droppedEvents_ne_zero hopen)
    | record event => exact h
    | inject event => exact h
  | dropped _ n hafter _ hn =>
    rw [hafter] at h
    exact absurd h (hn hopen)

theorem droppedEvents_feed
    (hholds : Holds log events) (hopen : log.isSealed = false) {calls : List Call}
    (h : (feed log calls).droppedEvents = 0) : log.droppedEvents = 0 := by
  induction calls generalizing log events with
  | nil => exact h
  | cons call calls ih =>
    have hstep := after_extends hholds hopen call
    exact droppedEvents_after hopen (ih hstep.holds hstep.isOpen h)

variable {exact digest : SystemReplayLog}

/-- As long as the exact log drops nothing, the digest log takes the same event of a call and
drops nothing either. -/
theorem after_inStep
    (hexact : Holds exact events) (hdigest : Holds digest events)
    (hopen : exact.isSealed = false) (hopen' : digest.isSealed = false)
    (hprofile : digest.config.profile = exact.config.profile)
    (henabled : digest.enabledCoverage = exact.enabledCoverage)
    (hmode : digest.config.storageMode = .digestStream) (hdropped : digest.droppedEvents = 0)
    (call : Call) (h : (after exact call).droppedEvents = 0) :
    taken digest call = taken exact call ∧ (after digest call).droppedEvents = 0 := by
  have hroom : ¬ digest.Full := by
    intro hfull
    rw [hfull.1] at hmode
    cases hmode
  have hchecks : (digest.checkEvent call.event = .ok () ∧ digest.checkCounters call.event = .ok ()) ↔
      (exact.checkEvent call.event = .ok () ∧ exact.checkCounters call.event = .ok ()) := by
    rw [hdigest.checks_iff hopen', hexact.checks_iff hopen, hprofile, henabled]
  cases outcome digest call with
  | took htaken hafter _ hevent hcounters hinject =>
    rw [htaken, hafter]
    refine ⟨?_, hdropped⟩
    cases outcome exact call with
    | took htaken' _ _ _ _ _ => exact htaken'.symm
    | refused _ _ hrefused => exact absurd ⟨hchecks.mp ⟨hevent, hcounters⟩, hinject⟩ hrefused
    | dropped _ n hafter' _ hn =>
      rw [hafter'] at h
      exact absurd h (hn hopen)
  | refused htaken hafter hrefused =>
    rw [htaken, hafter]
    cases outcome exact call with
    | took _ _ _ hevent hcounters hinject =>
      exact absurd ⟨hchecks.mpr ⟨hevent, hcounters⟩, hinject⟩ hrefused
    | refused htaken' hafter' _ =>
      refine ⟨htaken'.symm, ?_⟩
      cases call with
      | tryRecord event =>
        rw [hafter'] at h
        exact absurd h (noteDroppedEvent_droppedEvents_ne_zero hopen)
      | record event => exact hdropped
      | inject event => exact hdropped
    | dropped _ n hafter' _ hn =>
      rw [hafter'] at h
      exact absurd h (hn hopen)
  | dropped _ _ _ hfull _ => exact absurd hfull hroom

theorem feed_inStep
    (hexact : Holds exact events) (hdigest : Holds digest events)
    (hopen : exact.isSealed = false) (hopen' : digest.isSealed = false)
    (hprofile : digest.config.profile = exact.config.profile)
    (henabled : digest.enabledCoverage = exact.enabledCoverage)
    (hmode : digest.config.storageMode = .digestStream) (hdropped : digest.droppedEvents = 0)
    (calls : List Call) (h : (feed exact calls).droppedEvents = 0) :
    accepted digest calls = accepted exact calls ∧ (feed digest calls).droppedEvents = 0 := by
  induction calls generalizing exact digest events with
  | nil => exact ⟨rfl, hdropped⟩
  | cons call calls ih =>
    have hstep := after_extends hexact hopen call
    have hstep' := after_extends hdigest hopen' call
    have hnone := droppedEvents_feed hstep.holds hstep.isOpen h
    obtain ⟨htaken, hnext⟩ := after_inStep hexact hdigest hopen hopen' hprofile henabled hmode
      hdropped call hnone
    rw [htaken] at hstep'
    obtain ⟨hrest, hend⟩ := ih hstep.holds hstep'.holds hstep.isOpen hstep'.isOpen
      (by rw [hstep'.config, hstep.config, hprofile])
      (by rw [hstep'.enabled, hstep.enabled, henabled])
      (by rw [hstep'.config, hmode]) hnext h
    refine ⟨?_, hend⟩
    change _ ++ accepted (after digest call) calls = _ ++ accepted (after exact call) calls
    rw [hrest, htaken]

/-! ## Recordings -/

variable {config : SystemReplayConfig} {coverage : BitVec 32}

theorem started_holds (h : started config coverage = .ok log) :
    Extends log log [] [] ∧ log.config = config ∧ log.enabledCoverage = coverage ∧
      log.droppedEvents = 0 := by
  obtain ⟨fresh, hfresh, henable⟩ := bind_eq_ok h
  unfold SystemReplayLog.create at hfresh
  split at hfresh
  · cases hfresh
  rename_i hprofile
  split at hfresh
  · cases hfresh
  rename_i hcapacity
  split at hfresh
  · cases hfresh
  cases hfresh
  unfold SystemReplayLog.enableCoverage at henable
  split at henable
  · cases henable
  rename_i hknown
  rw [if_neg (by simp [SystemReplayLog.isSealed]), if_neg (by simp)] at henable
  cases henable
  have hcoverage : (0 : BitVec 32) ||| coverage = coverage := BitVec.zero_or
  refine ⟨⟨?_, rfl, rfl, rfl⟩, rfl, hcoverage, rfl⟩
  refine ⟨rfl, ?_, ⟨?_, ?_⟩, ?_, ?_, rfl, ?_, rfl, rfl, rfl, rfl, ?_, ?_, ?_⟩
  · change (0 ||| coverage) &&& ~~~allCoverage = 0
    rw [hcoverage]
    exact not_not.mp hknown
  · change 0 < config.capacity
    omega
  · change config.capacity ≤ maximumCapacity
    omega
  · change config.profile = .general ∨ config.profile = .deterministicV1
    tauto
  · exact List.take_nil.symm
  · unfold SystemReplayLog.streamDigest
    rw [if_neg Bool.false_ne_true, List.append_nil, streamDigestOf_nil]
  · intro _
    exact Nat.zero_le _
  · intro event hevent
    cases hevent
  · intro k event hevent
    cases hevent

theorem started_ok (h : started config coverage = .ok log) {capacity : Nat} (hpos : 0 < capacity)
    (hle : capacity ≤ maximumCapacity) :
    ∃ other, started { config with capacity, storageMode := .digestStream } coverage = .ok other := by
  obtain ⟨hholds, hconfig, hcoverage, _⟩ := started_holds h
  have hprofile := hholds.holds.profile
  have hknown := hholds.holds.known
  rw [hconfig] at hprofile
  rw [hcoverage] at hknown
  unfold started SystemReplayLog.create
  rw [if_neg (by rcases hprofile with h | h <;> simp [h]), if_neg (by dsimp only; omega),
    if_neg (by simp)]
  change ∃ other, SystemReplayLog.enableCoverage _ coverage = .ok other
  unfold SystemReplayLog.enableCoverage
  rw [if_neg (not_not.mpr hknown), if_neg (by simp [SystemReplayLog.isSealed]), if_neg (by simp)]
  exact ⟨_, rfl⟩

theorem sealWith_ok_iff {hash : BitVec 64} :
    sealWith hash log = .ok () t ↔ log.isSealed = false ∧ log.droppedEvents = 0 ∧
      t = { log with finalGuestStateHash := some hash } := by
  simp only [sealWith, bind, EStateM.bind, get, getThe, MonadStateOf.get, EStateM.get]
  cases log.isSealed with
  | true =>
    simp [throw, throwThe, MonadExceptOf.throw, EStateM.throw]
  | false =>
    by_cases hdropped : log.droppedEvents = 0
    · simp [hdropped, set, MonadStateOf.set, EStateM.set, eq_comm]
    · simp [hdropped, throw, throwThe, MonadExceptOf.throw, EStateM.throw]

/-- A sealed recording holds the events that its calls were taken with. -/
theorem recording_ok_iff {config : SystemReplayConfig} {coverage : BitVec 32} {calls : List Call}
    {hash : BitVec 64} {log : SystemReplayLog} : recording config coverage calls hash = .ok log ↔
      ∃ fresh, started config coverage = .ok fresh ∧ (feed fresh calls).droppedEvents = 0 ∧
        log = { feed fresh calls with finalGuestStateHash := some hash } := by
  unfold recording
  cases hstarted : started config coverage with
  | error e =>
    constructor
    · intro h
      cases h
    · rintro ⟨fresh, hfresh, -⟩
      cases hfresh
  | ok fresh =>
    have hextends := started_holds hstarted
    have hopen := (feed_extends hextends.1.holds hextends.1.isOpen calls).isOpen
    change returned (sealWith hash (feed fresh calls)) = .ok log ↔ _
    cases hseal : sealWith hash (feed fresh calls) with
    | ok u t =>
      obtain ⟨_, hdropped, ht⟩ := sealWith_ok_iff.mp hseal
      constructor
      · intro h
        cases h
        exact ⟨fresh, rfl, hdropped, ht⟩
      · rintro ⟨other, hother, -, hlog⟩
        cases hother
        rw [hlog, ht]
        rfl
    | error e t =>
      constructor
      · intro h
        cases h
      · rintro ⟨other, hother, hdropped, -⟩
        cases hother
        have hsealed := (@sealWith_ok_iff _ _ hash).mpr ⟨hopen, hdropped, rfl⟩
        rw [hseal] at hsealed
        cases hsealed

end KatanaRecomp.Runtime.SystemReplay
