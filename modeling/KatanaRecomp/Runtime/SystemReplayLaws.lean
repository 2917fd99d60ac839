import KatanaRecomp.Runtime.SystemReplayHistory

/-! # A replay accepts its recording

The exact replay compares events, so it completes the recorded run and no other.
The digest replay records the second run into a log of its own. That log goes in
step with the recording, so every comparison at the end succeeds. -/
namespace KatanaRecomp.Runtime.SystemReplay
open Lib ByteFormat SystemReplayLog

/-! ## The exact replay -/

namespace DeterministicSystemReplay
variable {replay : DeterministicSystemReplay} {events : List SystemReplayEvent}
  (hopen : replay.finished = false)
include hopen

/-- An event is taken when it is the next expected one, its sequence field aside. -/
theorem observe_ok_iff (hexpected : replay.expected = sequenced events)
    (hvalid : ∀ event ∈ events, validateEvent event = .ok ())
    (hplain : ∀ event ∈ events, event.unsequenced = event) (event : SystemReplayEvent)
    (t : DeterministicSystemReplay) : observe event replay = .ok () t ↔
      events[replay.position]? = some event.unsequenced ∧
        t = { replay with position := replay.position + 1 } := by
  have hnext : some { event with sequence := BitVec.ofNat 64 replay.position } =
      replay.expected[replay.position]? ↔ events[replay.position]? = some event.unsequenced := by
    rw [hexpected, sequenced_getElem?]
    cases hat : events[replay.position]? with
    | none => simp
    | some next =>
      have hmem : next ∈ events := List.mem_of_getElem? hat
      have hzero := hplain next hmem
      simp only [Option.map_some, Option.some.injEq]
      constructor
      · intro h
        rw [← hzero]
        exact (congrArg SystemReplayEvent.unsequenced h).symm
      · intro h
        rw [h]
        rfl
  simp only [observe, bind, EStateM.bind, get, getThe, MonadStateOf.get, EStateM.get, hopen,
    Bool.false_eq_true, if_false]
  by_cases hat : events[replay.position]? = some event.unsequenced
  · have hmem : event.unsequenced ∈ events := List.mem_of_getElem? hat
    have hok : validateEvent event = .ok () := hvalid event.unsequenced hmem
    have hlt : replay.position < replay.expected.length := by
      rw [hexpected, length_sequenced]
      exact (List.getElem?_eq_some_iff.mp hat).1
    simp [hok, ofChecked, hnext.mpr hat, Nat.not_le.mpr hlt, hat, set, MonadStateOf.set,
      EStateM.set, pure, EStateM.pure, eq_comm]
  · constructor
    · intro h
      exfalso
      cases hcheck : validateEvent event with
      | error e =>
        rw [hcheck] at h
        cases h
      | ok _ =>
        rw [hcheck] at h
        simp only [ofChecked, pure, EStateM.pure] at h
        split at h
        · cases h
        · rw [if_pos (fun heq => hat (hnext.mp heq))] at h
          cases h
    · intro h
      exact absurd h.1 hat

theorem finish_ok_iff (hash : BitVec 64) : (∃ t, finish hash replay = .ok () t) ↔
      replay.position = replay.expected.length ∧ hash = replay.expectedGuestStateHash := by
  simp only [finish, bind, EStateM.bind, get, getThe, MonadStateOf.get, EStateM.get, hopen,
    Bool.false_eq_true, if_false]
  by_cases hposition : replay.position = replay.expected.length
  · by_cases hhash : hash = replay.expectedGuestStateHash
    · simp [hposition, hhash, set, MonadStateOf.set, EStateM.set]
    · simp [hposition, hhash, throw, throwThe, MonadExceptOf.throw, EStateM.throw]
  · simp [hposition, throw, throwThe, MonadExceptOf.throw, EStateM.throw]

/-- From any position, exactly the rest of the recorded run is completed. -/
theorem verify_ok_iff (hexpected : replay.expected = sequenced events)
    (hvalid : ∀ event ∈ events, validateEvent event = .ok ())
    (hplain : ∀ event ∈ events, event.unsequenced = event)
    (hposition : replay.position ≤ events.length) (observed : List SystemReplayEvent)
    (hash : BitVec 64) : (∃ t, verify observed hash replay = .ok () t) ↔
      observed.map SystemReplayEvent.unsequenced = events.drop replay.position ∧
        hash = replay.expectedGuestStateHash := by
  induction observed generalizing replay with
  | nil =>
    change (∃ t, finish hash replay = .ok () t) ↔ _
    rw [finish_ok_iff hopen, hexpected, length_sequenced, List.map_nil]
    have hend : replay.position = events.length ↔ [] = events.drop replay.position := by
      rw [eq_comm, List.nil_eq, List.drop_eq_nil_iff]
      omega
    rw [hend]
  | cons event rest ih =>
    have hsplit : verify (event :: rest) hash replay =
        (observe event >>= fun _ => verify rest hash) replay := by
      change EStateM.bind (EStateM.bind _ _) _ _ = EStateM.bind _ _ _
      simp only [EStateM.bind]
      cases observe event replay <;> rfl
    rw [hsplit, List.map_cons]
    by_cases hat : events[replay.position]? = some event.unsequenced
    · have hobserve := (observe_ok_iff hopen hexpected hvalid hplain event _).mpr ⟨hat, rfl⟩
      have hlt := (List.getElem?_eq_some_iff.mp hat).1
      have hdrop : events.drop replay.position =
          event.unsequenced :: events.drop (replay.position + 1) := by
        rw [List.drop_eq_getElem_cons hlt, (List.getElem?_eq_some_iff.mp hat).2]
      have hnext := @ih { replay with position := replay.position + 1 } hopen hexpected hlt
      simp only [bind, EStateM.bind]
      rw [hobserve, hdrop, List.cons.injEq, eq_self, true_and]
      exact hnext
    · constructor
      · rintro ⟨t, ht⟩
        exfalso
        simp only [bind, EStateM.bind] at ht
        cases hobserve : observe event replay with
        | error e u =>
          rw [hobserve] at ht
          cases ht
        | ok _ u => exact hat ((observe_ok_iff hopen hexpected hvalid hplain event u).mp hobserve).1
      · rintro ⟨hmap, -⟩
        exfalso
        apply hat
        have hhead := congrArg List.head? hmap
        rw [List.head?_drop, List.head?_cons] at hhead
        exact hhead.symm

omit hopen

end DeterministicSystemReplay

/-! ## The digest replay -/

namespace DeterministicSystemReplayDigest

/-- The second run has come as far as the first `k` recorded events. -/
structure Follows (replay : DeterministicSystemReplayDigest) (events : List SystemReplayEvent)
    (hash : BitVec 64) (k : Nat) : Prop where
  isOpen : replay.finished = false
  holds : Holds replay.observed (events.take k)
  unsealed : replay.observed.isSealed = false
  complete : replay.observed.droppedEvents = 0
  mode : replay.observed.config.storageMode = .digestStream
  witnesses : replay.expectedWitnesses = (sequenced events).take replay.observed.config.capacity
  count : replay.expectedEventCount = events.length
  digest : replay.expectedOrderingDigest =
    orderingDigestOf replay.observed.config.profile replay.observed.enabledCoverage events
  coverage : replay.expectedObservedCoverage = coverageOf events
  counts : replay.expectedEventCounts = countsOf events
  hash : replay.expectedGuestStateHash = hash
  admitted : ∀ k event, events[k]? = some event →
    Admissible replay.observed.config.profile replay.observed.enabledCoverage (events.take k) event

variable {replay : DeterministicSystemReplayDigest} {observed : SystemReplayLog}

theorem onObserved_ok {α : Type} {call : ReplayM α}
    {value : α} (h : call replay.observed = .ok value observed) :
    onObserved call replay = .ok value { replay with observed } := by
  unfold onObserved
  rw [h]

theorem onObserved_ensures {α : Type} {call : ReplayM α}
    {value : α} {post : α → DeterministicSystemReplayDigest → Prop}
    {fail : ReplayError → DeterministicSystemReplayDigest → Prop}
    (h : call replay.observed = .ok value observed) (hpost : post value { replay with observed }) :
    Ensures (onObserved call) replay post fail := by
  unfold Ensures
  rw [onObserved_ok h]
  exact hpost

variable {replay : DeterministicSystemReplayDigest} {events : List SystemReplayEvent}
  {hash : BitVec 64} {k : Nat}

theorem Follows.observe (h : Follows replay events hash k) {event : SystemReplayEvent}
    (hat : events[k]? = some event.unsequenced) :
    ∃ t, observe event replay = .ok () t ∧ Follows t events hash (k + 1) := by
  have hlt : k < events.length := (List.getElem?_eq_some_iff.mp hat).1
  have hlength : (events.take k).length = k := by
    rw [List.length_take]
    omega
  have hcount : replay.observed.eventCount = k := by rw [h.holds.count, hlength]
  have hroom : ¬ replay.observed.Full := by
    intro hfull
    have := h.mode
    rw [hfull.1] at this
    cases this
  have hadmissible := Admissible.unsequenced.mp (h.admitted k _ hat)
  have hchecks := (h.holds.checks_iff h.unsealed event).mpr hadmissible
  have hrecord := record_of_checks hchecks.1 hroom hchecks.2
  have hnext : events.take (k + 1) = events.take k ++ [event.unsequenced] := by
    rw [List.take_add_one, hat]
    rfl
  have hholds : Holds (replay.observed.accept event) (events.take (k + 1)) := by
    rw [hnext]
    exact h.holds.accept hroom hadmissible
  -- a retained event is the witness of its position
  have hwitness : k < replay.expectedWitnesses.length →
      (replay.observed.accept event).events.getLast? = replay.expectedWitnesses[k]? := by
    intro hk
    rw [h.witnesses, List.length_take, length_sequenced] at hk
    have hcapacity : k < replay.observed.config.capacity := by omega
    have hfits : (events.take (k + 1)).length ≤ (replay.observed.accept event).config.capacity := by
      rw [hnext, List.length_append, hlength]
      exact hcapacity
    rw [hholds.events_of_fits hfits, hnext, sequenced_concat, List.getLast?_concat, h.witnesses,
      List.getElem?_take_of_lt hcapacity, sequenced_getElem?, hat, hlength]
    rfl
  refine ⟨{ replay with observed := replay.observed.accept event }, ?_, ?_⟩
  · simp only [DeterministicSystemReplayDigest.observe, bind, EStateM.bind, get, getThe,
      MonadStateOf.get, EStateM.get, h.isOpen, Bool.false_eq_true, if_false]
    rw [if_neg (by rw [hcount, h.count]; omega)]
    simp only [EStateM.bind]
    rw [onObserved_ok hrecord]
    simp only [EStateM.get]
    rw [if_neg]
    · rw [h.isOpen]
      rfl
    · rintro ⟨hk, hne⟩
      rw [hcount] at hk hne
      exact hne (hwitness hk)
  · exact ⟨h.isOpen, hholds, h.unsealed, h.complete, h.mode, h.witnesses, h.count, h.digest,
      h.coverage, h.counts, h.hash, h.admitted⟩

theorem Follows.finish (h : Follows replay events hash events.length) :
    ∃ t, finish hash replay = .ok () t := by
  have hholds := h.holds
  rw [List.take_length] at hholds
  have hseal := (@sealWith_ok_iff replay.observed _ hash).mpr ⟨h.unsealed, h.complete, rfl⟩
  generalize hlog : ({ replay.observed with finalGuestStateHash := some hash } :
    SystemReplayLog) = sealedLog at hseal
  have hdigest : sealedLog.orderingDigest = replay.expectedOrderingDigest := by
    rw [h.digest, ← hlog]
    exact (hholds.frame (some hash) replay.observed.droppedEvents).orderingDigest
  have hcoverage : sealedLog.observedCoverage = replay.expectedObservedCoverage := by
    rw [h.coverage, ← hlog]
    exact hholds.observed
  have hcounts : sealedLog.eventCounts = replay.expectedEventCounts := by
    rw [h.counts, ← hlog]
    exact hholds.counts
  have hagrees : ({ replay with observed := sealedLog } :
      DeterministicSystemReplayDigest).agrees = true := by
    unfold agrees
    rw [hdigest, hcoverage, hcounts]
    simp
  have hfinish : Ensures (DeterministicSystemReplayDigest.finish hash) replay (fun _ _ => True)
      (fun _ _ => False) := by
    unfold DeterministicSystemReplayDigest.finish
    refine .bind (.get ?_)
    refine .ite (fun hfinished => ?_) fun _ => .ite (fun hmissing => ?_) fun _ => ?_
    · rw [h.isOpen] at hfinished
      cases hfinished
    · rw [hholds.count, h.count] at hmissing
      exact absurd rfl hmissing
    refine .bind (onObserved_ensures hseal ?_)
    refine .bind (.get ?_)
    refine .ite (fun hdiffers => ?_) fun _ => .ite (fun hhash => ?_) fun _ => trivial
    · rw [hagrees] at hdiffers
      cases hdiffers
    · exact absurd h.hash.symm hhash
  unfold Ensures at hfinish
  cases hresult : DeterministicSystemReplayDigest.finish hash replay with
  | ok _ t => exact ⟨t, rfl⟩
  | error e t =>
    rw [hresult] at hfinish
    exact hfinish.elim

/-- The rest of the recorded run is completed. -/
theorem Follows.verify (observed : List SystemReplayEvent) (h : Follows replay events hash k)
    (hobserved : observed.map SystemReplayEvent.unsequenced = events.drop k)
    (hk : k ≤ events.length) : ∃ t, verify observed hash replay = .ok () t := by
  induction observed generalizing replay k with
  | nil =>
    have hend : k = events.length := by
      have := List.drop_eq_nil_iff.mp hobserved.symm
      omega
    subst hend
    exact h.finish
  | cons event rest ih =>
    have hat : events[k]? = some event.unsequenced := by
      have hhead := congrArg List.head? hobserved
      rw [List.head?_drop] at hhead
      exact hhead.symm
    have htail : rest.map SystemReplayEvent.unsequenced = events.drop (k + 1) := by
      have := congrArg List.tail hobserved
      rwa [List.tail_drop] at this
    obtain ⟨next, hobserve, hnext⟩ := h.observe hat
    obtain ⟨t, ht⟩ := ih hnext htail (List.getElem?_eq_some_iff.mp hat).1
    refine ⟨t, ?_⟩
    change EStateM.bind (EStateM.bind _ _) _ _ = _
    simp only [EStateM.bind]
    rw [hobserve]
    exact ht

end DeterministicSystemReplayDigest

/-! ## Recording and replay -/

variable {log : SystemReplayLog} {events : List SystemReplayEvent} {hash : BitVec 64}

section
variable (h : Holds log events)
include h

/-- A sealed recording with its hooks and classes is taken as an expectation. -/
theorem DeterministicSystemReplay.create_ok
    (hmode : log.config.storageMode = .exactEvents) (hdropped : log.droppedEvents = 0)
    (hsealed : log.finalGuestStateHash = some hash) (hhooks : log.hooksComplete = true)
    (hclasses : log.observedComplete = true) : DeterministicSystemReplay.create log =
      .ok { expected := sequenced events, expectedGuestStateHash := hash } := by
  have hevents := h.events_of_fits (h.fits hmode)
  have havailable : log.exactEventStreamAvailable = true := by
    unfold exactEventStreamAvailable summarizedEventCount
    rw [hdropped, h.count, hevents, length_sequenced, Nat.sub_self]
    rfl
  have hisSealed : log.isSealed = true := by
    unfold isSealed
    rw [hsealed]
    rfl
  unfold DeterministicSystemReplay.create finalStateHash
  rw [if_neg (not_not.mpr hdropped), hisSealed, hhooks, hclasses, hmode, havailable, hsealed,
    hevents]
  simp only [Bool.not_true, Bool.false_eq_true, ne_eq, not_true_eq_false, or_self, if_false]
  rfl

theorem DeterministicSystemReplayDigest.create_follows
    (hmode : log.config.storageMode = .digestStream) (hdropped : log.droppedEvents = 0)
    (hsealed : log.finalGuestStateHash = some hash) (hhooks : log.hooksComplete = true)
    (hclasses : log.observedComplete = true) :
    ∃ replay, DeterministicSystemReplayDigest.create log = .ok replay ∧
      replay.Follows events hash 0 := by
  have hisSealed : log.isSealed = true := by
    unfold isSealed
    rw [hsealed]
    rfl
  obtain ⟨observed, hobserved⟩ : ∃ observed, started
      { capacity := log.config.capacity
        profile := log.config.profile
        storageMode := .digestStream } log.enabledCoverage = .ok observed := by
    unfold started SystemReplayLog.create
    have hprofile := h.profile
    have hcapacity := h.capacity
    rw [if_neg (by rcases hprofile with h | h <;> simp [h]), if_neg (by dsimp only; omega),
      if_neg (by simp)]
    change ∃ other, SystemReplayLog.enableCoverage _ log.enabledCoverage = .ok other
    unfold SystemReplayLog.enableCoverage
    rw [if_neg (not_not.mpr h.known), if_neg (by simp [SystemReplayLog.isSealed]), if_neg (by simp)]
    exact ⟨_, rfl⟩
  obtain ⟨hextends, hconfig, henabled, hnone⟩ := started_holds hobserved
  obtain ⟨fresh, hfresh, henable⟩ := bind_eq_ok hobserved
  refine ⟨
    { observed
      expectedWitnesses := log.events
      expectedEventCount := log.eventCount
      expectedOrderingDigest := log.orderingDigest
      expectedGuestStateHash := hash
      expectedObservedCoverage := log.observedCoverage
      expectedEventCounts := log.eventCounts }, ?_, ?_⟩
  · unfold DeterministicSystemReplayDigest.create finalStateHash
    rw [hfresh]
    change (if _ then _ else _) = _
    rw [if_neg (not_not.mpr hmode), if_neg (not_not.mpr hdropped), hisSealed, hhooks, hclasses,
      hsealed, henable]
    simp only [Bool.not_true, Bool.false_eq_true, if_false]
    rfl
  · refine ⟨rfl, hextends.holds, hextends.isOpen, hnone, ?_, ?_, h.count, ?_, h.observed, h.counts,
      rfl, ?_⟩
    · rw [hconfig]
    · rw [hconfig]
      exact h.retained
    · rw [hconfig, henabled]
      exact h.orderingDigest
    · rw [hconfig, henabled]
      exact h.admitted

/-- What the exact replay of a sealed recording completes. -/
theorem exactReplay_ok_iff
    (observed : List SystemReplayEvent)
    (finalHash : BitVec 64) : (∃ t, DeterministicSystemReplay.verify observed finalHash
      { expected := sequenced events, expectedGuestStateHash := hash } = .ok () t) ↔
      observed.map SystemReplayEvent.unsequenced = events ∧ finalHash = hash := by
  have hvalid : ∀ event ∈ events, validateEvent event = .ok () := by
    intro event hmem
    obtain ⟨k, hk⟩ := List.mem_iff_getElem?.mp hmem
    exact (h.admitted k event hk).valid
  exact DeterministicSystemReplay.verify_ok_iff rfl rfl hvalid h.plain (Nat.zero_le _) observed
    finalHash

end

/-- Two logs of one profile with the same hooks that took the same events agree in everything
that is derived from the events. -/
theorem SystemReplayLog.Holds.agree {first second : SystemReplayLog}
    (hfirst : Holds first events) (hsecond : Holds second events)
    (hprofile : second.config.profile = first.config.profile)
    (henabled : second.enabledCoverage = first.enabledCoverage) :
    second.orderingDigest = first.orderingDigest ∧ second.eventCount = first.eventCount ∧
      second.eventCounts = first.eventCounts ∧
      second.observedCoverage = first.observedCoverage := by
  refine ⟨?_, ?_, ?_, ?_⟩
  · rw [hfirst.orderingDigest, hsecond.orderingDigest, hprofile, henabled]
  · rw [hfirst.count, hsecond.count]
  · rw [hfirst.counts, hsecond.counts]
  · rw [hfirst.observed, hsecond.observed]

/-- The recorded run and no other is completed by the exact replay, and it is completed by the
replay of a digest log that was fed the same calls. Digest, counters and coverage of a log depend
on profile, hooks and accepted events only, and a `record` that throws leaves everything but the
count of dropped events. -/
theorem replay_accepts_recording {config : SystemReplayConfig} {coverage : BitVec 32}
    {calls : List Call} {hash : BitVec 64} {log fresh : SystemReplayLog}
    (hfresh : started config coverage = .ok fresh)
    (hlog : recording config coverage calls hash = .ok log)
    (hmode : config.storageMode = .exactEvents) (hhooks : log.hooksComplete = true)
    (hclasses : log.observedComplete = true) :
    log.events.map SystemReplayEvent.unsequenced = accepted fresh calls ∧
    (∃ replay, DeterministicSystemReplay.create log = .ok replay ∧ ∀ observed finalHash,
      (∃ t, DeterministicSystemReplay.verify observed finalHash replay = .ok () t) ↔
        observed.map SystemReplayEvent.unsequenced =
          log.events.map SystemReplayEvent.unsequenced ∧ finalHash = hash) ∧
    (∀ capacity, 0 < capacity → capacity ≤ maximumCapacity → ∃ digestLog replay,
        recording { config with capacity, storageMode := .digestStream } coverage calls hash =
          .ok digestLog ∧ DeterministicSystemReplayDigest.create digestLog = .ok replay ∧
        ∀ observed, observed.map SystemReplayEvent.unsequenced =
            log.events.map SystemReplayEvent.unsequenced →
          ∃ t, DeterministicSystemReplayDigest.verify observed hash replay = .ok () t) ∧
    (∀ (config₁ config₂ : SystemReplayConfig) hooks calls₁ calls₂ fresh₁ fresh₂,
      config₂.profile = config₁.profile → started config₁ hooks = .ok fresh₁ →
      started config₂ hooks = .ok fresh₂ → accepted fresh₂ calls₂ = accepted fresh₁ calls₁ →
      (feed fresh₂ calls₂).orderingDigest = (feed fresh₁ calls₁).orderingDigest ∧
        (feed fresh₂ calls₂).eventCount = (feed fresh₁ calls₁).eventCount ∧
        (feed fresh₂ calls₂).eventCounts = (feed fresh₁ calls₁).eventCounts ∧
        (feed fresh₂ calls₂).observedCoverage = (feed fresh₁ calls₁).observedCoverage) ∧
    (∀ before event e after, SystemReplayLog.record event before = .error e after →
      after = { before with droppedEvents := after.droppedEvents }) := by
  obtain ⟨hstart, hconfig, henabled, -⟩ := started_holds hfresh
  have hfed := feed_extends hstart.holds hstart.isOpen calls
  obtain ⟨other, hother, hdropped, hsealed⟩ := recording_ok_iff.mp hlog
  cases hfresh.symm.trans hother
  have hholds : Holds log (accepted fresh calls) := by
    rw [hsealed]
    exact hfed.holds.frame (some hash) (feed fresh calls).droppedEvents
  have hlogConfig : log.config = config := by
    rw [hsealed, ← hconfig]
    exact hfed.config
  have hlogDropped : log.droppedEvents = 0 := by
    rw [hsealed]
    exact hdropped
  have hlogHash : log.finalGuestStateHash = some hash := by rw [hsealed]
  have hlogMode : log.config.storageMode = .exactEvents := by rw [hlogConfig, hmode]
  have hevents : log.events.map SystemReplayEvent.unsequenced = accepted fresh calls := by
    rw [hholds.events_of_fits (hholds.fits hlogMode), sequenced_map_unsequenced]
    exact (List.map_congr_left hholds.plain).trans (List.map_id _)
  refine ⟨hevents, ?_, ?_, ?_, fun before event e after h => record_error_frame h⟩
  · refine ⟨_, DeterministicSystemReplay.create_ok hholds hlogMode hlogDropped hlogHash hhooks
      hclasses, ?_⟩
    intro observed finalHash
    rw [hevents]
    exact exactReplay_ok_iff hholds observed finalHash
  · intro capacity hpos hle
    obtain ⟨digestFresh, hdigestFresh⟩ := started_ok hfresh hpos hle
    obtain ⟨hdigestStart, hdigestConfig, hdigestEnabled, hnone⟩ := started_holds hdigestFresh
    have hdigestFed := feed_extends hdigestStart.holds hdigestStart.isOpen calls
    have hprofile : digestFresh.config.profile = fresh.config.profile := by
      rw [hdigestConfig, hconfig]
    have hhook : digestFresh.enabledCoverage = fresh.enabledCoverage := by
      rw [hdigestEnabled, henabled]
    obtain ⟨haccepted, hdigestDropped⟩ := feed_inStep hstart.holds hdigestStart.holds hstart.isOpen
      hdigestStart.isOpen hprofile hhook (by rw [hdigestConfig]) hnone calls hdropped
    obtain ⟨digestLog, hdigestLog⟩ : ∃ digestLog : SystemReplayLog,
        digestLog = { feed digestFresh calls with finalGuestStateHash := some hash } := ⟨_, rfl⟩
    have hdigestHolds : Holds digestLog (accepted fresh calls) := by
      rw [hdigestLog, ← haccepted]
      exact hdigestFed.holds.frame (some hash) (feed digestFresh calls).droppedEvents
    have hdigestLogConfig : digestLog.config =
        { config with capacity, storageMode := .digestStream } := by
      rw [hdigestLog, ← hdigestConfig]
      exact hdigestFed.config
    have hdigestHooks : digestLog.hooksComplete = log.hooksComplete := by
      unfold hooksComplete
      rw [hdigestHolds.required, hholds.required, hdigestLogConfig, hlogConfig, hdigestLog, hsealed]
      change (_ &&& ~~~(feed digestFresh calls).enabledCoverage == 0) =
        (_ &&& ~~~(feed fresh calls).enabledCoverage == 0)
      rw [hdigestFed.enabled, hfed.enabled, hhook]
    have hdigestClasses : digestLog.observedComplete = log.observedComplete := by
      unfold observedComplete
      rw [hdigestHolds.observed, hholds.observed, hdigestLogConfig, hlogConfig]
    obtain ⟨replay, hreplay, hfollows⟩ := DeterministicSystemReplayDigest.create_follows
      hdigestHolds (by rw [hdigestLogConfig]) (by rw [hdigestLog]; exact hdigestDropped)
      (by rw [hdigestLog]) (by rw [hdigestHooks, hhooks]) (by rw [hdigestClasses, hclasses])
    refine ⟨digestLog, replay, ?_, hreplay, ?_⟩
    · exact recording_ok_iff.mpr ⟨digestFresh, hdigestFresh, hdigestDropped, hdigestLog⟩
    · intro observed hobserved
      rw [hevents] at hobserved
      exact hfollows.verify observed hobserved (Nat.zero_le _)
  · intro config₁ config₂ hooks calls₁ calls₂ fresh₁ fresh₂ hprofile hfresh₁ hfresh₂ haccepted
    obtain ⟨hstart₁, hconfig₁, henabled₁, -⟩ := started_holds hfresh₁
    obtain ⟨hstart₂, hconfig₂, henabled₂, -⟩ := started_holds hfresh₂
    have hfed₁ := feed_extends hstart₁.holds hstart₁.isOpen calls₁
    have hfed₂ := feed_extends hstart₂.holds hstart₂.isOpen calls₂
    have hholds₂ := hfed₂.holds
    rw [haccepted] at hholds₂
    refine hfed₁.holds.agree hholds₂ ?_ ?_
    · rw [hfed₁.config, hfed₂.config, hconfig₁, hconfig₂, hprofile]
    · rw [hfed₁.enabled, hfed₂.enabled, henabled₁, henabled₂]

/-- An event that is taken and one without a code, which `record` refuses. -/
def twoCalls : List Call := [.record { code := [0x61] }, .record {}]

/-- A log with room for one event. -/
def smallLog : SystemReplayLog := { config := { capacity := 1 } }

theorem replay_accepts_twoCalls : ∃ log,
    started { capacity := 1 } 0 = .ok smallLog ∧ recording { capacity := 1 } 0 twoCalls 7 = .ok log ∧
      accepted smallLog twoCalls = [{ code := [0x61] }] ∧
      log.events.map SystemReplayEvent.unsequenced = accepted smallLog twoCalls ∧
      ∃ replay, DeterministicSystemReplay.create log = .ok replay := by
  have hstarted : started { capacity := 1 } 0 = .ok smallLog := rfl
  have hdropped : (feed smallLog twoCalls).droppedEvents = 0 := by decide
  have haccepted : accepted smallLog twoCalls = [{ code := [0x61] }] := by decide
  have hrecording := (@recording_ok_iff { capacity := 1 } 0 twoCalls 7 _).mpr
    ⟨smallLog, hstarted, hdropped, rfl⟩
  have haccepts := replay_accepts_recording hstarted hrecording rfl (by decide) (by decide)
  obtain ⟨replay, hreplay, -⟩ := haccepts.2.1
  exact ⟨_, hstarted, hrecording, haccepted, haccepts.1, replay, hreplay⟩

end KatanaRecomp.Runtime.SystemReplay
