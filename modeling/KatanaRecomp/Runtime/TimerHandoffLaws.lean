import KatanaRecomp.Runtime.TimerCodec
import KatanaRecomp.Runtime.TimerRuns

/-! # The handoff of reachable timers

A settled machine has snapshots its encoders accept, and the decoders give them
back without what the payload leaves behind: the event fields of the channels
and of the clock, and the observer ids of the clock domain. -/
namespace KatanaRecomp.Runtime.Timer
open Lib ByteFormat Scheduler

/-! ## What the payload leaves behind -/

def Sh4TmuChannelSnapshot.withoutEvent (channel : Sh4TmuChannelSnapshot) : Sh4TmuChannelSnapshot :=
  { channel with event := none, eventDeadline := none, eventRehydrationPending := false }

def Sh4TmuSnapshot.withoutEvents (state : Sh4TmuSnapshot) : Sh4TmuSnapshot :=
  { state with channels := fun i => (state.channels i).withoutEvent }

/-- Observer ids and their allocation are local to a process. -/
def Sh4RtcClockDomain.withoutObservers (clock : Sh4RtcClockDomain) : Sh4RtcClockDomain :=
  { clock with nextObserverId := 0, observerIds := [] }

def Sh4RtcSnapshot.withoutEvent (state : Sh4RtcSnapshot) : Sh4RtcSnapshot :=
  { state with event := none, eventDeadline := none, eventRehydrationPending := false }

def Sh4RtcSnapshot.withoutObservers (state : Sh4RtcSnapshot) : Sh4RtcSnapshot :=
  { state with clock := state.clock.withoutObservers }

/-! ## Round trips -/

variable {bytes : List Byte} {state : Sh4TmuSnapshot}

theorem decodeSh4TmuState_ok_iff :
    decodeSh4TmuState bytes = .ok state ↔ bytes = writeTmuState state ∧ state.Decodable :=
  readTmuState_parses.readAll_ok_iff _

theorem decodeSh4RtcClockState_ok_iff {state : Sh4RtcClockDomain} :
    decodeSh4RtcClockState bytes = .ok state ↔ bytes = writeClockState state ∧ state.Decodable :=
  readClockState_parses.readAll_ok_iff _

theorem decodeSh4RtcState_ok_iff {state : Sh4RtcSnapshot} :
    decodeSh4RtcState bytes = .ok state ↔ bytes = writeRtcState state ∧ state.Decodable :=
  readRtcState_parses.readAll_ok_iff _

/-- The encoder accepts the snapshot; the decoder asks for one thing more of stopped channels. -/
theorem tmu_roundTrip (hperiod : state.guestCyclesPerPeripheralCycle ≠ 0)
    (hchannels : ∀ i, ¬ (state.channels i).Inconsistent state.schedulerCycle)
    (hstopped : ∀ i, (state.channels i).running = false →
      (state.channels i).effectiveCounter = (state.channels i).storedCounter) :
    ∃ bytes, encodeSh4TmuState state = .ok bytes ∧
      decodeSh4TmuState bytes = .ok state.withoutEvents := by
  refine ⟨writeTmuState state, ?_, decodeSh4TmuState_ok_iff.mpr ⟨rfl, hperiod, ?_⟩⟩
  · unfold encodeSh4TmuState
    rw [if_neg hperiod, if_neg (not_exists.mpr hchannels)]
  · intro i
    refine ⟨?_, rfl, rfl, rfl⟩
    rintro (hregisters | ⟨hrunning, hcounter⟩)
    · exact hchannels i (.inl hregisters)
    · exact hcounter (hstopped i (Bool.not_eq_true _ ▸ hrunning))

variable {clock : Sh4RtcClockDomain}

theorem clock_roundTrip (h : ¬ BadFrequency clock.guestCyclesPerSecond) :
    ∃ bytes, encodeSh4RtcClockState clock = .ok bytes ∧
      decodeSh4RtcClockState bytes = .ok clock.withoutObservers := by
  refine ⟨writeClockState clock, ?_, decodeSh4RtcClockState_ok_iff.mpr ⟨rfl, h, rfl, rfl⟩⟩
  unfold encodeSh4RtcClockState
  rw [if_neg h]

theorem rtc_roundTrip {state : Sh4RtcSnapshot} (hdate : state.dateTime.Valid)
    (hfrequency : ¬ BadFrequency state.clock.guestCyclesPerSecond) (hstate : ¬ state.Inconsistent) :
    ∃ bytes, encodeSh4RtcState state = .ok bytes ∧
      decodeSh4RtcState bytes = .ok state.withoutEvent.withoutObservers := by
  refine ⟨writeRtcState state, ?_, decodeSh4RtcState_ok_iff.mpr
    ⟨rfl, hdate, hfrequency, ?_, ?_, rfl, rfl, rfl, rfl, rfl⟩⟩
  · unfold encodeSh4RtcState
    rw [if_neg (not_not.mpr hdate), if_neg hfrequency, if_neg hstate]
  · intro hepoch
    exact hstate (.inl hepoch)
  · rintro (hdivider | hcounter)
    · exact hstate (.inr (.inr (.inl hdivider)))
    · exact hstate (.inr (.inr (.inr (.inl hcounter))))

/-! ## Nothing else is accepted -/

/-- An event that the encoder does not mind. -/
def someEvent (active : Bool) : Option Nat := if active then some 0 else none

theorem someEvent_good (active : Bool) :
    ¬ BadEvent active (someEvent active) (someEvent active) false := by
  cases active <;> decide

theorem tmu_encoded
    (h : decodeSh4TmuState bytes = .ok state) : ∃ state', encodeSh4TmuState state' = .ok bytes := by
  obtain ⟨rfl, hperiod, hchannels⟩ := decodeSh4TmuState_ok_iff.mp h
  refine ⟨{ state with channels := fun i =>
    { state.channels i with
      event := someEvent (state.channels i).running
      eventDeadline := someEvent (state.channels i).running
      eventRehydrationPending := false } }, ?_⟩
  unfold encodeSh4TmuState
  rw [if_neg hperiod, if_neg]
  · rfl
  · rintro ⟨i, hregisters | hevent⟩
    · exact (hchannels i).1 (.inl hregisters)
    · exact someEvent_good _ hevent

theorem clock_encoded
    (h : decodeSh4RtcClockState bytes = .ok clock) : encodeSh4RtcClockState clock = .ok bytes := by
  obtain ⟨rfl, hfrequency, -⟩ := decodeSh4RtcClockState_ok_iff.mp h
  unfold encodeSh4RtcClockState
  rw [if_neg hfrequency]

theorem rate_code_le (rate : RtcPeriodicRate) :
    ¬ rate.code > RtcPeriodicRate.every2Seconds.code := by
  cases rate <;> decide

theorem rtc_encoded {state : Sh4RtcSnapshot}
    (h : decodeSh4RtcState bytes = .ok state) : ∃ state', encodeSh4RtcState state' = .ok bytes := by
  obtain ⟨rfl, hdate, hfrequency, hepoch, hdivider, -⟩ := decodeSh4RtcState_ok_iff.mp h
  refine ⟨{ state with
    event := someEvent state.rtcEnabled
    eventDeadline := someEvent state.rtcEnabled
    eventRehydrationPending := false }, ?_⟩
  unfold encodeSh4RtcState
  rw [if_neg (not_not.mpr hdate), if_neg hfrequency, if_neg]
  · rfl
  · rintro (h | h | h | h | h)
    · exact hepoch h
    · exact rate_code_le _ h
    · exact hdivider (.inl h)
    · exact hdivider (.inr h)
    · exact someEvent_good _ h

/-! ## Snapshots of settled timers -/

theorem not_badEvent {active : Bool} {event deadline : Option Nat} {pending : Bool}
    (hevent : event.isSome = active) (hdeadline : deadline.isSome = active)
    (hpending : pending = false) : ¬ BadEvent active event deadline pending := by
  unfold BadEvent
  rw [hevent, hdeadline, hpending]
  cases active <;> simp

variable {s : Timers} {snapshot : Sh4TmuChannelSnapshot}

theorem channelSnapshot_ok {value : Channel} (h : s.channelSnapshot value = .ok snapshot) :
    ∃ counter, s.effectiveCounter value = .ok counter ∧ snapshot =
        { constant := value.constant, storedCounter := value.counter, effectiveCounter := counter
          control := value.control, anchorCycle := value.anchorCycle
          anchorCounter := value.anchorCounter, underflows := value.underflows
          event := value.event, eventDeadline := value.eventDeadline
          eventRehydrationPending := value.eventRehydrationPending, running := value.running } := by
  unfold Timers.channelSnapshot at h
  obtain ⟨counter, hcounter, h⟩ := bind_eq_ok h
  cases h
  exact ⟨counter, hcounter, rfl⟩

theorem channelSnapshot_error (hs : Settled s) {i : Fin 3} {e : TimerError}
    (h : s.channelSnapshot (s.channels i) = .error e) : e.isOverflow = true := by
  unfold Timers.channelSnapshot at h
  rcases bind_eq_error h with h | ⟨counter, -, h⟩
  · unfold Timers.effectiveCounter at h
    split at h
    · cases h
    · rename_i hrunning
      rw [Bool.or_eq_true, not_or] at hrunning
      have hrunning : (s.channels i).running = true := by simpa using hrunning.1
      rcases bind_eq_error h with h | ⟨ticks, -, h⟩
      · exact ticksSinceAnchor_error (hs.channels i) hrunning (hs.anchored i) h
      · cases h
  · cases h

/-- The encoder finds nothing to refuse in a channel of a settled machine. -/
theorem channelSnapshot_consistent (hs : Settled s) {i : Fin 3}
    (h : s.channelSnapshot (s.channels i) = .ok snapshot) : ¬ snapshot.Inconsistent s.now := by
  obtain ⟨counter, -, rfl⟩ := channelSnapshot_ok h
  have hregisters := hs.channels i
  have harmed := hs.armed i
  rintro ((hbits | hreserved | hexternal | hanchor) | hevent)
  · exact hbits hregisters.bits
  · exact hregisters.reserved hreserved
  · exact hregisters.external hexternal
  · have hlt := BitVec.lt_def.mp hanchor
    rw [hs.toNat_now] at hlt
    exact absurd (hs.anchored i).cycle (Nat.not_le.mpr hlt)
  · exact not_badEvent harmed.event harmed.deadline harmed.pending hevent

/-- A stopped channel shows the counter it holds. -/
theorem channelSnapshot_stopped {value : Channel}
    (h : s.channelSnapshot value = .ok snapshot) (hstopped : snapshot.running = false) :
    snapshot.effectiveCounter = snapshot.storedCounter := by
  obtain ⟨counter, hcounter, rfl⟩ := channelSnapshot_ok h
  have hstopped : value.running = false := hstopped
  unfold Timers.effectiveCounter at hcounter
  rw [hstopped] at hcounter
  cases hcounter
  rfl

theorem tmuSnapshot_ok (h : s.tmuSnapshot = .ok state) : state.schedulerCycle = s.now ∧
      state.guestCyclesPerPeripheralCycle = s.guestCyclesPerPeripheralCycle ∧
      ∀ i, s.channelSnapshot (s.channels i) = .ok (state.channels i) := by
  unfold Timers.tmuSnapshot at h
  obtain ⟨first, hfirst, h⟩ := bind_eq_ok h
  obtain ⟨second, hsecond, h⟩ := bind_eq_ok h
  obtain ⟨third, hthird, h⟩ := bind_eq_ok h
  cases h
  refine ⟨rfl, rfl, ?_⟩
  rw [Fin.forall_fin_succ, Fin.forall_fin_two]
  exact ⟨hfirst, hsecond, hthird⟩

section
variable (hs : Settled s)
include hs

theorem tmuSnapshot_error {e : TimerError}
    (h : s.tmuSnapshot = .error e) : e.isOverflow = true := by
  unfold Timers.tmuSnapshot at h
  rcases bind_eq_error h with h | ⟨first, -, h⟩
  · exact channelSnapshot_error hs h
  rcases bind_eq_error h with h | ⟨second, -, h⟩
  · exact channelSnapshot_error hs h
  rcases bind_eq_error h with h | ⟨third, -, h⟩
  · exact channelSnapshot_error hs h
  · cases h

theorem Settled.tmu_handoff
    (h : s.tmuSnapshot = .ok state) : ∃ bytes, encodeSh4TmuState state = .ok bytes ∧
      decodeSh4TmuState bytes = .ok state.withoutEvents := by
  obtain ⟨hcycle, hperiod, hchannels⟩ := tmuSnapshot_ok h
  refine tmu_roundTrip ?_ ?_ ?_
  · rw [hperiod]
    exact hs.period
  · intro i
    rw [hcycle]
    exact channelSnapshot_consistent hs (hchannels i)
  · intro i hstopped
    exact channelSnapshot_stopped (hchannels i) hstopped

theorem Settled.frequency_good : ¬ BadFrequency s.clock.guestCyclesPerSecond := by
  rintro (hzero | hlarge)
  · have hpositive := hs.frequency
    rw [hzero] at hpositive
    exact absurd hpositive (by decide)
  · exact absurd hs.bounded (Nat.not_le.mpr hlarge)

theorem Settled.rtc_handoff :
    ∃ bytes, encodeSh4RtcState s.rtcSnapshot = .ok bytes ∧
      decodeSh4RtcState bytes = .ok s.rtcSnapshot.withoutEvent.withoutObservers := by
  have hregisters := hs.toCore.rtc
  refine rtc_roundTrip hregisters.dateTime hs.frequency_good ?_
  rintro (hepoch | hrate | hdivider | hcounter | hevent)
  · have hlt := BitVec.lt_def.mp hepoch
    change s.now.toNat < s.clock.epochCycle.toNat at hlt
    rw [hs.toNat_now] at hlt
    exact absurd hs.epoch (Nat.not_le.mpr hlt)
  · exact rate_code_le _ hrate
  · exact absurd hregisters.divider (BitVec.not_le.mpr hdivider)
  · exact absurd hregisters.counter (BitVec.not_le.mpr hcounter)
  · exact not_badEvent hs.rtcArmed.event hs.rtcArmed.deadline hs.rtcArmed.pending hevent

end

/-- The handoff codec on reachable timers: the payloads of every state of a quiet run encode, and
decode to what was captured without the event fields and without the clock's observer ids; and a
decoder accepts nothing that its encoder does not write. The snapshot of the timer unit itself is
only missing where a tick index does not fit into 64 bits. -/
theorem run_handoff {frequency period : BitVec 64} {budget : Option Nat} {s : Timers}
    (hcreate : Timers.create frequency period budget = .ok s) {actions : List Action}
    (hquiet : QuietRun s actions) : (∀ state, (run s actions).tmuSnapshot = .ok state →
      ∃ bytes, encodeSh4TmuState state = .ok bytes ∧
        decodeSh4TmuState bytes = .ok state.withoutEvents) ∧
    (∀ e, (run s actions).tmuSnapshot = .error e → e.isOverflow = true) ∧
    (∃ bytes, encodeSh4RtcClockState (run s actions).clock = .ok bytes ∧
      decodeSh4RtcClockState bytes = .ok (run s actions).clock.withoutObservers) ∧
    (∃ bytes, encodeSh4RtcState (run s actions).rtcSnapshot = .ok bytes ∧
      decodeSh4RtcState bytes = .ok (run s actions).rtcSnapshot.withoutEvent.withoutObservers) ∧
    (∀ bytes state, decodeSh4TmuState bytes = .ok state →
      ∃ state', encodeSh4TmuState state' = .ok bytes) ∧
    (∀ bytes state, decodeSh4RtcClockState bytes = .ok state →
      ∃ state', encodeSh4RtcClockState state' = .ok bytes) ∧
    (∀ bytes state, decodeSh4RtcState bytes = .ok state →
      ∃ state', encodeSh4RtcState state' = .ok bytes) := by
  have hs : Settled (run s actions) := run_settled (create_settled hcreate) hquiet
  refine ⟨fun state => hs.tmu_handoff, fun e => tmuSnapshot_error hs,
    clock_roundTrip hs.frequency_good, hs.rtc_handoff, fun bytes state => tmu_encoded,
    fun bytes state h => ⟨state, clock_encoded h⟩, fun bytes state => rtc_encoded⟩

/-- The timers of the Dreamcast as the platform builds them. -/
def dreamcastTimers : Timers :=
  { scheduler := {}
    clock := { guestCyclesPerSecond := 200000000, nextObserverId := 2, observerIds := [1] }
    guestCyclesPerPeripheralCycle := 4 }

/-- A hundred cycles pass, then the counter of a stopped channel is written. -/
def lateCounter : List Action := [.advanceTo 100 8, .advanceRound, .writeCounter 0 5]

/-- The machine behind the advance. -/
def atCycle100 : Timers := { dreamcastTimers with scheduler := { currentCycle := 100 } }

theorem advance_to_cycle100 :
    perform (step dreamcastTimers (.advanceTo 100 8)) .advanceRound = .ok () atCycle100 := by
  have hbegin : step dreamcastTimers (.advanceTo 100 8) =
      { dreamcastTimers with
        scheduler := { advanceInProgress := true }, phase := .loop ⟨100, 8, 100, 0⟩ } := rfl
  rw [hbegin]
  change advanceRound ⟨100, 8, 100, 0⟩ _ = _
  simp [advanceRound, loopHead, endAdvance, atCycle100, dreamcastTimers]

theorem step_to_cycle100 :
    step (step dreamcastTimers (.advanceTo 100 8)) .advanceRound = atCycle100 := by
  rw [step, advance_to_cycle100]
  rfl

theorem quiet_lateCounter : QuietRun dreamcastTimers lateCounter := by
  refine ⟨⟨?_, ?_⟩, ⟨?_, ?_⟩, ⟨?_, ?_⟩, trivial⟩
  · intro h
    cases h
  · intro e t h
    cases h
  · intro h
    cases h
  · intro e t h
    rw [advance_to_cycle100] at h
    cases h
  · intro h
    cases h
  · intro e t h
    rw [step_to_cycle100] at h
    cases h

theorem run_handoff_lateCounter :
    Timers.create 200000000 4 none = .ok dreamcastTimers ∧ QuietRun dreamcastTimers lateCounter ∧
    ∃ bytes, encodeSh4RtcState (run dreamcastTimers lateCounter).rtcSnapshot = .ok bytes ∧
      decodeSh4RtcState bytes =
        .ok (run dreamcastTimers lateCounter).rtcSnapshot.withoutEvent.withoutObservers := by
  have hcreate : Timers.create 200000000 4 none = .ok dreamcastTimers := rfl
  exact ⟨hcreate, quiet_lateCounter, (run_handoff hcreate quiet_lateCounter).2.2.2.1⟩

/-- Two ways the plain round trip fails. The observer ids of the clock do not come back, by
design; and after a scheduler reset the stopped channel still carries cycle 100 as its anchor, so
that the encoder refuses the snapshot. -/
theorem handoff_not_plain : (∃ bytes, encodeSh4RtcState dreamcastTimers.rtcSnapshot = .ok bytes ∧
      decodeSh4RtcState bytes ≠ .ok dreamcastTimers.rtcSnapshot.withoutEvent) ∧
    ∃ state, (run dreamcastTimers (lateCounter ++ [.resetScheduler])).tmuSnapshot = .ok state ∧
      encodeSh4TmuState state = .error .inconsistentChannel := by
  constructor
  · have hcreate : Timers.create 200000000 4 none = .ok dreamcastTimers := rfl
    obtain ⟨bytes, hencode, hdecode⟩ := (create_settled hcreate).rtc_handoff
    refine ⟨bytes, hencode, ?_⟩
    rw [hdecode]
    intro h
    have hobservers := congrArg (fun r => r.toOption.map fun state => state.clock.nextObserverId) h
    simp [Except.toOption, Sh4RtcSnapshot.withoutObservers, Sh4RtcSnapshot.withoutEvent,
      Sh4RtcClockDomain.withoutObservers, Timers.rtcSnapshot, dreamcastTimers] at hobservers
  · have hrun : run dreamcastTimers (lateCounter ++ [.resetScheduler]) =
        step (step atCycle100 (.writeCounter 0 5)) .resetScheduler := by
      rw [← step_to_cycle100]
      rfl
    rw [hrun]
    exact ⟨_, rfl, rfl⟩

end KatanaRecomp.Runtime.Timer
