import KatanaRecomp.Runtime.TimerHandoff

/-! # What the handoff decoders accept

Each decoder accepts exactly the bytes its encoder writes for some snapshot,
and gives back that snapshot without the fields the payload does not carry. -/
namespace KatanaRecomp.Runtime.Timer
open Lib ByteFormat

/-! ## Fields -/

theorem readU8_parses : Parses readU8 (littleEndian 1) (fun _ => True) := .word _ rfl
theorem readU16_parses : Parses readU16 (littleEndian 2) (fun _ => True) := .word _ rfl
theorem readU32_parses : Parses readU32 (littleEndian 4) (fun _ => True) := .word _ rfl
theorem readU64_parses : Parses readU64 (littleEndian 8) (fun _ => True) := .word _ rfl

theorem boolean_byte {value : BitVec 8} (hvalue : ¬ value > 1) (b : Bool) :
    (if b then 1 else 0) = value ↔ b = (value != 0) := by
  have hcases : value = 0 ∨ value = 1 := by bv_omega
  rcases hcases with rfl | rfl <;> cases b <;> simp

theorem readBoolean_parses : Parses readBoolean writeBoolean (fun _ => True) := by
  refine .of_rest (readU8_parses.bind (fun b : Bool => if b then 1 else 0) fun value _ =>
    .check (fun _ => False) ?_ fun hvalue => .pure (fun _ => True) fun b => ?_) ?_ ?_
  · rintro b ⟨rfl, -⟩
    cases b <;> simp
  · rw [and_true, and_true, boolean_byte hvalue]
  · intro value
    simp [writeBoolean]
  · simp

theorem expectMagic_parses (expected : List Byte) :
    Parses (expectMagic expected) (fun _ => expected) (fun _ => True) :=
  (Parses.take HandoffError.truncated expected.length).constant .invalidMagic rfl

theorem expectVersion_parses (expected : BitVec 32) (error : HandoffError) :
    Parses (expectVersion expected error) (fun _ => littleEndian 4 expected) (fun _ => True) :=
  readU32_parses.constant error trivial

/-! ## The timer unit -/

/-- The fields the payload does not carry. -/
def Sh4TmuChannelSnapshot.Cleared (channel : Sh4TmuChannelSnapshot) : Prop :=
  channel.event = none ∧ channel.eventDeadline = none ∧ channel.eventRehydrationPending = false

theorem readChannel_parses (schedulerCycle : BitVec 64) :
    Parses (readChannel schedulerCycle) writeChannel
      (fun channel => ¬ channel.Invalid schedulerCycle ∧ channel.Cleared) := by
  refine .of_rest
    (readU32_parses.bind Sh4TmuChannelSnapshot.constant fun constant _ =>
    readU32_parses.bind Sh4TmuChannelSnapshot.storedCounter fun stored _ =>
    readU32_parses.bind Sh4TmuChannelSnapshot.effectiveCounter fun effective _ =>
    readU16_parses.bind Sh4TmuChannelSnapshot.control fun control _ =>
    readU64_parses.bind Sh4TmuChannelSnapshot.anchorCycle fun anchor _ =>
    readU32_parses.bind Sh4TmuChannelSnapshot.anchorCounter fun anchorCounter _ =>
    readU64_parses.bind Sh4TmuChannelSnapshot.underflows fun underflows _ =>
    readBoolean_parses.bind Sh4TmuChannelSnapshot.running fun running _ =>
    .check (fun channel => channel.Invalid schedulerCycle) ?_ fun _ =>
    .pure Sh4TmuChannelSnapshot.Cleared fun channel => ?_) ?_ ?_
  · rintro channel ⟨rfl, rfl, rfl, rfl, rfl, rfl, rfl, rfl, -⟩
    rfl
  · constructor
    · rintro ⟨⟨rfl, rfl, rfl, rfl, rfl, rfl, rfl, rfl, -⟩, hevent, hdeadline, hpending⟩
      cases channel
      cases hevent
      cases hdeadline
      cases hpending
      rfl
    · rintro rfl
      exact ⟨⟨rfl, rfl, rfl, rfl, rfl, rfl, rfl, rfl, trivial⟩, rfl, rfl, rfl⟩
  · intro channel
    simp [writeChannel]
  · intro channel
    simp

/-- A timer unit's snapshot as the decoder leaves it. -/
def Sh4TmuSnapshot.Decodable (state : Sh4TmuSnapshot) : Prop :=
  state.guestCyclesPerPeripheralCycle ≠ 0 ∧
    ∀ i, ¬ (state.channels i).Invalid state.schedulerCycle ∧ (state.channels i).Cleared

theorem readTmuState_parses : Parses readTmuState writeTmuState Sh4TmuSnapshot.Decodable := by
  refine .of_rest
    ((expectMagic_parses sh4TmuStateMagic).bind (fun _ => ()) fun _ _ =>
    (expectVersion_parses contractVersion .tmuVersion).bind (fun _ => ()) fun _ _ =>
    readU64_parses.bind Sh4TmuSnapshot.schedulerCycle fun cycle _ =>
    readU64_parses.bind Sh4TmuSnapshot.guestCyclesPerPeripheralCycle fun period _ =>
    .check (fun state => state.guestCyclesPerPeripheralCycle = 0) ?_ fun _ =>
    .congr (fun state => ∀ i,
        ¬ (state.channels i).Invalid state.schedulerCycle ∧ (state.channels i).Cleared)
      ((readChannel_parses cycle).bind (fun state : Sh4TmuSnapshot => state.channels 0) fun first _ =>
      (readChannel_parses cycle).bind (fun state : Sh4TmuSnapshot => state.channels 1) fun second _ =>
      (readChannel_parses cycle).bind (fun state : Sh4TmuSnapshot => state.channels 2) fun third _ =>
      .pure (fun _ => True) fun state => ?_) ?_) ?_ ?_
  · rintro state ⟨rfl, -⟩
    rfl
  · constructor
    · rintro ⟨⟨rfl, rfl, rfl, rfl, rfl, -⟩, -⟩
      obtain ⟨cycle, period, channels⟩ := state
      congr 1
      funext i
      fin_cases i <;> rfl
    · rintro rfl
      exact ⟨⟨rfl, rfl, rfl, rfl, rfl, rfl, rfl, trivial⟩, trivial⟩
  · rintro state ⟨-, rfl, -⟩
    rw [Fin.forall_fin_succ, Fin.forall_fin_two]
    simp
  · intro state
    simp [writeTmuState]
  · intro state
    simp [Sh4TmuSnapshot.Decodable]

/-! ## The clock domain -/

/-- A clock's snapshot as the decoder leaves it. -/
def Sh4RtcClockDomain.Decodable (state : Sh4RtcClockDomain) : Prop :=
  ¬ BadFrequency state.guestCyclesPerSecond ∧ state.nextObserverId = 0 ∧ state.observerIds = []

theorem readClockState_parses :
    Parses readClockState writeClockState Sh4RtcClockDomain.Decodable := by
  refine .of_rest
    ((expectMagic_parses sh4RtcClockStateMagic).bind (fun _ => ()) fun _ _ =>
    (expectVersion_parses contractVersion .clockVersion).bind (fun _ => ()) fun _ _ =>
    readU64_parses.bind Sh4RtcClockDomain.guestCyclesPerSecond fun frequency _ =>
    readU64_parses.bind Sh4RtcClockDomain.epochCycle fun epoch _ =>
    .check (fun state : Sh4RtcClockDomain => BadFrequency state.guestCyclesPerSecond) ?_ fun _ =>
    .pure (fun state : Sh4RtcClockDomain => state.nextObserverId = 0 ∧ state.observerIds = [])
      fun state => ?_) ?_ ?_
  · rintro state ⟨-, rfl, -⟩
    rfl
  · constructor
    · rintro ⟨⟨rfl, rfl, -⟩, hnext, hids⟩
      cases state
      cases hnext
      cases hids
      rfl
    · rintro rfl
      exact ⟨⟨rfl, rfl, rfl, rfl, trivial⟩, rfl, rfl⟩
  · intro state
    simp [writeClockState]
  · intro state
    simp [Sh4RtcClockDomain.Decodable]

/-! ## The real-time clock -/

theorem readDateTime_parses : Parses readDateTime writeDateTime RtcDateTime.Valid := by
  refine .of_rest
    (readU16_parses.bind RtcDateTime.year fun year _ =>
    readU8_parses.bind RtcDateTime.month fun month _ =>
    readU8_parses.bind RtcDateTime.day fun day _ =>
    readU8_parses.bind RtcDateTime.dayOfWeek fun dayOfWeek _ =>
    readU8_parses.bind RtcDateTime.hour fun hour _ =>
    readU8_parses.bind RtcDateTime.minute fun minute _ =>
    readU8_parses.bind RtcDateTime.second fun second _ =>
    .check (fun value : RtcDateTime => ¬ value.Valid) ?_ fun _ =>
    .pure (fun _ => True) fun value => ?_) ?_ ?_
  · rintro value ⟨rfl, rfl, rfl, rfl, rfl, rfl, rfl, -⟩
    rfl
  · constructor
    · rintro ⟨⟨rfl, rfl, rfl, rfl, rfl, rfl, rfl, -⟩, -⟩
      rfl
    · rintro rfl
      exact ⟨⟨rfl, rfl, rfl, rfl, rfl, rfl, rfl, trivial⟩, trivial⟩
  · intro value
    simp [writeDateTime]
  · intro value
    simp

theorem RtcPeriodicRate.code_eq_iff {code : BitVec 32}
    (hcode : ¬ code > RtcPeriodicRate.every2Seconds.code) (rate : RtcPeriodicRate) :
    rate.code = code ↔ rate = .ofCode code := by
  have hle : code.toNat ≤ 7 := by
    have : ¬ code > 7 := hcode
    bv_omega
  constructor
  · rintro rfl
    cases rate <;> rfl
  · rintro rfl
    obtain ⟨n, rfl⟩ : ∃ n : Fin 8, code = BitVec.ofNat 32 n := ⟨⟨code.toNat, by omega⟩, by simp⟩
    fin_cases n <;> rfl

theorem readPeriodicRate_parses :
    Parses readPeriodicRate (fun rate => littleEndian 4 rate.code) (fun _ => True) := by
  refine .of_rest (readU32_parses.bind RtcPeriodicRate.code fun code _ =>
    .check (fun _ => False) ?_ fun hcode => .pure (fun _ => True) fun rate => ?_) ?_ ?_
  · rintro rate ⟨rfl, -⟩
    cases rate <;> simp [RtcPeriodicRate.code]
  · rw [and_true, and_true, RtcPeriodicRate.code_eq_iff hcode]
  · simp
  · simp

theorem readAlarmRegisters_parses :
    Parses readAlarmRegisters (fun registers => List.ofFn registers) (fun _ => True) := by
  refine .of_rest ((Parses.take HandoffError.truncated 6).bind (fun registers => List.ofFn registers)
    fun bytes hlength => .pure (fun _ => True) fun registers => ?_) ?_ ?_
  · rw [and_true, and_true]
    constructor
    · rintro rfl
      funext i
      rw [List.getD_eq_getElem _ _ (by rw [List.length_ofFn]; exact i.isLt), List.getElem_ofFn]
    · rintro rfl
      apply List.ext_getElem
      · rw [List.length_ofFn, hlength]
      intro i _ hi
      rw [List.getElem_ofFn, List.getD_eq_getElem _ _ hi]
  · simp
  · simp

/-- The fields the payload does not carry. -/
def Sh4RtcSnapshot.Cleared (state : Sh4RtcSnapshot) : Prop :=
  state.event = none ∧ state.eventDeadline = none ∧ state.eventRehydrationPending = false ∧
    state.clock.nextObserverId = 0 ∧ state.clock.observerIds = []

/-- A real-time clock's snapshot as the decoder leaves it. -/
def Sh4RtcSnapshot.Decodable (state : Sh4RtcSnapshot) : Prop :=
  state.dateTime.Valid ∧ ¬ BadFrequency state.clock.guestCyclesPerSecond ∧
    ¬ state.clock.epochCycle > state.schedulerCycle ∧
    ¬ (state.divider256hzPhase > 1 ∨ state.counter64hz > 0x7F) ∧ state.Cleared

theorem readRtcState_parses : Parses readRtcState writeRtcState Sh4RtcSnapshot.Decodable := by
  refine .of_rest
    ((expectMagic_parses sh4RtcStateMagic).bind (fun _ => ()) fun _ _ =>
    (expectVersion_parses contractVersion .rtcVersion).bind (fun _ => ()) fun _ _ =>
    readDateTime_parses.bind Sh4RtcSnapshot.dateTime fun dateTime _ =>
    readU64_parses.bind (fun state => state.clock.guestCyclesPerSecond) fun frequency _ =>
    readU64_parses.bind (fun state => state.clock.epochCycle) fun epoch _ =>
    .check (fun state => BadFrequency state.clock.guestCyclesPerSecond) ?_ fun _ =>
    readU64_parses.bind Sh4RtcSnapshot.schedulerCycle fun cycle _ =>
    .check (fun state => state.clock.epochCycle > state.schedulerCycle) ?_ fun _ =>
    readPeriodicRate_parses.bind Sh4RtcSnapshot.periodicRate fun rate _ =>
    readU8_parses.bind Sh4RtcSnapshot.divider256hzPhase fun divider _ =>
    readU8_parses.bind Sh4RtcSnapshot.counter64hz fun counter _ =>
    .check (fun state => state.divider256hzPhase > 1 ∨ state.counter64hz > 0x7F) ?_ fun _ =>
    readU64_parses.bind Sh4RtcSnapshot.periodicPhaseTicks fun phaseTicks _ =>
    readU64_parses.bind Sh4RtcSnapshot.ticks fun ticks _ =>
    readU64_parses.bind Sh4RtcSnapshot.periodicEvents fun events _ =>
    readBoolean_parses.bind Sh4RtcSnapshot.calendarRunning fun calendarRunning _ =>
    readBoolean_parses.bind Sh4RtcSnapshot.rtcEnabled fun rtcEnabled _ =>
    readBoolean_parses.bind Sh4RtcSnapshot.periodicPending fun periodicPending _ =>
    readBoolean_parses.bind Sh4RtcSnapshot.carryFlag fun carryFlag _ =>
    readBoolean_parses.bind Sh4RtcSnapshot.carryEnabled fun carryEnabled _ =>
    readAlarmRegisters_parses.bind Sh4RtcSnapshot.alarmRegisters fun alarmRegisters _ =>
    readBoolean_parses.bind Sh4RtcSnapshot.alarmPending fun alarmPending _ =>
    readBoolean_parses.bind Sh4RtcSnapshot.alarmEnabled fun alarmEnabled _ =>
    .pure Sh4RtcSnapshot.Cleared fun state => ?_) ?_ ?_
  · rintro state ⟨-, rfl, -⟩
    rfl
  · rintro state ⟨rfl, rfl, -⟩
    rfl
  · rintro state ⟨rfl, rfl, -⟩
    rfl
  · constructor
    · rintro ⟨⟨rfl, rfl, rfl, rfl, rfl, rfl, rfl, rfl, rfl, rfl, rfl, rfl, rfl, rfl, rfl, rfl, rfl,
        rfl, -⟩, hevent, hdeadline, hpending, hnext, hids⟩
      obtain ⟨_, ⟨_, _, _, _⟩, _, _, _, _, _⟩ := state
      cases hevent
      cases hdeadline
      cases hpending
      cases hnext
      cases hids
      rfl
    · rintro rfl
      exact ⟨⟨rfl, rfl, rfl, rfl, rfl, rfl, rfl, rfl, rfl, rfl, rfl, rfl, rfl, rfl, rfl, rfl, rfl,
        rfl, rfl, rfl, trivial⟩, rfl, rfl, rfl, rfl, rfl⟩
  · intro state
    simp [writeRtcState]
  · intro state
    simp [Sh4RtcSnapshot.Decodable]

end KatanaRecomp.Runtime.Timer
