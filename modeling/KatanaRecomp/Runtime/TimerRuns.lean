import KatanaRecomp.Runtime.TimerSteps

/-! # Runs of the timers

The calls of the real-time clock, the scheduler's reset and the rounds of its
advance, and with them a whole run: every state reached is settled as long as
no 64-bit number runs out and no reset finds a stopped channel that was set
down at a later cycle. -/
namespace KatanaRecomp.Runtime.Timer
open Lib Scheduler

/-! ## The real-time clock -/

variable {s : Timers}

/-- The clock's part of the machine may change alone. -/
theorem ChannelsSettled.setRtc (hs : ChannelsSettled s) (rtc : Sh4Rtc)
    (hrtc : rtc.Registers) : ChannelsSettled (s.setRtc rtc) :=
  { hs with rtc := hrtc
            anchored := fun i => ⟨(hs.anchored i).cycle, (hs.anchored i).phase⟩ }

theorem Settled.setRtc (hs : Settled s) (rtc : Sh4Rtc) (hregisters : rtc.Registers)
    (harmed : rtc.Armed) : Settled (s.setRtc rtc) :=
  { hs.toChannelsSettled.setRtc rtc hregisters with rtcArmed := harmed }

variable {t : Timers}

theorem ChannelsSettled.beside (hs : ChannelsSettled s) (ht : Core t)
    (hbeside : Beside s t) (hchannels : t.channels = s.channels) : ChannelsSettled t := by
  refine { ht with epoch := ?_, anchored := ?_, armed := ?_ }
  · rw [hbeside.clock, hbeside.cycle]
    exact hs.epoch
  · intro i
    rw [hchannels]
    exact hbeside.anchored (hs.anchored i)
  · intro i
    rw [hchannels]
    exact hs.armed i

variable {scheduler : EventScheduler TimerCallback}

/-- The scheduler's part may change alone while the clock stands. -/
theorem ChannelsSettled.setScheduler (hs : ChannelsSettled s)
    (hscheduler : SchedulerOk scheduler s.phase)
    (hcycle : scheduler.currentCycle = s.scheduler.currentCycle) :
    ChannelsSettled { s with scheduler } :=
  hs.beside { hs.toCore with scheduler := hscheduler } ⟨hcycle, rfl, rfl, rfl⟩ rfl

/-- A clock without an event, which is in order while it is off. -/
structure Sh4Rtc.Idle (rtc : Sh4Rtc) : Prop where
  event : rtc.event = none
  deadline : rtc.eventDeadline = none
  pending : rtc.eventRehydrationPending = false

variable {rtc : Sh4Rtc}

theorem Sh4Rtc.Idle.armed (h : rtc.Idle) (hoff : rtc.rtcEnabled = false) : rtc.Armed :=
  ⟨by rw [h.event, hoff]; rfl, by rw [h.deadline, hoff]; rfl, h.pending⟩

theorem Sh4Rtc.idle_withoutEvent (rtc : Sh4Rtc) : rtc.withoutEvent.Idle := ⟨rfl, rfl, rfl⟩

theorem Sh4Rtc.Registers.withoutEvent (h : rtc.Registers) :
    rtc.withoutEvent.Registers := ⟨h.dateTime, h.divider, h.counter⟩

section
variable (hs : ChannelsSettled s)
include hs

theorem cancelTick_ensures :
    Ensures cancelTick s (fun _ t => ChannelsSettled t ∧ t.rtc = s.rtc.withoutEvent)
      (fun _ _ => False) := by
  obtain ⟨hscheduler, hcycle⟩ := schedulerOk_dropped hs.toCore.scheduler s.rtc.event
  refine .update ⟨?_, rfl⟩
  exact (hs.setRtc _ hs.toCore.rtc.withoutEvent).setScheduler hscheduler hcycle

theorem scheduleTick_ensures (henabled : s.rtc.rtcEnabled = true) :
    Ensures scheduleTick s (fun _ t => Settled t ∧ t.phase = s.phase)
      (fun e _ => e.isOverflow = true) := by
  unfold scheduleTick
  refine .bind (.get (.bind (.ofChecked ?_ ?_)))
  · intro deadline hdeadline
    obtain ⟨hfuture, hfits⟩ :=
      Sh4RtcClockDomain.deadlineAfter_ok hs.toCore.frequency (by decide) hdeadline
    refine .bind ((schedule_ensures hs.toCore .tick .sh4Rtc hfuture hfits).mono ?_ fun _ _ h => h)
    rintro id t ⟨hcore, hbeside, hchannels⟩
    have ht := hs.beside hcore hbeside hchannels
    have hregisters := hcore.rtc
    have hset := ht.setRtc
      { t.rtc with
        event := some id, eventDeadline := some deadline, eventRehydrationPending := false }
      ⟨hregisters.dateTime, hregisters.divider, hregisters.counter⟩
    refine .update ⟨{ hset with rtcArmed := ⟨?_, ?_, rfl⟩ }, hbeside.phase⟩
    all_goals
      change true = t.rtc.rtcEnabled
      rw [hbeside.rtc, henabled]
  · intro e herror
    exact Sh4RtcClockDomain.deadlineAfter_error hs.epoch herror

theorem scheduleTickIfEnabled_ensures (hidle : s.rtc.Idle) :
    Ensures scheduleTickIfEnabled s (fun _ t => Settled t ∧ t.phase = s.phase)
      (fun e _ => e.isOverflow = true) := by
  unfold scheduleTickIfEnabled
  refine .bind (.get (.ite ?_ ?_))
  · intro henabled
    exact scheduleTick_ensures hs henabled
  · intro hoff
    exact .pure ⟨{ hs with rtcArmed := hidle.armed (by simpa using hoff) }, rfl⟩

end

theorem setDateTime_ensures (hs : Settled s) (value : RtcDateTime) :
    Ensures (setDateTime value) s (fun _ t => Settled t) Excused := by
  unfold setDateTime
  refine .bind (.get (.ite (fun _ => .throw (.inr hs)) fun _ => ?_))
  refine .ite (fun _ => .throw (.inr hs)) ?_
  intro hvalid
  have hrtc := hs.toCore.rtc
  refine .update (hs.setRtc _ ⟨not_not.mp hvalid, hrtc.divider, hrtc.counter⟩ ?_)
  exact ⟨hs.rtcArmed.event, hs.rtcArmed.deadline, hs.rtcArmed.pending⟩

theorem setRtcEnabled_ensures (hs : Settled s) (enabled : Bool) :
    Ensures (setRtcEnabled enabled) s (fun _ t => Settled t) (fun e _ => e.isOverflow = true) := by
  unfold setRtcEnabled
  have hrtc := hs.toCore.rtc
  have hset := hs.toChannelsSettled.setRtc { s.rtc with rtcEnabled := enabled }
    ⟨hrtc.dateTime, hrtc.divider, hrtc.counter⟩
  refine .bind (.update (.bind (.get (.ite ?_ ?_))))
  · intro hoff
    refine (cancelTick_ensures hset).mono ?_ fun _ _ h => h.elim
    rintro _ t ⟨ht, htrtc⟩
    have hoff : enabled = false := by simpa using hoff
    refine { ht with rtcArmed := ?_ }
    rw [htrtc]
    exact (Sh4Rtc.idle_withoutEvent _).armed hoff
  intro hon
  have hon : enabled = true := by simpa using hon
  refine .ite ?_ ?_
  · intro _
    exact (scheduleTick_ensures hset hon).mono (fun _ _ h => h.1) fun _ _ h => h
  · intro hevent
    refine .pure { hset with rtcArmed := ?_ }
    have hpending := hs.rtcArmed.pending
    have hsome : s.rtc.event.isSome = true := by
      cases hnone : s.rtc.event with
      | some id => rfl
      | none =>
        refine absurd ?_ hevent
        simp [Timers.setRtc, hnone, hpending]
    have hdeadline := hs.rtcArmed.deadline
    rw [← hs.rtcArmed.event, hsome] at hdeadline
    exact ⟨hsome.trans hon.symm, hdeadline.trans hon.symm, hpending⟩

theorem startCalendar_ensures (hs : Settled s) :
    Ensures startCalendar s (fun _ t => Settled t) (fun e _ => e.isOverflow = true) := by
  unfold startCalendar
  have hrtc := hs.toCore.rtc
  refine .bind (.update (setRtcEnabled_ensures (hs.setRtc _ ?_ ?_) true))
  · exact ⟨hrtc.dateTime, hrtc.divider, hrtc.counter⟩
  · exact ⟨hs.rtcArmed.event, hs.rtcArmed.deadline, hs.rtcArmed.pending⟩

/-- A phase reset at the current cycle, with the clock's event out of the way. -/
theorem resetPhaseNow_ensures (hs : Core s) (hidle : s.rtc.Idle)
    (hchannels : ∀ i, Anchored s (s.channels i) ∧ (s.channels i).Armed) :
    Ensures (resetPhase s.now >>= fun _ => scheduleTickIfEnabled) s (fun _ t => Settled t)
      (fun e _ => e.isOverflow = true) := by
  have hcycle : s.now.toNat ≤ s.scheduler.currentCycle := hs.toNat_now.le
  refine .bind ((resetPhase_ensures hs hcycle fun i => (hchannels i).1.ready).mono ?_
    fun _ _ h => h)
  intro _ t ht
  refine (scheduleTickIfEnabled_ensures (ht.settled hchannels hcycle) ?_).mono (fun _ _ h => h.1)
    fun _ _ h => h
  rw [ht.rtc]
  exact hidle

theorem resetDivider_ensures (hs : Settled s) :
    Ensures resetDivider s (fun _ t => Settled t) (fun e _ => e.isOverflow = true) := by
  unfold resetDivider
  refine .bind ((cancelTick_ensures hs.toChannelsSettled).mono ?_ fun _ _ h => h.elim)
  rintro _ t ⟨ht, hrtc⟩
  refine .bind (.update (.bind (.get ?_)))
  have hset := ht.setRtc { t.rtc with
      divider256hzPhase := 0, counter64hz := 0, periodicPhaseTicks := 0, periodicPending := false }
    ⟨ht.toCore.rtc.dateTime, show (0 : BitVec 8) ≤ 1 by decide,
      show (0 : BitVec 8) ≤ 0x7F by decide⟩
  refine resetPhaseNow_ensures hset.toCore ?_ fun i => ⟨hset.anchored i, hset.armed i⟩
  rw [hrtc]
  exact ⟨rfl, rfl, rfl⟩

theorem RtcAssignment.registers (h : rtc.Registers) (assignment : RtcAssignment) :
    (assignment.apply rtc).Registers := by
  cases assignment <;> exact ⟨h.dateTime, h.divider, h.counter⟩

theorem RtcAssignment.armed (h : rtc.Armed) (assignment : RtcAssignment) :
    (assignment.apply rtc).Armed := by
  cases assignment <;> exact ⟨h.event, h.deadline, h.pending⟩

theorem writeAlarmRegister_ensures (hs : Settled s) (index : Nat) (value : BitVec 8) :
    Ensures (writeAlarmRegister index value) s (fun _ t => Settled t) Excused := by
  unfold writeAlarmRegister
  have hrtc := hs.toCore.rtc
  split
  · refine .update (hs.setRtc _ ⟨hrtc.dateTime, hrtc.divider, hrtc.counter⟩ ?_)
    exact ⟨hs.rtcArmed.event, hs.rtcArmed.deadline, hs.rtcArmed.pending⟩
  · exact .throw (.inr hs)

/-! ## The tick -/

theorem daysInMonth_bounds {year : BitVec 16} {month : BitVec 8} (hlow : 1 ≤ month)
    (hhigh : month ≤ 12) : 1 ≤ daysInMonth year month ∧ daysInMonth year month ≤ 31 := by
  have hlow : 1 ≤ month.toNat := by simpa [BitVec.le_def] using hlow
  have hhigh : month.toNat ≤ 12 := by simpa [BitVec.le_def] using hhigh
  obtain ⟨n, rfl⟩ : ∃ n : Fin 13, month = BitVec.ofNat 8 n := ⟨⟨month.toNat, by omega⟩, by simp⟩
  unfold daysInMonth
  cases leapYear year <;> fin_cases n <;> simp_all

/-- Every carry of the calendar ends in a valid date. -/
theorem incrementSecond_valid {value : RtcDateTime} (h : value.Valid) :
    (incrementSecond value).Valid := by
  obtain ⟨hyear, hmonth, hmonth', hday, hday', hweek, hhour, hminute, hsecond⟩ := h
  have hzero : ∀ bound : BitVec 8, (0 : BitVec 8) ≤ bound := fun bound => by bv_omega
  have hone : (1 : BitVec 8) ≤ 1 := by decide
  obtain ⟨-, hdays⟩ := @daysInMonth_bounds value.year value.month hmonth hmonth'
  unfold incrementSecond
  dsimp only
  split
  · rename_i hnext
    exact ⟨hyear, hmonth, hmonth', hday, hday', hweek, hhour, hminute, hnext⟩
  split
  · rename_i hnext
    exact ⟨hyear, hmonth, hmonth', hday, hday', hweek, hhour, hnext, hzero _⟩
  split
  · rename_i hnext
    exact ⟨hyear, hmonth, hmonth', hday, hday', hweek, hnext, hzero _, hzero _⟩
  have hweek' : BitVec.ofNat 8 ((value.dayOfWeek.toNat + 1) % 7) ≤ 6 := by
    rw [BitVec.le_def, BitVec.toNat_ofNat]
    have hmod := Nat.mod_lt (value.dayOfWeek.toNat + 1) (show 0 < 7 by omega)
    rw [Nat.mod_eq_of_lt (by omega)]
    simp
    omega
  split
  · rename_i hnext
    have hpositive : 1 ≤ value.day + 1 := by bv_omega
    exact ⟨hyear, hmonth, hmonth', hpositive, hnext, hweek', hzero _, hzero _, hzero _⟩
  split
  · rename_i hnext
    have hpositive : 1 ≤ value.month + 1 := by bv_omega
    obtain ⟨hfirst, -⟩ := @daysInMonth_bounds value.year (value.month + 1) hpositive hnext
    exact ⟨hyear, hpositive, hnext, hone, hfirst, hweek', hzero _, hzero _, hzero _⟩
  · have hyear' : BitVec.ofNat 16 ((value.year.toNat + 1) % 10000) ≤ 9999 := by
      rw [BitVec.le_def, BitVec.toNat_ofNat]
      have hmod := Nat.mod_lt (value.year.toNat + 1) (show 0 < 10000 by omega)
      rw [Nat.mod_eq_of_lt (by omega)]
      simp
      omega
    obtain ⟨hfirst, -⟩ := @daysInMonth_bounds
      (BitVec.ofNat 16 ((value.year.toNat + 1) % 10000)) 1 hone (by decide)
    have htwelve : (1 : BitVec 8) ≤ 12 := by decide
    exact ⟨hyear', hone, htwelve, hone, hfirst, hweek', hzero _, hzero _, hzero _⟩

theorem updateAlarm_registers (h : rtc.Registers) : (updateAlarm rtc).Registers := by
  unfold updateAlarm
  dsimp only
  split
  · exact ⟨h.dateTime, h.divider, h.counter⟩
  · exact h

theorem updateAlarm_idle (h : rtc.Idle) : (updateAlarm rtc).Idle := by
  unfold updateAlarm
  dsimp only
  split
  · exact ⟨h.event, h.deadline, h.pending⟩
  · exact h

theorem flipped_divider {phase : BitVec 8} (h : phase ≤ 1) : phase ^^^ 1 ≤ 1 := by
  have hcases : phase = 0 ∨ phase = 1 := by bv_omega
  rcases hcases with rfl | rfl <;> decide

theorem Sh4Rtc.ticked_registers (h : rtc.Registers) : rtc.ticked.Registers := by
  have hflip := flipped_divider h.divider
  have hwrap : ∀ counter : BitVec 8, counter &&& 0x7F ≤ 0x7F := by
    intro counter
    rw [BitVec.le_def, BitVec.toNat_and]
    exact Nat.and_le_right
  unfold ticked
  dsimp only
  split
  all_goals
    split
    · split
      · split
        · exact updateAlarm_registers ⟨incrementSecond_valid h.dateTime, hflip, hwrap _⟩
        · exact ⟨h.dateTime, hflip, hwrap _⟩
      · exact ⟨h.dateTime, hflip, hwrap _⟩
    · exact ⟨h.dateTime, hflip, h.counter⟩

theorem Sh4Rtc.ticked_idle (rtc : Sh4Rtc) : rtc.ticked.Idle := by
  unfold ticked
  dsimp only
  split
  all_goals
    split
    · split
      · split
        · exact updateAlarm_idle ⟨rfl, rfl, rfl⟩
        · exact ⟨rfl, rfl, rfl⟩
      · exact ⟨rfl, rfl, rfl⟩
    · exact ⟨rfl, rfl, rfl⟩

theorem tick_ensures (hs : Settled s) : Ensures tick s (fun _ t => Settled t ∧ t.phase = s.phase)
      (fun e _ => e.isOverflow = true) := by
  unfold tick
  refine .bind (.update (scheduleTickIfEnabled_ensures ?_ ?_))
  · exact hs.toChannelsSettled.setRtc _ (Sh4Rtc.ticked_registers hs.toCore.rtc)
  · exact s.rtc.ticked_idle

/-! ## The scheduler's reset -/

/-- The channels while the reset handler of the timer unit takes their events away. -/
structure Disarming (s : Timers) (rest : List (Fin 3)) (t : Timers) : Prop where
  core : Core t
  beside : Beside s t
  control : ∀ i, (t.channels i).control = (s.channels i).control
  running : ∀ i, (t.channels i).running = (s.channels i).running
  anchor : ∀ i, (t.channels i).anchorCycle = (s.channels i).anchorCycle
  idle : ∀ i, i ∉ rest → t.channels i = (t.channels i).withoutEvent

variable {rest : List (Fin 3)}

theorem disarm_ensures {index : Fin 3} (h : Disarming s (index :: rest) t) :
    Ensures (cancelEvent index) t (fun _ u => Disarming s rest u)
      (fun e _ => e.isOverflow = true) := by
  refine (cancelEvent_ensures h.core index).mono ?_ fun _ _ h => h.elim
  rintro _ u ⟨hu, hbeside, hchannels⟩
  have hat : ∀ i, u.channels i = if i = index then (t.channels i).withoutEvent
      else t.channels i := by
    intro i
    rw [hchannels, Function.update_apply]
    split
    · rename_i hi
      rw [hi]
    · rfl
  refine ⟨hu, h.beside.trans hbeside, ?_, ?_, ?_, ?_⟩
  · intro i
    rw [hat, ← h.control i]
    split <;> rfl
  · intro i
    rw [hat, ← h.running i]
    split <;> rfl
  · intro i
    rw [hat, ← h.anchor i]
    split <;> rfl
  · intro i hi
    rw [hat]
    split
    · rfl
    · rename_i hindex
      exact h.idle i (by simp [hindex, hi])

/-- The channels while the handler puts the peripheral clock's channels back on. -/
structure Restarting (s : Timers) (rest : List (Fin 3)) (t : Timers) : Prop where
  core : Core t
  beside : Beside s t
  epoch : t.clock.epochCycle.toNat ≤ t.scheduler.currentCycle
  settled : ∀ i, i ∉ rest ∨ (t.channels i).running = false ∨ (t.channels i).usesRtcClock = true →
    Anchored t (t.channels i) ∧ (t.channels i).Armed

theorem restartChannel_ensures {index : Fin 3} (h : Restarting s (index :: rest) t) :
    Ensures (restartChannel index) t (fun _ u => Restarting s rest u)
      (fun e _ => e.isOverflow = true) := by
  unfold restartChannel
  refine .bind (.get (.ite ?_ ?_))
  · intro hcondition
    rw [Bool.and_eq_true] at hcondition
    obtain ⟨hrunning, -⟩ := hcondition
    refine .bind (.update ?_)
    have hcore : Core (t.setChannel index { t.channels index with
        anchorCycle := t.now, anchorCounter := (t.channels index).counter }) :=
      h.core.setChannel index ((h.core.channels index).of_control rfl)
    refine (scheduleUnderflow_ensures hcore index h.epoch).mono ?_ fun _ _ h => h
    intro _ u hu
    have hbeside : Beside t u := (Beside.setChannel t index _).trans hu.beside
    refine ⟨hu.core, h.beside.trans hbeside, ?_, ?_⟩
    · rw [hbeside.clock, hbeside.cycle]
      exact h.epoch
    · intro i hi
      by_cases hindex : i = index
      · subst hindex
        refine ⟨hu.anchored hcore h.epoch, hu.armed ?_⟩
        rw [Timers.setChannel_same]
        exact hrunning
      · have hsame : u.channels i = t.channels i := by
          rw [hu.others i hindex, Timers.setChannel_other _ _ hindex]
        rw [hsame] at hi ⊢
        obtain ⟨hanchored, harmed⟩ := h.settled i (by
          rcases hi with hi | hi
          · exact .inl (by simp [hindex, hi])
          · exact .inr hi)
        exact ⟨hbeside.anchored hanchored, harmed⟩
  · intro hcondition
    refine .pure { h with settled := ?_ }
    intro i hi
    refine h.settled i ?_
    by_cases hindex : i = index
    · subst hindex
      refine .inr ?_
      cases hrunning : (t.channels i).running with
      | false => exact .inl rfl
      | true =>
        right
        rw [hrunning] at hcondition
        simpa using hcondition
    · rcases hi with hi | hi
      · exact .inl (by simp [hindex, hi])
      · exact .inr hi

theorem tmuHandleSchedulerReset_ensures (hs : Core s) (hphase : ∀ i, Ready s (s.channels i))
    (hstopped : ∀ i, (s.channels i).running = false → (s.channels i).anchorCycle = 0) :
    Ensures tmuHandleSchedulerReset s (fun _ t => ChannelsSettled t ∧ t.rtc = s.rtc)
      (fun e _ => e.isOverflow = true) := by
  unfold tmuHandleSchedulerReset
  have hdisarm := Ensures.forM (fun rest => Disarming s rest)
    (fun index rest t ht => disarm_ensures ht) channelIndices
    (show Disarming s channelIndices s from ⟨hs, .refl s, fun _ => rfl, fun _ => rfl, fun _ => rfl,
      fun i hi => absurd (List.mem_finRange i) hi⟩)
  refine .bind (hdisarm.mono ?_ fun _ _ h => h)
  intro _ t ht
  have hnow : t.now.toNat ≤ t.scheduler.currentCycle := ht.core.toNat_now.le
  have hready : ∀ i, Ready t (t.channels i) := by
    intro i hcounting hcycle
    rw [ht.beside.clock, ht.anchor i]
    refine hphase i ?_ ?_
    · rw [← hcounting]
      unfold Channel.counting Channel.usesRtcClock Channel.source
      rw [ht.control i, ht.running i]
    · rw [← ht.anchor i, ← ht.beside.cycle]
      exact hcycle
  refine .bind (.get (.bind ((resetPhase_ensures ht.core hnow hready).mono ?_ fun _ _ h => h)))
  intro _ u hu
  have hstart : Restarting u channelIndices u := by
    refine ⟨hu.core, .refl u, ?_, ?_⟩
    · rw [hu.clock, hu.cycle]
      exact hnow
    · intro i hi
      have hi := hi.resolve_left fun hout => hout (List.mem_finRange i)
      cases hcounting : (u.channels i).counting with
      | true => exact hu.restarted i hcounting
      | false =>
        have hoff : (u.channels i).running = false := by
          rcases hi with hi | hi
          · exact hi
          · rw [Channel.counting, hi, Bool.and_true] at hcounting
            exact hcounting
        have haside : u.channels i = t.channels i :=
          (hu.kept i).aside (by rw [← (hu.kept i).counting, hcounting])
        have hofft : (t.channels i).running = false := by rw [← haside, hoff]
        have hzero : (t.channels i).anchorCycle = 0 := by
          rw [ht.anchor i]
          exact hstopped i (by rw [← ht.running i, hofft])
        refine ⟨⟨?_, ?_⟩, ?_⟩
        · rw [haside, hzero]
          exact Nat.zero_le _
        · intro hrunning
          rw [hoff] at hrunning
          cases hrunning
        · rw [haside, ht.idle i (by simp)]
          exact ⟨hofft.symm, hofft.symm, rfl⟩
  have hrestart := Ensures.forM (fun rest => Restarting u rest)
    (fun index rest v hv => restartChannel_ensures hv) channelIndices hstart
  refine hrestart.mono ?_ fun _ _ h => h
  intro _ v hv
  have hchannel : ∀ i, Anchored v (v.channels i) ∧ (v.channels i).Armed :=
    fun i => hv.settled i (.inl (by simp))
  refine ⟨{ hv.core with
    epoch := hv.epoch, anchored := fun i => (hchannel i).1, armed := fun i => (hchannel i).2 }, ?_⟩
  rw [hv.beside.rtc, hu.rtc, ht.beside.rtc]

theorem rtcHandleSchedulerReset_ensures (hs : ChannelsSettled s) :
    Ensures rtcHandleSchedulerReset s (fun _ t => Settled t) (fun e _ => e.isOverflow = true) := by
  unfold rtcHandleSchedulerReset
  have hset := hs.setRtc _ hs.toCore.rtc.withoutEvent
  refine .bind (.update (.bind (.get ?_)))
  exact resetPhaseNow_ensures hset.toCore s.rtc.idle_withoutEvent
    fun i => ⟨hset.anchored i, hset.armed i⟩

/-- A reset that finds every stopped channel on cycle zero. -/
def ResetReady (s : Timers) : Prop :=
  resetRefused s = none → ∀ i, (s.channels i).running = false → (s.channels i).anchorCycle = 0

theorem rewound_core (hs : Settled s) (hidle : s.scheduler.advanceInProgress = false) :
    Core (rewound s) := by
  have hphase : s.phase = .idle := by
    have hadvance := hs.toCore.scheduler.advance
    cases hphase : s.phase with
    | idle => rfl
    | loop a =>
      rw [hphase] at hadvance
      rw [hadvance.guarded] at hidle
      cases hidle
    | callback a =>
      rw [hphase] at hadvance
      rw [hadvance.guarded] at hidle
      cases hidle
  refine { hs.toCore with scheduler := ⟨?_, ?_, Nat.zero_le _, ?_, hs.toCore.scheduler.target⟩ }
  · constructor <;> simp [rewound]
  · change PhaseOk _ s.phase
    rw [hphase]
    exact hidle
  · intro key hkey
    simp [rewound] at hkey

theorem resetScheduler_ensures (hs : Settled s) (hready : ResetReady s) :
    Ensures resetScheduler s (fun _ t => Settled t) Excused := by
  unfold resetScheduler
  refine .bind (.get ?_)
  cases hrefused : resetRefused s with
  | some e => exact .throw (.inr hs)
  | none =>
    have hidle : s.scheduler.advanceInProgress = false := by
      unfold resetRefused at hrefused
      split at hrefused
      · cases hrefused
      · rename_i hidle
        exact Bool.eq_false_iff.mpr hidle
    refine .bind (.update ?_)
    have hphase : ∀ i, Ready (rewound s) ((rewound s).channels i) := by
      intro i hcounting _
      rw [Channel.counting, Bool.and_eq_true] at hcounting
      exact (hs.anchored i).phase hcounting.1 hcounting.2
    have hfirst := tmuHandleSchedulerReset_ensures (rewound_core hs hidle) hphase (hready hrefused)
    unfold Ensures runObservers
    cases htmu : tmuHandleSchedulerReset (rewound s) with
    | error e t =>
      have hoverflow := hfirst.of_error htmu
      dsimp only
      cases rtcHandleSchedulerReset t <;> exact .inl hoverflow
    | ok _ t =>
      have hsecond := rtcHandleSchedulerReset_ensures (hfirst.of_ok htmu).1
      exact hsecond.mono (fun _ _ h => h) fun _ _ h => Or.inl h

/-! ## Rounds of an advance -/

/-- The clock of the scheduler moves forward: nothing that is in order gets out of it. -/
theorem Settled.forward (hs : Settled s) {phase : Phase} (hscheduler : SchedulerOk scheduler phase)
    (hforward : s.scheduler.currentCycle ≤ scheduler.currentCycle) :
    Settled { s with scheduler, phase } :=
  { hs with
    scheduler := hscheduler
    epoch := hs.epoch.trans hforward
    anchored := fun i => ⟨(hs.anchored i).cycle.trans hforward, (hs.anchored i).phase⟩ }

/-- Whatever phase a callback of the two devices runs in, it leaves it as it is. -/
theorem runCallback_settled {a : Advance} {callback : TimersM Unit}
    (hcallback : ∀ t, Settled t → t.phase = .callback a → Ensures callback t
      (fun _ u => Settled u ∧ u.phase = t.phase) (fun e _ => e.isOverflow = true))
    (hs : Settled { s with phase := .callback a }) :
    Ensures (runCallback a callback) s (fun _ t => Settled t) (fun e _ => e.isOverflow = true) := by
  have hrun := hcallback _ hs rfl
  unfold Ensures runCallback
  cases hresult : callback { s with phase := .callback a } with
  | error e t => exact hrun.of_error hresult
  | ok _ t =>
    obtain ⟨ht, hphase⟩ := hrun.of_ok hresult
    refine ht.forward ⟨ht.toCore.scheduler.consistent, ?_, ht.toCore.scheduler.cycle,
      ht.toCore.scheduler.deadlines, ?_⟩ le_rfl
    · have hadvance := ht.toCore.scheduler.advance
      rw [hphase] at hadvance
      exact hadvance
    · rintro b (hb | hb) <;> cases hb
      exact ht.toCore.scheduler.target a (.inr hphase)

theorem advanceRound_ensures (hs : Settled s) {a : Advance} (hphase : s.phase = .loop a) :
    Ensures (advanceRound a) s (fun _ t => Settled t) (fun e _ => e.isOverflow = true) := by
  have hscheduler : SchedulerOk s.scheduler (.loop a) := hphase ▸ hs.toCore.scheduler
  have hadvance : Advancing s.scheduler a := hscheduler.advance
  unfold Ensures advanceRound
  rcases loopHead_cases s.scheduler a with
    ⟨key, a', hhead, hmin, hdue, htarget, hcycle⟩ | ⟨result, hhead, -⟩ | ⟨result, hhead, -, hnone⟩
  · have hmem := (EventKey.minKey?_spec hmin).1
    have hfired := hscheduler.fired hmin hdue htarget hcycle
    have hforward : s.scheduler.currentCycle ≤ key.deadline :=
      hs.toCore.scheduler.consistent.notPast key hmem
    have hnext := hs.forward hfired hforward
    simp only [hhead]
    have hcall : ∀ callback : TimersM Unit, (∀ t, Settled t → Ensures callback t
        (fun _ u => Settled u ∧ u.phase = t.phase) (fun e _ => e.isOverflow = true)) →
        Ensures (runCallback a' callback) { s with scheduler := extractEvent s.scheduler key }
          (fun _ t => Settled t) (fun e _ => e.isOverflow = true) := by
      intro callback hcallback
      exact runCallback_settled (fun t ht _ => hcallback t ht) hnext
    cases hevent : s.scheduler.events[key]? with
    | none => exact hnext
    | some event =>
      obtain ⟨callback, kind⟩ := event
      cases callback with
      | underflow index => exact hcall _ fun t ht => handleUnderflow_ensures ht index
      | tick => exact hcall _ fun t ht => tick_ensures ht
      | device id => exact hnext
  · rw [hhead]
    exact hs.forward hscheduler.leftHere le_rfl
  · rw [hhead]
    have htarget : a.effectiveTarget ≤ Scheduler.uint64Max :=
      hadvance.requested.trans (hscheduler.target a (.inl rfl))
    exact hs.forward (hscheduler.left htarget (fun k hk => (hnone k hk).le) hadvance.budgeted)
      hadvance.ahead

/-! ## Runs -/

theorem toNat_le_uint64Max (x : BitVec 64) : x.toNat ≤ Scheduler.uint64Max := by
  have := x.isLt
  unfold Scheduler.uint64Max
  omega

/-- A result that a run may go on from. -/
def ResultOk : EStateM.Result TimerError Timers Unit → Prop
  | .ok _ t => Settled t
  | .error e t => Excused e t

theorem Settled.setScheduler (hs : Settled s) (hscheduler : SchedulerOk scheduler s.phase)
    (hcycle : scheduler.currentCycle = s.scheduler.currentCycle) : Settled { s with scheduler } :=
  { hs.toChannelsSettled.setScheduler hscheduler hcycle with rtcArmed := hs.rtcArmed }

theorem deviceSchedules_ok (hs : Settled s)
    {result : Except SchedulerError (Nat × EventScheduler TimerCallback)}
    (hresult : ∀ id scheduler, result = .ok (id, scheduler) →
      ∃ key, Scheduled s.scheduler scheduler key ∧ key.deadline ≤ Scheduler.uint64Max) :
    ResultOk (deviceSchedules s result) := by
  cases result with
  | error e => exact .inr hs
  | ok value =>
    obtain ⟨id, scheduler⟩ := value
    obtain ⟨key, hscheduled, hdeadline⟩ := hresult id scheduler rfl
    exact hs.setScheduler (hs.toCore.scheduler.scheduled hscheduled hdeadline)
      hscheduled.currentCycle

theorem advanceBegins_ok (hs : Settled s)
    {result : Except SchedulerError (Advance × EventScheduler TimerCallback)}
    (hresult : ∀ a scheduler, result = .ok (a, scheduler) →
      SchedulerOk scheduler (.loop a) ∧ scheduler.currentCycle = s.scheduler.currentCycle) :
    ResultOk (advanceBegins s result) := by
  cases result with
  | error e => exact .inr hs
  | ok value =>
    obtain ⟨a, scheduler⟩ := value
    obtain ⟨hscheduler, hcycle⟩ := hresult a scheduler rfl
    exact hs.forward hscheduler hcycle.ge

theorem Ensures.resultOk {x : TimersM Unit}
    (h : Ensures x s (fun _ t => Settled t) Excused) : ResultOk (x s) := by
  unfold Ensures at h
  unfold ResultOk
  split at h <;> simp_all

theorem Ensures.resultOk_overflow {x : TimersM Unit}
    (h : Ensures x s (fun _ t => Settled t) (fun e _ => e.isOverflow = true)) : ResultOk (x s) :=
  Ensures.resultOk (h.mono (fun _ _ h => h) fun _ _ h => Or.inl h)

theorem resetPhaseZero_ensures (hs : Settled s) :
    Ensures (resetPhase 0) s (fun _ t => Settled t) (fun e _ => e.isOverflow = true) := by
  refine (resetPhase_ensures hs.toCore (Nat.zero_le _) fun i => (hs.anchored i).ready).mono ?_
    fun _ _ h => h
  intro _ t ht
  refine { ht.settled (fun i => ⟨hs.anchored i, hs.armed i⟩) (Nat.zero_le _) with rtcArmed := ?_ }
  rw [ht.rtc]
  exact hs.rtcArmed

theorem callerAction_ok (hs : Settled s) (action : Action)
    (hreset : action = .resetScheduler → ResetReady s) : ResultOk (callerAction s action) := by
  cases action with
  | writeConstant index value => exact Ensures.resultOk (writeConstant_ensures hs index value)
  | writeCounter index value => exact Ensures.resultOk (writeCounter_ensures hs index value)
  | writeControl index value => exact Ensures.resultOk (writeControl_ensures hs index value)
  | writeStart mask => exact Ensures.resultOk_overflow (writeStart_ensures hs mask)
  | readCounter index =>
    have hread : Ensures (readCounter index >>= fun _ => pure () : TimersM Unit) s
        (fun _ t => Settled t) Excused :=
      .bind ((readCounter_ensures hs index).mono (fun _ _ h => .pure h) fun _ _ h => h)
    exact Ensures.resultOk hread
  | tmuReset =>
    have hreset : Ensures tmuReset s (fun _ t => Settled t) Excused :=
      (tmuReset_ensures hs).mono (fun _ _ h => h) fun _ _ h => h.elim
    exact Ensures.resultOk hreset
  | setDateTime value => exact Ensures.resultOk (setDateTime_ensures hs value)
  | startCalendar => exact Ensures.resultOk_overflow (startCalendar_ensures hs)
  | setRtcEnabled enabled => exact Ensures.resultOk_overflow (setRtcEnabled_ensures hs enabled)
  | resetDivider => exact Ensures.resultOk_overflow (resetDivider_ensures hs)
  | assignRtc assignment =>
    exact hs.setRtc _ (assignment.registers hs.toCore.rtc) (assignment.armed hs.rtcArmed)
  | writeAlarmRegister index value =>
    exact Ensures.resultOk (writeAlarmRegister_ensures hs index value)
  | resetPhase => exact Ensures.resultOk_overflow (resetPhaseZero_ensures hs)
  | resetScheduler => exact Ensures.resultOk (resetScheduler_ensures hs (hreset rfl))
  | deviceScheduleAt cycle id kind =>
    refine deviceSchedules_ok hs ?_
    intro eventId scheduler h
    exact ⟨_, scheduleAt_spec h, toNat_le_uint64Max cycle⟩
  | deviceScheduleAfter cycles id kind =>
    refine deviceSchedules_ok hs ?_
    intro eventId scheduler h
    refine ⟨_, scheduleAfter_spec h, ?_⟩
    unfold scheduleAfter at h
    split at h
    · cases h
    · have hcycle := hs.toCore.scheduler.cycle
      change s.scheduler.currentCycle + cycles.toNat ≤ Scheduler.uint64Max
      omega
  | deviceScheduleAtOrNow cycle id kind =>
    refine deviceSchedules_ok hs ?_
    intro eventId scheduler h
    exact ⟨_, scheduleAt_spec h, max_le (toNat_le_uint64Max cycle) hs.toCore.scheduler.cycle⟩
  | deviceCancel id =>
    obtain ⟨hscheduler, hcycle⟩ := hs.toCore.scheduler.cancelled id
    exact hs.setScheduler hscheduler hcycle
  | advanceTo cycle budget =>
    refine advanceBegins_ok hs ?_
    intro a scheduler h
    exact hs.toCore.scheduler.begun h (toNat_le_uint64Max cycle)
  | advanceBy cycles budget =>
    refine advanceBegins_ok hs ?_
    intro a scheduler h
    unfold beginAdvanceBy at h
    split at h
    · cases h
    split at h
    · cases h
    · have hcycle := hs.toCore.scheduler.cycle
      exact hs.toCore.scheduler.begun h (by omega)
  | callbackReturns =>
    cases hphase : s.phase with
    | callback a =>
      have hscheduler := hs.toCore.scheduler
      rw [hphase] at hscheduler
      have hnext : Settled { s with phase := .loop a } := by
        refine hs.forward ⟨hscheduler.consistent, hscheduler.advance, hscheduler.cycle,
          hscheduler.deadlines, ?_⟩ le_rfl
        rintro b (hb | hb) <;> cases hb
        exact hscheduler.target a (.inr rfl)
      simp only [callerAction, hphase]
      exact hnext
    | idle =>
      simp only [callerAction, hphase]
      exact hs
    | loop a =>
      simp only [callerAction, hphase]
      exact hs
  | callbackThrows =>
    have hleft := hs.forward hs.toCore.scheduler.leftHere le_rfl
    cases hphase : s.phase with
    | callback a =>
      simp only [callerAction, hphase]
      exact .inr hleft
    | idle =>
      simp only [callerAction, hphase]
      exact hs
    | loop a =>
      simp only [callerAction, hphase]
      exact hs
  | advanceRound => exact hs

theorem perform_ok (hs : Settled s) (action : Action)
    (hreset : action = .resetScheduler → ResetReady s) : ResultOk (perform s action) := by
  unfold perform
  split
  · rename_i a hphase
    exact Ensures.resultOk_overflow (advanceRound_ensures hs hphase)
  · exact hs
  · exact callerAction_ok hs _ hreset

/-- An action that does not reach a stopped channel's stale anchor with a reset, and that no
exhausted number stops. -/
structure Quiet (s : Timers) (action : Action) : Prop where
  reset : action = .resetScheduler → ResetReady s
  inRange : ∀ e t, perform s action = .error e t → e.isOverflow = false

theorem step_settled (hs : Settled s) {action : Action} (hquiet : Quiet s action) :
    Settled (step s action) := by
  have hresult := perform_ok hs action hquiet.reset
  unfold step resultState
  cases hperform : perform s action with
  | ok _ t =>
    rw [hperform] at hresult
    exact hresult
  | error e t =>
    rw [hperform] at hresult
    have hinRange := hquiet.inRange e t hperform
    rcases hresult with hoverflow | hsettled
    · rw [hinRange] at hoverflow
      cases hoverflow
    · exact hsettled

/-- Every action of the run is quiet in the state it meets. -/
def QuietRun : Timers → List Action → Prop
  | _, [] => True
  | s, action :: rest => Quiet s action ∧ QuietRun (step s action) rest

theorem run_settled (hs : Settled s) {actions : List Action}
    (hquiet : QuietRun s actions) : Settled (run s actions) := by
  induction actions generalizing s with
  | nil => exact hs
  | cons action rest ih =>
    obtain ⟨hfirst, hrest⟩ := hquiet
    exact ih (step_settled hs hfirst) hrest

theorem Channel.registers_initial : ({} : Channel).Registers := ⟨by decide, by decide, by decide⟩

theorem Sh4Rtc.registers_initial : ({} : Sh4Rtc).Registers := ⟨by decide, by decide, by decide⟩

theorem create_settled {frequency period : BitVec 64} {budget : Option Nat}
    (h : Timers.create frequency period budget = .ok s) : Settled s := by
  unfold Timers.create at h
  obtain ⟨clock, hclock, h⟩ := bind_eq_ok h
  unfold Sh4RtcClockDomain.create at hclock
  split at hclock
  · cases hclock
  rename_i hfrequency
  cases hclock
  dsimp only at h
  split at h
  · cases h
  rename_i hperiod
  cases h
  rw [not_or] at hfrequency
  have hpositive : 0 < frequency.toNat := by
    rw [Nat.pos_iff_ne_zero]
    intro hzero
    exact hfrequency.1 (BitVec.eq_of_toNat_eq (by simpa using hzero))
  exact
    { scheduler :=
        { consistent := by constructor <;> simp
          advance := rfl
          cycle := Nat.zero_le _
          deadlines := by simp
          target := by rintro a (ha | ha) <;> cases ha }
      frequency := hpositive
      bounded := Nat.not_lt.mp hfrequency.2
      period := hperiod
      channels := fun _ => Channel.registers_initial
      rtc := Sh4Rtc.registers_initial
      epoch := le_rfl
      anchored := fun _ => ⟨le_rfl, fun hrunning => by cases hrunning⟩
      armed := fun _ => ⟨rfl, rfl, rfl⟩
      rtcArmed := ⟨rfl, rfl, rfl⟩ }

end KatanaRecomp.Runtime.Timer
