import KatanaRecomp.Runtime.SchedulerUse
import KatanaRecomp.Runtime.TimerClock

/-! # What holds of the timers between two calls

`Settled` is the invariant of the two devices: every channel's registers are
ones a control write can leave, its anchor is not ahead of the clock, and it
has an event exactly while it runs. Inside a call a channel may be without its
event, so each function comes with what it needs (`Core`) and what it leaves. -/
namespace KatanaRecomp.Runtime.Timer
open Lib Scheduler

theorem schedulerOk_dropped {scheduler : EventScheduler TimerCallback} {phase : Phase}
    (h : SchedulerOk scheduler phase) (event : Option Nat) :
    SchedulerOk (dropEvent scheduler event) phase ∧
      (dropEvent scheduler event).currentCycle = scheduler.currentCycle := by
  cases event with
  | none => exact ⟨h, rfl⟩
  | some id => exact h.cancelled id

/-! ## The invariant -/

/-- The bits a control write can leave. -/
structure Channel.Registers (value : Channel) : Prop where
  bits : value.control &&& ~~~0x013F = 0
  reserved : value.source ≠ 5
  external : value.source ≠ 7

/-- A channel has an event and its deadline exactly while it runs. -/
structure Channel.Armed (value : Channel) : Prop where
  event : value.event.isSome = value.running
  deadline : value.eventDeadline.isSome = value.running
  pending : value.eventRehydrationPending = false

structure Sh4Rtc.Registers (rtc : Sh4Rtc) : Prop where
  dateTime : rtc.dateTime.Valid
  divider : rtc.divider256hzPhase ≤ 1
  counter : rtc.counter64hz ≤ 0x7F

structure Sh4Rtc.Armed (rtc : Sh4Rtc) : Prop where
  event : rtc.event.isSome = rtc.rtcEnabled
  deadline : rtc.eventDeadline.isSome = rtc.rtcEnabled
  pending : rtc.eventRehydrationPending = false

/-- What holds also in the middle of a call. -/
structure Core (s : Timers) : Prop where
  scheduler : SchedulerOk s.scheduler s.phase
  frequency : 0 < s.clock.guestCyclesPerSecond.toNat
  bounded : s.clock.guestCyclesPerSecond.toNat ≤ Scheduler.uint64Max / sourceFrequencyHz
  period : s.guestCyclesPerPeripheralCycle ≠ 0
  channels : ∀ i, (s.channels i).Registers
  rtc : s.rtc.Registers

/-- A channel's anchor is not ahead of the clock, nor behind the phase origin it counts from. -/
structure Anchored (s : Timers) (value : Channel) : Prop where
  cycle : value.anchorCycle.toNat ≤ s.scheduler.currentCycle
  phase : value.running = true → value.usesRtcClock = true →
    s.clock.epochCycle.toNat ≤ value.anchorCycle.toNat

structure ChannelsSettled (s : Timers) : Prop extends Core s where
  epoch : s.clock.epochCycle.toNat ≤ s.scheduler.currentCycle
  anchored : ∀ i, Anchored s (s.channels i)
  armed : ∀ i, (s.channels i).Armed

structure Settled (s : Timers) : Prop extends ChannelsSettled s where
  rtcArmed : s.rtc.Armed

/-- The rest of the machine is the same after a call on the channels. -/
structure Beside (s t : Timers) : Prop where
  cycle : t.scheduler.currentCycle = s.scheduler.currentCycle
  phase : t.phase = s.phase
  clock : t.clock = s.clock
  rtc : t.rtc = s.rtc

theorem Beside.refl (s : Timers) : Beside s s := ⟨rfl, rfl, rfl, rfl⟩

variable {s t : Timers}

theorem Beside.trans {u : Timers} (h : Beside s t) (h' : Beside t u) : Beside s u :=
  ⟨h'.cycle.trans h.cycle, h'.phase.trans h.phase, h'.clock.trans h.clock, h'.rtc.trans h.rtc⟩

theorem Beside.now (h : Beside s t) : t.now = s.now := by
  unfold Timers.now
  rw [h.cycle]

variable {value : Channel}

theorem Beside.anchored (h : Beside s t) (ha : Anchored s value) : Anchored t value := by
  refine ⟨?_, ?_⟩
  · rw [h.cycle]
    exact ha.cycle
  · rw [h.clock]
    exact ha.phase

theorem Core.toNat_now (h : Core s) : s.now.toNat = s.scheduler.currentCycle := by
  have := h.scheduler.cycle
  unfold Scheduler.uint64Max at this
  rw [Timers.now, BitVec.toNat_ofNat, Nat.mod_eq_of_lt (by omega)]

@[simp] theorem Timers.setChannel_same (s : Timers) (index : Fin 3) (value : Channel) :
    (s.setChannel index value).channels index = value := by
  simp [setChannel]

theorem Timers.setChannel_other (s : Timers) {index i : Fin 3} (value : Channel) (hi : i ≠ index) :
    (s.setChannel index value).channels i = s.channels i := by
  simp [setChannel, hi]

theorem Core.setChannel (h : Core s) (index : Fin 3)
    (hvalue : value.Registers) : Core (s.setChannel index value) := by
  refine { h with channels := ?_ }
  intro i
  by_cases hi : i = index
  · rw [hi, Timers.setChannel_same]
    exact hvalue
  · rw [Timers.setChannel_other s value hi]
    exact h.channels i

theorem Beside.setChannel (s : Timers) (index : Fin 3) (value : Channel) :
    Beside s (s.setChannel index value) := ⟨rfl, rfl, rfl, rfl⟩

/-- Replacing one channel by one that is in order keeps the machine settled. -/
theorem Settled.replace (h : Settled s) (index : Fin 3) (hcore : Core t)
    (hbeside : Beside s t) (hothers : ∀ i, i ≠ index → t.channels i = s.channels i)
    (hanchored : Anchored t (t.channels index)) (harmed : (t.channels index).Armed) :
    Settled t := by
  refine { hcore with epoch := ?_, anchored := ?_, armed := ?_, rtcArmed := ?_ }
  · rw [hbeside.clock, hbeside.cycle]
    exact h.epoch
  · intro i
    by_cases hi : i = index
    · rw [hi]
      exact hanchored
    · rw [hothers i hi]
      exact hbeside.anchored (h.anchored i)
  · intro i
    by_cases hi : i = index
    · rw [hi]
      exact harmed
    · rw [hothers i hi]
      exact h.armed i
  · rw [hbeside.rtc]
    exact h.rtcArmed

theorem Settled.setChannel (h : Settled s) (index : Fin 3)
    (hregisters : value.Registers) (hanchored : Anchored s value) (harmed : value.Armed) :
    Settled (s.setChannel index value) := by
  refine h.replace index (h.toCore.setChannel index hregisters) (.setChannel s index value)
    (fun i hi => s.setChannel_other value hi) ?_ ?_
  · rw [Timers.setChannel_same]
    exact (Beside.setChannel s index value).anchored hanchored
  · rw [Timers.setChannel_same]
    exact harmed

/-! ## Channels -/

theorem Channel.Registers.of_control {value' : Channel} (h : value.Registers)
    (hcontrol : value'.control = value.control) : value'.Registers := by
  refine ⟨?_, ?_, ?_⟩
  · rw [hcontrol]
    exact h.bits
  · rw [Channel.source, hcontrol]
    exact h.reserved
  · rw [Channel.source, hcontrol]
    exact h.external

theorem Channel.Registers.source_cases (h : value.Registers) :
    value.source.toNat < 5 ∨ value.usesRtcClock = true := by
  have hlt : value.source.toNat < 8 := by
    have hle : value.source ≤ 7 := by
      unfold Channel.source
      rw [BitVec.le_def, BitVec.toNat_and]
      exact Nat.and_le_right
    have := BitVec.le_def.mp hle
    simp at this
    omega
  have h5 : value.source.toNat ≠ 5 := fun h5 =>
    h.reserved (BitVec.eq_of_toNat_eq (by simpa using h5))
  have h7 : value.source.toNat ≠ 7 := fun h7 =>
    h.external (BitVec.eq_of_toNat_eq (by simpa using h7))
  rcases Nat.lt_or_ge value.source.toNat 5 with hfixed | hfixed
  · exact .inl hfixed
  · have h6 : value.source = 6 := BitVec.eq_of_toNat_eq (by simp; omega)
    exact .inr (by simp [Channel.usesRtcClock, h6])

theorem tickPeriod_error {period : BitVec 64} {e : TimerError}
    (hsource : value.source.toNat < 5) (h : tickPeriod period value = .error e) :
    e.isOverflow = true := by
  unfold tickPeriod at h
  split at h
  · rw [checkedMultiply_error h]
    rfl
  · rename_i hnone
    rw [List.getElem?_eq_none_iff] at hnone
    simp [divisors] at hnone
    omega

theorem cancelEvent_ensures (hs : Core s) (index : Fin 3) : Ensures (cancelEvent index) s
      (fun _ t => Core t ∧ Beside s t ∧
        t.channels = Function.update s.channels index (s.channels index).withoutEvent)
      (fun _ _ => False) := by
  obtain ⟨hscheduler, hcycle⟩ := schedulerOk_dropped hs.scheduler (s.channels index).event
  refine .update ⟨?_, ⟨hcycle, rfl, rfl, rfl⟩, rfl⟩
  have hregisters : (s.channels index).withoutEvent.Registers := (hs.channels index).of_control rfl
  exact { hs.setChannel index hregisters with scheduler := hscheduler }

theorem schedule_ensures (hs : Core s) {cycle : Nat} (callback : TimerCallback)
    (kind : SchedulerEventKind) (hcycle : s.scheduler.currentCycle ≤ cycle)
    (hfits : cycle ≤ Scheduler.uint64Max) : Ensures (schedule cycle callback kind) s
      (fun _ t => Core t ∧ Beside s t ∧ t.channels = s.channels)
      (fun e _ => e.isOverflow = true) := by
  unfold Ensures schedule
  cases hschedule : scheduleAt s.scheduler cycle (some callback) kind with
  | error e =>
    rw [hs.scheduler.scheduleAt_error hcycle hschedule]
    rfl
  | ok result =>
    obtain ⟨id, scheduler'⟩ := result
    have hscheduled := scheduleAt_spec hschedule
    exact ⟨{ hs with scheduler := hs.scheduler.scheduled hscheduled hfits },
      ⟨hscheduled.currentCycle, rfl, rfl, rfl⟩, rfl⟩

theorem underflowDeadline_ok (hs : Core s) {deadline : Nat}
    (h : underflowDeadline s value = .ok deadline) :
    value.anchorCycle.toNat ≤ deadline ∧ deadline ≤ Scheduler.uint64Max := by
  unfold underflowDeadline at h
  dsimp only at h
  split at h
  · exact Sh4RtcClockDomain.deadlineAfter_ok hs.frequency (by omega) h
  · obtain ⟨period, -, h⟩ := bind_eq_ok h
    obtain ⟨cycles, -, h⟩ := bind_eq_ok h
    have hanchor : value.anchorCycle.toNat ≤ Scheduler.uint64Max := by
      have := value.anchorCycle.isLt
      unfold Scheduler.uint64Max
      omega
    obtain ⟨rfl, hle⟩ := checkedAdd_ok hanchor h
    exact ⟨by omega, hle⟩

theorem underflowDeadline_error {e : TimerError}
    (hregisters : value.Registers) (hepoch : s.clock.epochCycle.toNat ≤ value.anchorCycle.toNat)
    (h : underflowDeadline s value = .error e) : e.isOverflow = true := by
  unfold underflowDeadline at h
  dsimp only at h
  split at h
  · exact Sh4RtcClockDomain.deadlineAfter_error hepoch h
  · rename_i hrtc
    have hsource := hregisters.source_cases.resolve_right hrtc
    rcases bind_eq_error h with h | ⟨period, -, h⟩
    · exact tickPeriod_error hsource h
    rcases bind_eq_error h with h | ⟨cycles, -, h⟩
    · rw [checkedMultiply_error h]
      rfl
    · rw [checkedAdd_error h]
      rfl

/-- The channel as `schedule_underflow` leaves it, up to the id and the deadline. -/
structure Rearmed (s : Timers) (index : Fin 3) (t : Timers) : Prop where
  core : Core t
  beside : Beside s t
  others : ∀ i, i ≠ index → t.channels i = s.channels i
  anchor : (t.channels index).anchorCycle = s.now
  control : (t.channels index).control = (s.channels index).control
  running : (t.channels index).running = (s.channels index).running
  event : (t.channels index).event.isSome = true
  deadline : (t.channels index).eventDeadline.isSome = true
  pending : (t.channels index).eventRehydrationPending = false

theorem scheduleUnderflow_ensures (hs : Core s) (index : Fin 3)
    (hepoch : s.clock.epochCycle.toNat ≤ s.scheduler.currentCycle) :
    Ensures (scheduleUnderflow index) s (fun _ t => Rearmed s index t)
      (fun e _ => e.isOverflow = true) := by
  unfold scheduleUnderflow
  refine .bind ((cancelEvent_ensures hs index).mono ?_ fun _ _ h => h.elim)
  rintro _ t ⟨ht, hst, hchannels⟩
  have hat : t.channels index = (s.channels index).withoutEvent := by simp [hchannels]
  have hbeside : ∀ i, i ≠ index → t.channels i = s.channels i := by
    intro i hi
    simp [hchannels, hi]
  refine .bind (.update (.bind (.get ?_)))
  have hregisters : ∀ anchor counter, ({ t.channels index with
      anchorCycle := anchor, anchorCounter := counter } : Channel).Registers := by
    intro anchor counter
    exact (ht.channels index).of_control rfl
  have hu := ht.setChannel index (hregisters t.now (t.channels index).counter)
  rw [Timers.setChannel_same]
  refine .bind (.ofChecked ?_ ?_)
  · intro deadline hdeadline
    obtain ⟨hle, hfits⟩ := underflowDeadline_ok hu hdeadline
    have hfuture : t.scheduler.currentCycle ≤ deadline := by
      rw [← ht.toNat_now]
      exact hle
    refine .bind ((schedule_ensures hu (.underflow index) (underflowKind index) hfuture hfits).mono
      ?_ fun _ _ h => h)
    rintro id v ⟨hv, hbv, hcv⟩
    have hvat : v.channels index = { t.channels index with
        anchorCycle := t.now, anchorCounter := (t.channels index).counter } := by
      rw [hcv, Timers.setChannel_same]
    refine .update ⟨?_, ?_, ?_, ?_, ?_, ?_, ?_, ?_, ?_⟩
    · exact hv.setChannel index ((hv.channels index).of_control rfl)
    · exact hst.trans ((Beside.setChannel t index _).trans (hbv.trans (Beside.setChannel v index _)))
    · intro i hi
      rw [Timers.setChannel_other v _ hi, hcv, Timers.setChannel_other t _ hi, hbeside i hi]
    · rw [Timers.setChannel_same, hvat, hst.now]
    · rw [Timers.setChannel_same, hvat, hat]
      rfl
    · rw [Timers.setChannel_same, hvat, hat]
      rfl
    · rw [Timers.setChannel_same]
      rfl
    · rw [Timers.setChannel_same]
      rfl
    · rw [Timers.setChannel_same]
  · intro e herror
    refine underflowDeadline_error (hregisters _ _) ?_ herror
    change t.clock.epochCycle.toNat ≤ t.now.toNat
    rw [ht.toNat_now, hst.clock, hst.cycle]
    exact hepoch

variable {index : Fin 3}

/-- A running channel that was rescheduled is in order. -/
theorem Rearmed.anchored (h : Rearmed s index t) (hs : Core s)
    (hepoch : s.clock.epochCycle.toNat ≤ s.scheduler.currentCycle) :
    Anchored t (t.channels index) := by
  refine ⟨?_, ?_⟩
  · rw [h.anchor, hs.toNat_now, h.beside.cycle]
  · intro _ _
    rw [h.anchor, hs.toNat_now, h.beside.clock]
    exact hepoch

theorem Rearmed.armed (h : Rearmed s index t)
    (hrunning : (s.channels index).running = true) : (t.channels index).Armed :=
  ⟨by rw [h.event, h.running, hrunning], by rw [h.deadline, h.running, hrunning], h.pending⟩

theorem Rearmed.settled {u : Timers} (h : Rearmed t index u) (hs : Settled s)
    (ht : Core t) (hbeside : Beside s t) (hothers : ∀ i, i ≠ index → t.channels i = s.channels i)
    (hrunning : (t.channels index).running = true) : Settled u := by
  have hepoch : t.clock.epochCycle.toNat ≤ t.scheduler.currentCycle := by
    rw [hbeside.clock, hbeside.cycle]
    exact hs.epoch
  refine hs.replace index h.core (hbeside.trans h.beside) ?_ (h.anchored ht hepoch) (h.armed hrunning)
  intro i hi
  rw [h.others i hi, hothers i hi]

end KatanaRecomp.Runtime.Timer
