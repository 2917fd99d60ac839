import KatanaRecomp.Runtime.TimerInvariant

/-! # The calls keep the timers settled

One lemma for each call of the two devices, and one for each thing the
scheduler can do around them. A call that does not get through leaves the
machine settled, unless a 64-bit number ran out in the middle of it. The one
call with a condition is the scheduler's reset: a stopped channel keeps its
anchor, so it must not have moved from cycle zero. -/
namespace KatanaRecomp.Runtime.Timer
open Lib Scheduler

/-- How a call may fail: by an exhausted number, or before it changed anything that matters. -/
def Excused (e : TimerError) (t : Timers) : Prop := e.isOverflow = true ∨ Settled t

/-! ## Counting -/

/-- `synchronize` may move the count and the anchor, and nothing else. -/
structure Synchronized (s : Timers) (index : Fin 3) (t : Timers) : Prop where
  core : Core t
  beside : Beside s t
  others : ∀ i, i ≠ index → t.channels i = s.channels i
  anchored : Anchored t (t.channels index)
  control : (t.channels index).control = (s.channels index).control
  running : (t.channels index).running = (s.channels index).running
  event : (t.channels index).event = (s.channels index).event
  deadline : (t.channels index).eventDeadline = (s.channels index).eventDeadline
  pending : (t.channels index).eventRehydrationPending = (s.channels index).eventRehydrationPending

variable {s : Timers} {index : Fin 3}

theorem Synchronized.refl (hs : Core s)
    (hanchored : Anchored s (s.channels index)) : Synchronized s index s :=
  ⟨hs, .refl s, fun _ _ => rfl, hanchored, rfl, rfl, rfl, rfl, rfl⟩

variable {t : Timers}

theorem Synchronized.armed (h : Synchronized s index t)
    (harmed : (s.channels index).Armed) : (t.channels index).Armed :=
  ⟨by rw [h.event, h.running, harmed.event], by rw [h.deadline, h.running, harmed.deadline],
    by rw [h.pending, harmed.pending]⟩

theorem Synchronized.settled (h : Synchronized s index t) (hs : Settled s) : Settled t :=
  hs.replace index h.core h.beside h.others h.anchored (h.armed (hs.armed index))

variable {value : Channel}

theorem ticksSinceAnchor_error {e : TimerError}
    (hregisters : value.Registers) (hrunning : value.running = true) (hanchored : Anchored s value)
    (h : s.ticksSinceAnchor value = .error e) : e.isOverflow = true := by
  unfold Timers.ticksSinceAnchor at h
  split at h
  · rename_i hrtc
    exact Sh4RtcClockDomain.elapsedTicks_error (hanchored.phase hrunning hrtc) hanchored.cycle h
  · rename_i hrtc
    rcases bind_eq_error h with h | ⟨period, -, h⟩
    · exact tickPeriod_error (hregisters.source_cases.resolve_right hrtc) h
    · cases h

theorem synchronizedAnchor_error {ticks : Nat} {e : TimerError}
    (hregisters : value.Registers) (hrunning : value.running = true) (hanchored : Anchored s value)
    (h : s.synchronizedAnchor value ticks = .error e) : e.isOverflow = true := by
  unfold Timers.synchronizedAnchor at h
  split at h
  · rename_i hrtc
    exact Sh4RtcClockDomain.deadlineAfter_error (hanchored.phase hrunning hrtc) h
  · rename_i hrtc
    rcases bind_eq_error h with h | ⟨period, -, h⟩
    · exact tickPeriod_error (hregisters.source_cases.resolve_right hrtc) h
    · cases h

/-- The new anchor stands at a whole tick, so neither ahead of the clock nor before the epoch. -/
theorem synchronizedAnchor_ok (hs : Core s) {ticks anchor : Nat}
    (hanchored : Anchored s value) (hnonzero : ticks ≠ 0)
    (hticks : s.ticksSinceAnchor value = .ok ticks)
    (h : s.synchronizedAnchor value ticks = .ok anchor) : anchor ≤ s.scheduler.currentCycle ∧
      (value.usesRtcClock = true → s.clock.epochCycle.toNat ≤ anchor) := by
  unfold Timers.ticksSinceAnchor at hticks
  unfold Timers.synchronizedAnchor at h
  by_cases hrtc : value.usesRtcClock = true
  · rw [if_pos hrtc] at hticks h
    obtain ⟨hepoch, hlast, -⟩ :=
      Sh4RtcClockDomain.deadlineAfter_elapsed hs.frequency hnonzero hticks h
    exact ⟨hlast, fun _ => hepoch⟩
  · rw [if_neg hrtc] at hticks h
    obtain ⟨period, hperiod, hticks⟩ := bind_eq_ok hticks
    obtain ⟨period', hperiod', h⟩ := bind_eq_ok h
    rw [hperiod] at hperiod'
    cases hperiod'
    cases hticks
    cases h
    have hwhole := Nat.div_mul_le_self (s.scheduler.currentCycle - value.anchorCycle.toNat) period
    have hcycle := hanchored.cycle
    exact ⟨by omega, fun hrtc' => absurd hrtc' hrtc⟩

theorem synchronize_ensures (hs : Core s) (hanchored : Anchored s (s.channels index)) :
    Ensures (synchronize index) s (fun _ t => Synchronized s index t)
      (fun e _ => e.isOverflow = true) := by
  unfold synchronize
  refine .bind (.get (.ite ?_ ?_))
  · intro _
    exact .pure (.refl hs hanchored)
  intro hrunning
  have hrunning : (s.channels index).running = true := by simpa using hrunning
  refine .ite ?_ ?_
  · intro hahead
    exact absurd hanchored.cycle (by omega)
  intro _
  refine .bind (.ofChecked ?_ ?_)
  · intro ticks hticks
    refine .ite ?_ ?_
    · intro _
      exact .pure (.refl hs hanchored)
    intro hnonzero
    refine .bind (.update (.bind (.ofChecked ?_ ?_)))
    · intro anchor hanchor
      obtain ⟨hcycle, hepoch⟩ := synchronizedAnchor_ok hs hanchored hnonzero hticks hanchor
      have hfits : (BitVec.ofNat 64 anchor).toNat = anchor := by
        have := hs.scheduler.cycle
        unfold Scheduler.uint64Max at this
        rw [BitVec.toNat_ofNat, Nat.mod_eq_of_lt (by omega)]
      have hregisters := hs.channels index
      refine .update ⟨?_, ?_, ?_, ?_, ?_, ?_, ?_, ?_, ?_⟩
      · refine (hs.setChannel index ?_).setChannel index ?_
        · exact hregisters.of_control rfl
        · exact hregisters.of_control rfl
      · exact ⟨rfl, rfl, rfl, rfl⟩
      · intro i hi
        rw [Timers.setChannel_other _ _ hi, Timers.setChannel_other _ _ hi]
      · rw [Timers.setChannel_same]
        refine ⟨?_, ?_⟩
        · change (BitVec.ofNat 64 anchor).toNat ≤ s.scheduler.currentCycle
          rw [hfits]
          exact hcycle
        · intro _ hrtc
          change s.clock.epochCycle.toNat ≤ (BitVec.ofNat 64 anchor).toNat
          rw [hfits]
          exact hepoch hrtc
      all_goals rw [Timers.setChannel_same]
    · intro e herror
      exact synchronizedAnchor_error (hs.channels index) hrunning hanchored herror
  · intro e herror
    exact ticksSinceAnchor_error (hs.channels index) hrunning hanchored herror

/-! ## Rescheduling -/

/-- The common end of the calls that change a channel: reschedule it if it runs. -/
theorem reschedule_ensures (hs : Settled s) (index : Fin 3) (hregisters : value.Registers)
    (hstopped : value.running = false → Anchored s value ∧ value.Armed) :
    Ensures (get >>= fun u => if (u.channels index).running then scheduleUnderflow index
      else pure () : TimersM Unit) (s.setChannel index value)
      (fun _ u => Settled u ∧ u.phase = s.phase) (fun e _ => e.isOverflow = true) := by
  have hcore := hs.toCore.setChannel index hregisters
  refine .bind (.get ?_)
  rw [Timers.setChannel_same]
  refine .ite ?_ ?_
  · intro hrunning
    refine (scheduleUnderflow_ensures hcore index hs.epoch).mono ?_ fun _ _ h => h
    intro _ u hu
    refine ⟨hu.settled hs hcore (.setChannel s index value)
      (fun i hi => s.setChannel_other value hi) ?_, hu.beside.phase⟩
    rw [Timers.setChannel_same]
    exact hrunning
  · intro hrunning
    have hrunning : value.running = false := by simpa using hrunning
    obtain ⟨hanchored, harmed⟩ := hstopped hrunning
    exact .pure ⟨hs.setChannel index hregisters hanchored harmed, rfl⟩

/-- An anchor at the current cycle is in order. -/
theorem Settled.anchored_now (hs : Settled s)
    (hanchor : value.anchorCycle = s.now) : Anchored s value := by
  refine ⟨?_, fun _ _ => ?_⟩
  · rw [hanchor, hs.toNat_now]
  · rw [hanchor, hs.toNat_now]
    exact hs.epoch

/-! ## Control bits -/

theorem Channel.Registers.flagged (h : value.Registers) :
    ({ value with control := value.control ||| underflowFlag } : Channel).Registers := by
  have hsource : (value.control ||| underflowFlag) &&& 0x7 = value.control &&& 0x7 := by
    rw [BitVec.and_or_distrib_right]
    simp [underflowFlag]
  refine ⟨?_, ?_, ?_⟩
  · rw [BitVec.and_or_distrib_right, h.bits]
    decide
  · change (value.control ||| underflowFlag) &&& 0x7 ≠ 5
    rw [hsource]
    exact h.reserved
  · change (value.control ||| underflowFlag) &&& 0x7 ≠ 7
    rw [hsource]
    exact h.external

/-- What a control write leaves of the new value and of the flag. -/
theorem written_control (old new : BitVec 16) :
    let control := new &&& 0x003F ||| old &&& new &&& underflowFlag
    control &&& ~~~0x013F = 0 ∧ control &&& 0x7 = new &&& 0x7 := by
  have hmask : (0x003F &&& ~~~0x013F : BitVec 16) = 0 := by decide
  have hflag : (underflowFlag &&& ~~~0x013F : BitVec 16) = 0 := by decide
  have hlow : (0x003F &&& 0x7 : BitVec 16) = 0x7 := by decide
  have hflaglow : (underflowFlag &&& 0x7 : BitVec 16) = 0 := by decide
  refine ⟨?_, ?_⟩
  · rw [BitVec.and_or_distrib_right, BitVec.and_assoc new, hmask, BitVec.and_assoc _ underflowFlag,
      hflag]
    simp
  · rw [BitVec.and_or_distrib_right, BitVec.and_assoc new, hlow, BitVec.and_assoc _ underflowFlag,
      hflaglow]
    simp

/-! ## The timer unit's calls -/

variable (hs : Settled s)
include hs

theorem handleUnderflow_ensures (index : Fin 3) :
    Ensures (handleUnderflow index) s (fun _ t => Settled t ∧ t.phase = s.phase)
      (fun e _ => e.isOverflow = true) := by
  unfold handleUnderflow
  refine .bind (.update (reschedule_ensures hs index ?_ ?_))
  · exact (hs.channels index).flagged.of_control rfl
  · intro hstopped
    exact ⟨hs.anchored_now rfl, hstopped.symm, hstopped.symm, rfl⟩

/-- The checked access to a channel. -/
theorem channel_ensures (index : Nat) {post : Fin 3 → Timers → Prop} (hpost : ∀ i, post i s) :
    Ensures (channel index) s post Excused := by
  unfold channel
  split
  · exact .pure (hpost _)
  · exact .throw (.inr hs)

theorem writeConstant_ensures (index : Nat) (value : BitVec 32) :
    Ensures (writeConstant index value) s (fun _ t => Settled t) Excused := by
  unfold writeConstant
  refine .bind (channel_ensures hs index fun i => .update (hs.setChannel i ?_ ?_ ?_))
  · exact (hs.channels i).of_control rfl
  · exact ⟨(hs.anchored i).cycle, (hs.anchored i).phase⟩
  · exact ⟨(hs.armed i).event, (hs.armed i).deadline, (hs.armed i).pending⟩

theorem writeCounter_ensures (index : Nat) (value : BitVec 32) :
    Ensures (writeCounter index value) s (fun _ t => Settled t) Excused := by
  unfold writeCounter
  refine .bind (channel_ensures hs index fun i => .bind (.update ?_))
  refine (reschedule_ensures hs i ?_ ?_).mono (fun _ _ h => h.1) fun _ _ h => Or.inl h
  · exact (hs.channels i).of_control rfl
  · intro _
    exact ⟨hs.anchored_now rfl, (hs.armed i).event, (hs.armed i).deadline, (hs.armed i).pending⟩

theorem writeControl_ensures (index : Nat) (value : BitVec 16) :
    Ensures (writeControl index value) s (fun _ t => Settled t) Excused := by
  unfold writeControl
  refine .ite (fun _ => .throw (.inr hs)) ?_
  intro hsource
  rw [not_or] at hsource
  refine .bind (channel_ensures hs index fun i => ?_)
  refine .bind ((synchronize_ensures hs.toCore (hs.anchored i)).mono ?_ fun _ _ h => .inl h)
  intro _ t ht
  have hsettled := ht.settled hs
  obtain ⟨hbits, hlow⟩ := written_control (t.channels i).control value
  refine .bind (.update ?_)
  refine (reschedule_ensures hsettled i ⟨hbits, ?_, ?_⟩ ?_).mono (fun _ _ h => h.1)
    fun _ _ h => Or.inl h
  · rw [Channel.source, hlow]
    exact hsource.1
  · rw [Channel.source, hlow]
    exact hsource.2
  · -- The new source may count from the epoch, but a stopped channel counts from nothing.
    intro hstopped
    have harmed := hsettled.armed i
    refine ⟨⟨(hsettled.anchored i).cycle, ?_⟩, harmed.event, harmed.deadline, harmed.pending⟩
    intro hrunning
    rw [hstopped] at hrunning
    cases hrunning

theorem startChannel_ensures (channelMask : BitVec 8)
    (index : Fin 3) : Ensures (startChannel channelMask index) s (fun _ t => Settled t)
      (fun e _ => e.isOverflow = true) := by
  unfold startChannel
  refine .bind (.get (.ite (fun _ => .pure hs) ?_))
  intro hchange
  refine .ite ?_ ?_
  · intro hstop
    refine .bind ((synchronize_ensures hs.toCore (hs.anchored index)).mono ?_ fun _ _ h => h)
    intro _ t ht
    refine .bind (.update ?_)
    have hcore : Core (t.setChannel index { t.channels index with running := false }) :=
      ht.core.setChannel index ((ht.core.channels index).of_control rfl)
    refine (cancelEvent_ensures hcore index).mono ?_ fun _ _ h => h.elim
    rintro _ u ⟨hu, hbeside, hchannels⟩
    have hat : u.channels index =
        ({ t.channels index with running := false } : Channel).withoutEvent := by
      rw [hchannels, Function.update_self, Timers.setChannel_same]
    refine hs.replace index hu ((ht.beside.trans (.setChannel t index _)).trans hbeside)
      (fun i hi => ?_) ?_ ?_
    · rw [hchannels, Function.update_of_ne hi, Timers.setChannel_other _ _ hi, ht.others i hi]
    · rw [hat]
      refine hbeside.anchored ⟨ht.anchored.cycle, ?_⟩
      intro hrunning
      cases hrunning
    · rw [hat]
      exact ⟨rfl, rfl, rfl⟩
  · intro hstart
    refine .bind (.update ?_)
    have hcore : Core (s.setChannel index { s.channels index with running := true }) :=
      hs.toCore.setChannel index ((hs.channels index).of_control rfl)
    refine (scheduleUnderflow_ensures hcore index hs.epoch).mono ?_ fun _ _ h => h
    intro _ t ht
    refine ht.settled hs hcore ⟨rfl, rfl, rfl, rfl⟩ (fun i hi => Timers.setChannel_other _ _ hi) ?_
    rw [Timers.setChannel_same]

theorem writeStart_ensures (channelMask : BitVec 8) :
    Ensures (writeStart channelMask) s (fun _ t => Settled t) (fun e _ => e.isOverflow = true) :=
  .forM (fun _ => Settled) (fun index _ _ ht => startChannel_ensures ht channelMask index) _ hs

theorem readCounter_ensures (index : Nat) :
    Ensures (readCounter index) s (fun _ t => Settled t) Excused := by
  unfold readCounter
  refine .bind (channel_ensures hs index fun i => ?_)
  refine .bind ((synchronize_ensures hs.toCore (hs.anchored i)).mono ?_ fun _ _ h => .inl h)
  intro _ t ht
  exact .bind (.get (.pure (ht.settled hs)))

theorem resetChannel_ensures (index : Fin 3) :
    Ensures (resetChannel index) s (fun _ t => Settled t) (fun _ _ => False) := by
  unfold resetChannel
  refine .bind ((cancelEvent_ensures hs.toCore index).mono ?_ fun _ _ h => h)
  rintro _ t ⟨ht, hbeside, hchannels⟩
  refine .update (hs.replace index ?_ (hbeside.trans (.setChannel t index _)) ?_ ?_ ?_)
  · exact ht.setChannel index ⟨by decide, by decide, by decide⟩
  · intro i hi
    rw [Timers.setChannel_other _ _ hi, hchannels, Function.update_of_ne hi]
  · rw [Timers.setChannel_same]
    exact ⟨Nat.zero_le _, fun hrunning => by cases hrunning⟩
  · rw [Timers.setChannel_same]
    exact ⟨rfl, rfl, rfl⟩

theorem tmuReset_ensures :
    Ensures tmuReset s (fun _ t => Settled t) (fun _ _ => False) :=
  .forM (fun _ => Settled) (fun index _ _ ht => resetChannel_ensures ht index) _ hs

omit hs

/-! ## The phase reset -/

/-- The channels that a phase reset is about. -/
def Channel.counting (value : Channel) : Bool := value.running && value.usesRtcClock

/-- A channel between the two halves of a phase reset, or before and behind them: what it is
set to is kept, and a channel the reset is not about is kept whole. -/
structure Kept (s : Timers) (i : Fin 3) (t : Timers) : Prop where
  control : (t.channels i).control = (s.channels i).control
  running : (t.channels i).running = (s.channels i).running
  aside : (s.channels i).counting = false → t.channels i = s.channels i

theorem Kept.refl (s : Timers) (i : Fin 3) : Kept s i s := ⟨rfl, rfl, fun _ => rfl⟩

theorem Kept.counting {i : Fin 3} (h : Kept s i t) :
    (t.channels i).counting = (s.channels i).counting := by
  unfold Channel.counting Channel.usesRtcClock Channel.source
  rw [h.control, h.running]

theorem Kept.of_eq {u : Timers} {i : Fin 3} (h : Kept s i t)
    (heq : u.channels i = t.channels i) : Kept s i u :=
  ⟨by rw [heq, h.control], by rw [heq, h.running], fun haside => by rw [heq, h.aside haside]⟩

/-- A counting channel whose anchor the clock has passed counts from behind the epoch. -/
def Ready (s : Timers) (value : Channel) : Prop :=
  value.counting = true → value.anchorCycle.toNat ≤ s.scheduler.currentCycle →
    s.clock.epochCycle.toNat ≤ value.anchorCycle.toNat

theorem Anchored.ready (h : Anchored s value) : Ready s value := by
  intro hcounting _
  rw [Channel.counting, Bool.and_eq_true] at hcounting
  exact h.phase hcounting.1 hcounting.2

/-- The state while the channels are taken off the old phase. -/
structure Pausing (s t : Timers) : Prop where
  core : Core t
  beside : Beside s t
  kept : ∀ i, Kept s i t
  ready : ∀ i, Ready t (t.channels i)

theorem not_counting : (!value.running || !value.usesRtcClock) = true ↔ value.counting = false := by
  unfold Channel.counting
  cases value.running <;> cases value.usesRtcClock <;> simp

theorem Pausing.step {s t u : Timers} (h : Pausing s t) (index : Fin 3) (hcore : Core u)
    (hbeside : Beside t u) (hothers : ∀ i, i ≠ index → u.channels i = t.channels i)
    (hcounting : (t.channels index).counting = true)
    (hcontrol : (u.channels index).control = (t.channels index).control)
    (hrunning : (u.channels index).running = (t.channels index).running)
    (hready : Ready u (u.channels index)) : Pausing s u := by
  refine ⟨hcore, h.beside.trans hbeside, ?_, ?_⟩
  · intro i
    by_cases hi : i = index
    · subst hi
      refine ⟨hcontrol.trans (h.kept i).control, hrunning.trans (h.kept i).running, ?_⟩
      intro haside
      rw [← (h.kept i).counting, hcounting] at haside
      cases haside
    · exact (h.kept i).of_eq (hothers i hi)
  · intro i
    by_cases hi : i = index
    · rw [hi]
      exact hready
    · rw [hothers i hi]
      intro hcount hcycle
      rw [hbeside.clock]
      rw [hbeside.cycle] at hcycle
      exact h.ready i hcount hcycle

theorem beforePhaseReset_ensures (h : Pausing s t) (index : Fin 3) :
    Ensures (beforePhaseReset index) t (fun _ u => Pausing s u) (fun e _ => e.isOverflow = true) := by
  unfold beforePhaseReset
  refine .bind (.get (.ite (fun _ => .pure h) ?_))
  intro hcounting
  rw [not_counting, Bool.not_eq_false] at hcounting
  have hcancel : ∀ u, Pausing s u → (u.channels index).counting = true →
      Ensures (cancelEvent index) u (fun _ v => Pausing s v) (fun e _ => e.isOverflow = true) := by
    intro u hu hcounting
    refine (cancelEvent_ensures hu.core index).mono ?_ fun _ _ h => h.elim
    rintro _ v ⟨hv, hbeside, hchannels⟩
    have hat : v.channels index = (u.channels index).withoutEvent := by
      rw [hchannels, Function.update_self]
    refine hu.step index hv hbeside ?_ hcounting ?_ ?_ ?_
    · intro i hi
      rw [hchannels, Function.update_of_ne hi]
    · rw [hat]
      rfl
    · rw [hat]
      rfl
    · rw [hat]
      intro hcount hcycle
      rw [hbeside.clock]
      rw [hbeside.cycle] at hcycle
      exact hu.ready index hcount hcycle
  change Ensures (if t.scheduler.currentCycle ≥ (t.channels index).anchorCycle.toNat then
    synchronize index >>= fun _ => cancelEvent index else cancelEvent index) t _ _
  refine .ite ?_ ?_
  · intro hpassed
    have hanchored : Anchored t (t.channels index) :=
      ⟨hpassed, fun _ _ => h.ready index hcounting hpassed⟩
    refine .bind <| (synchronize_ensures h.core hanchored).mono ?_ fun _ _ h => h
    intro _ u hu
    have hkept : (u.channels index).counting = (t.channels index).counting := by
      unfold Channel.counting Channel.usesRtcClock Channel.source
      rw [hu.control, hu.running]
    refine hcancel u (h.step index hu.core hu.beside hu.others hcounting hu.control hu.running
      hu.anchored.ready) ?_
    rw [hkept]
    exact hcounting
  · intro _
    exact hcancel t h hcounting

/-- A channel that the phase reset is done with, or does not concern. -/
def Restarted (t : Timers) (value : Channel) : Prop :=
  value.counting = true → Anchored t value ∧ value.Armed

/-- The state while the channels are put on the new phase; `rest` are those still to come. -/
structure Resuming (s : Timers) (rest : List (Fin 3)) (t : Timers) : Prop where
  core : Core t
  beside : Beside s t
  epoch : s.clock.epochCycle.toNat ≤ s.scheduler.currentCycle
  kept : ∀ i, Kept s i t
  restarted : ∀ i, i ∉ rest → Restarted t (t.channels i)

theorem afterPhaseReset_ensures {rest : List (Fin 3)}
    (h : Resuming s (index :: rest) t) (guestCycle : BitVec 64) :
    Ensures (afterPhaseReset guestCycle index) t (fun _ u => Resuming s rest u)
      (fun e _ => e.isOverflow = true) := by
  unfold afterPhaseReset
  refine .bind (.get (.ite ?_ ?_))
  · intro hcounting
    rw [not_counting] at hcounting
    refine .pure { h with restarted := ?_ }
    intro i hi
    by_cases hindex : i = index
    · intro hcount
      rw [hindex, hcounting] at hcount
      cases hcount
    · exact h.restarted i (by simp [hindex, hi])
  intro hcounting
  rw [not_counting, Bool.not_eq_false] at hcounting
  have hrunning : (t.channels index).running = true := by
    rw [Channel.counting, Bool.and_eq_true] at hcounting
    exact hcounting.1
  have hepoch : t.clock.epochCycle.toNat ≤ t.scheduler.currentCycle := by
    rw [h.beside.clock, h.beside.cycle]
    exact h.epoch
  refine .bind (.update ?_)
  have hcore : Core (t.setChannel index { t.channels index with
      anchorCycle := guestCycle, anchorCounter := (t.channels index).counter }) :=
    h.core.setChannel index ((h.core.channels index).of_control rfl)
  refine (scheduleUnderflow_ensures hcore index hepoch).mono ?_ fun _ _ h => h
  intro _ u hu
  have hothers : ∀ i, i ≠ index → u.channels i = t.channels i := by
    intro i hi
    rw [hu.others i hi, Timers.setChannel_other _ _ hi]
  have hbeside : Beside t u := (Beside.setChannel t index _).trans hu.beside
  refine ⟨hu.core, h.beside.trans hbeside, h.epoch, ?_, ?_⟩
  · intro i
    by_cases hi : i = index
    · subst hi
      refine ⟨?_, ?_, ?_⟩
      · rw [hu.control, Timers.setChannel_same, (h.kept i).control]
      · rw [hu.running, Timers.setChannel_same, (h.kept i).running]
      · intro haside
        rw [← (h.kept i).counting, hcounting] at haside
        cases haside
    · exact (h.kept i).of_eq (hothers i hi)
  · intro i hi
    by_cases hindex : i = index
    · subst hindex
      intro _
      refine ⟨hu.anchored hcore hepoch, hu.armed ?_⟩
      rw [Timers.setChannel_same]
      exact hrunning
    · rw [hothers i hindex]
      intro hcount
      obtain ⟨hanchored, harmed⟩ := h.restarted i (by simp [hindex, hi]) hcount
      exact ⟨hbeside.anchored hanchored, harmed⟩

/-- What a phase reset leaves: the counting channels start anew, the others are as before. -/
structure PhaseReset (s : Timers) (guestCycle : BitVec 64) (t : Timers) : Prop where
  core : Core t
  cycle : t.scheduler.currentCycle = s.scheduler.currentCycle
  phase : t.phase = s.phase
  rtc : t.rtc = s.rtc
  clock : t.clock = { s.clock with epochCycle := guestCycle }
  kept : ∀ i, Kept s i t
  restarted : ∀ i, Restarted t (t.channels i)

variable {guestCycle : BitVec 64}

theorem resetPhase_ensures (hs : Core s)
    (hcycle : guestCycle.toNat ≤ s.scheduler.currentCycle) (hready : ∀ i, Ready s (s.channels i)) :
    Ensures (resetPhase guestCycle) s (fun _ t => PhaseReset s guestCycle t)
      (fun e _ => e.isOverflow = true) := by
  unfold resetPhase
  have hpause := Ensures.forM (fun _ => Pausing s)
    (fun index _ _ ht => beforePhaseReset_ensures ht index) channelIndices
    (show Pausing s s from ⟨hs, .refl s, .refl s, hready⟩)
  refine .bind (hpause.mono ?_ fun _ _ h => h)
  intro _ t ht
  refine .bind (.update ?_)
  have hstart : Resuming { t with clock := { t.clock with epochCycle := guestCycle } } channelIndices
      { t with clock := { t.clock with epochCycle := guestCycle } } := by
    refine ⟨{ ht.core with }, .refl _, ?_, .refl _, ?_⟩
    · change guestCycle.toNat ≤ t.scheduler.currentCycle
      rw [ht.beside.cycle]
      exact hcycle
    · intro i hi
      exact absurd (List.mem_finRange i) hi
  have hresume := Ensures.forM (fun rest => Resuming _ rest)
    (fun index rest u hu => afterPhaseReset_ensures hu guestCycle) channelIndices hstart
  refine hresume.mono ?_ fun _ _ h => h
  intro _ u hu
  refine ⟨hu.core, hu.beside.cycle.trans ht.beside.cycle, hu.beside.phase.trans ht.beside.phase,
    hu.beside.rtc.trans ht.beside.rtc, ?_, ?_, fun i => hu.restarted i (by simp)⟩
  · rw [hu.beside.clock, ← ht.beside.clock]
  · intro i
    have hfirst := ht.kept i
    have hsecond := hu.kept i
    refine ⟨hsecond.control.trans hfirst.control, hsecond.running.trans hfirst.running, ?_⟩
    intro haside
    rw [hsecond.aside (by rw [← hfirst.counting] at haside; exact haside), ← hfirst.aside haside]

/-- On settled channels a phase reset leaves settled channels. -/
theorem PhaseReset.settled (h : PhaseReset s guestCycle t)
    (hs : ∀ i, Anchored s (s.channels i) ∧ (s.channels i).Armed)
    (hcycle : guestCycle.toNat ≤ s.scheduler.currentCycle) : ChannelsSettled t := by
  have hchannel : ∀ i, Anchored t (t.channels i) ∧ (t.channels i).Armed := by
    intro i
    cases hcounting : (s.channels i).counting with
    | true => exact h.restarted i (by rw [(h.kept i).counting, hcounting])
    | false =>
      obtain ⟨hanchored, harmed⟩ := hs i
      rw [(h.kept i).aside hcounting]
      refine ⟨⟨?_, ?_⟩, harmed⟩
      · rw [h.cycle]
        exact hanchored.cycle
      · intro hrunning hrtc
        rw [Channel.counting, hrunning, hrtc] at hcounting
        cases hcounting
  refine { h.core with
    epoch := ?_, anchored := fun i => (hchannel i).1, armed := fun i => (hchannel i).2 }
  rw [h.clock, h.cycle]
  exact hcycle

end KatanaRecomp.Runtime.Timer
