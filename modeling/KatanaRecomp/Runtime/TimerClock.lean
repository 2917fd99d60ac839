import KatanaRecomp.Runtime.Timers

/-! # The conversions of the clock domain

With exact arithmetic the tick index of a cycle is `(cycle - epoch) * 16384 / g`
rounded down, and the cycle of a tick is `epoch + tick * g / 16384` rounded up.
The code computes both in 64 bits by splitting off whole seconds, and throws
where a product or a sum does not fit. -/
namespace KatanaRecomp.Runtime.Timer
open Lib

/-- The errors a computation raises because a 64-bit number is exhausted. -/
def TimerError.isOverflow : TimerError → Bool
  | .tickIndexOverflow | .tickPhaseOverflow | .phaseDeadlineOverflow | .targetTickOverflow => true
  | .eventDeadlineOverflow => true
  | .scheduler .eventIdOverflow => true
  | _ => false

variable {e : TimerError} {left right : Nat}

theorem checkedAdd_ok {v : Nat} (hleft : left ≤ Scheduler.uint64Max)
    (h : checkedAdd left right e = .ok v) : v = left + right ∧ v ≤ Scheduler.uint64Max := by
  unfold checkedAdd at h
  split at h
  · cases h
  · cases h
    exact ⟨rfl, by omega⟩

theorem checkedAdd_error {e' : TimerError} (h : checkedAdd left right e = .error e') : e' = e := by
  unfold checkedAdd at h
  split at h <;> cases h
  rfl

theorem checkedMultiply_ok {v : Nat}
    (h : checkedMultiply left right e = .ok v) : v = left * right ∧ v ≤ Scheduler.uint64Max := by
  unfold checkedMultiply at h
  split at h
  · cases h
  · rename_i hfits
    cases h
    refine ⟨rfl, ?_⟩
    rcases Nat.eq_zero_or_pos right with hzero | hpos
    · simp [hzero]
    · have hle : left ≤ Scheduler.uint64Max / right := by
        by_contra hlt
        exact hfits ⟨hpos.ne', by omega⟩
      exact (Nat.mul_le_mul_right right hle).trans (Nat.div_mul_le_self _ _)

theorem checkedMultiply_error {e' : TimerError}
    (h : checkedMultiply left right e = .error e') : e' = e := by
  unfold checkedMultiply at h
  split at h <;> cases h
  rfl

/-- Whole seconds and the rest of a second are converted apart without loss. -/
theorem split_div (elapsed frequency ticks : Nat) (hfrequency : 0 < frequency) :
    elapsed / frequency * ticks + elapsed % frequency * ticks / frequency =
      elapsed * ticks / frequency := by
  have hsplit : elapsed * ticks =
      elapsed % frequency * ticks + frequency * (elapsed / frequency * ticks) := by
    conv_lhs => rw [← Nat.mod_add_div elapsed frequency]
    ring
  rw [hsplit, Nat.add_mul_div_left _ _ hfrequency, Nat.add_comm]

namespace Sh4RtcClockDomain
variable {clock : Sh4RtcClockDomain}

variable {cycle : Nat}

theorem ticksAt_ok {t : Nat} (hfrequency : 0 < clock.guestCyclesPerSecond.toNat)
    (h : clock.ticksAt cycle = .ok t) : clock.epochCycle.toNat ≤ cycle ∧
      t = (cycle - clock.epochCycle.toNat) * sourceFrequencyHz / clock.guestCyclesPerSecond.toNat ∧
      t ≤ Scheduler.uint64Max := by
  unfold ticksAt at h
  split at h
  · cases h
  · rename_i hepoch
    obtain ⟨seconds, hseconds, h⟩ := bind_eq_ok h
    obtain ⟨phase, hphase, h⟩ := bind_eq_ok h
    obtain ⟨rfl, hfits⟩ := checkedMultiply_ok hseconds
    obtain ⟨rfl, -⟩ := checkedMultiply_ok hphase
    obtain ⟨rfl, hle⟩ := checkedAdd_ok hfits h
    exact ⟨by omega, split_div _ _ _ hfrequency, hle⟩

theorem ticksAt_error (hepoch : clock.epochCycle.toNat ≤ cycle)
    (h : clock.ticksAt cycle = .error e) : e.isOverflow = true := by
  unfold ticksAt at h
  rw [if_neg (by omega)] at h
  rcases bind_eq_error h with h | ⟨seconds, -, h⟩
  · rw [checkedMultiply_error h]
    rfl
  rcases bind_eq_error h with h | ⟨phase, -, h⟩
  · rw [checkedMultiply_error h]
    rfl
  · rw [checkedAdd_error h]
    rfl

/-- The result is the least cycle from the epoch on whose tick index reaches `tick`. -/
theorem cycleAtOrAfterTick_ok {tick d : Nat} (h : clock.cycleAtOrAfterTick tick = .ok d) :
    ∃ relative, d = clock.epochCycle.toNat + relative ∧ d ≤ Scheduler.uint64Max ∧
      tick * clock.guestCyclesPerSecond.toNat ≤ relative * sourceFrequencyHz ∧
      relative * sourceFrequencyHz <
        tick * clock.guestCyclesPerSecond.toNat + sourceFrequencyHz := by
  unfold cycleAtOrAfterTick at h
  obtain ⟨product, hproduct, h⟩ := bind_eq_ok h
  obtain ⟨seconds, hseconds, h⟩ := bind_eq_ok h
  obtain ⟨relative, hrelative, h⟩ := bind_eq_ok h
  obtain ⟨hproduct, -⟩ := checkedMultiply_ok hproduct
  obtain ⟨hseconds, hfits⟩ := checkedMultiply_ok hseconds
  obtain ⟨hrelative, -⟩ := checkedAdd_ok hfits hrelative
  have hepoch : clock.epochCycle.toNat ≤ Scheduler.uint64Max := by
    have := clock.epochCycle.isLt
    unfold Scheduler.uint64Max
    omega
  obtain ⟨hd, hle⟩ := checkedAdd_ok hepoch h
  refine ⟨relative, hd, hle, ?_⟩
  have hsplit : tick * clock.guestCyclesPerSecond.toNat = sourceFrequencyHz * seconds + product := by
    conv_lhs => rw [← Nat.div_add_mod tick sourceFrequencyHz]
    rw [hseconds, hproduct]
    ring
  have hround := Nat.div_add_mod product sourceFrequencyHz
  have hmod := Nat.mod_lt product (show 0 < sourceFrequencyHz by decide)
  unfold sourceFrequencyHz at *
  split at hrelative <;> omega

theorem cycleAtOrAfterTick_error {tick : Nat}
    (h : clock.cycleAtOrAfterTick tick = .error e) : e.isOverflow = true := by
  unfold cycleAtOrAfterTick at h
  rcases bind_eq_error h with h | ⟨product, -, h⟩
  · rw [checkedMultiply_error h]
    rfl
  rcases bind_eq_error h with h | ⟨seconds, -, h⟩
  · rw [checkedMultiply_error h]
    rfl
  rcases bind_eq_error h with h | ⟨relative, -, h⟩
  · rw [checkedAdd_error h]
    rfl
  · rw [checkedAdd_error h]
    rfl

/-- A deadline some ticks ahead lies behind the cycle it is counted from. -/
theorem deadlineAfter_ok {ticks d : Nat} (hfrequency : 0 < clock.guestCyclesPerSecond.toNat)
    (hticks : 0 < ticks) (h : clock.deadlineAfter cycle ticks = .ok d) :
    cycle ≤ d ∧ d ≤ Scheduler.uint64Max := by
  unfold deadlineAfter at h
  rw [if_neg hticks.ne'] at h
  obtain ⟨now, hnow, h⟩ := bind_eq_ok h
  obtain ⟨target, htarget, h⟩ := bind_eq_ok h
  obtain ⟨hepoch, hnow, hfits⟩ := ticksAt_ok hfrequency hnow
  obtain ⟨htarget, -⟩ := checkedAdd_ok hfits htarget
  obtain ⟨relative, hd, hle, hlower, -⟩ := cycleAtOrAfterTick_ok h
  refine ⟨?_, hle⟩
  have hbelow : (cycle - clock.epochCycle.toNat) * sourceFrequencyHz <
      relative * sourceFrequencyHz := by
    calc (cycle - clock.epochCycle.toNat) * sourceFrequencyHz
        < clock.guestCyclesPerSecond.toNat * (now + 1) := by
          rw [hnow]
          exact Nat.lt_mul_div_succ _ hfrequency
      _ ≤ target * clock.guestCyclesPerSecond.toNat := by
          rw [Nat.mul_comm, htarget]
          exact Nat.mul_le_mul_right _ (by omega)
      _ ≤ relative * sourceFrequencyHz := hlower
  have hlt := Nat.lt_of_mul_lt_mul_right hbelow
  omega

theorem deadlineAfter_error {ticks : Nat}
    (hepoch : clock.epochCycle.toNat ≤ cycle) (h : clock.deadlineAfter cycle ticks = .error e) :
    e.isOverflow = true := by
  unfold deadlineAfter at h
  split at h
  · cases h
  rcases bind_eq_error h with h | ⟨now, -, h⟩
  · exact ticksAt_error hepoch h
  rcases bind_eq_error h with h | ⟨target, -, h⟩
  · rw [checkedAdd_error h]
    rfl
  · exact cycleAtOrAfterTick_error h

/-- The cycle at which the last whole tick up to `last` was reached is not behind `last`, and it is
the least from which on the clock has the ticks of `last`. -/
theorem deadlineAfter_elapsed {first last ticks d : Nat}
    (hfrequency : 0 < clock.guestCyclesPerSecond.toNat) (hticks : ticks ≠ 0)
    (helapsed : clock.elapsedTicks first last = .ok ticks)
    (h : clock.deadlineAfter first ticks = .ok d) :
    clock.epochCycle.toNat ≤ d ∧ d ≤ last ∧ ∃ target relative,
      clock.ticksAt first = .ok (target - ticks) ∧ clock.ticksAt last = .ok target ∧
      ticks ≤ target ∧ d = clock.epochCycle.toNat + relative ∧
      target * clock.guestCyclesPerSecond.toNat ≤ relative * sourceFrequencyHz ∧
      relative * sourceFrequencyHz <
        target * clock.guestCyclesPerSecond.toNat + sourceFrequencyHz := by
  unfold elapsedTicks at helapsed
  split at helapsed
  · cases helapsed
  obtain ⟨tickLast, hlast, helapsed⟩ := bind_eq_ok helapsed
  obtain ⟨tickFirst, hfirst, helapsed⟩ := bind_eq_ok helapsed
  cases helapsed
  unfold deadlineAfter at h
  rw [if_neg hticks, hfirst] at h
  obtain ⟨now, hnow, h⟩ := bind_eq_ok h
  cases hnow
  obtain ⟨target, htarget, h⟩ := bind_eq_ok h
  obtain ⟨-, -, hfits⟩ := ticksAt_ok hfrequency hfirst
  obtain ⟨hepoch, hindex, -⟩ := ticksAt_ok hfrequency hlast
  obtain ⟨htarget, -⟩ := checkedAdd_ok hfits htarget
  obtain ⟨relative, hd, -, hlower, hupper⟩ := cycleAtOrAfterTick_ok h
  have hreached : target = tickLast := by omega
  have hfloor : tickLast * clock.guestCyclesPerSecond.toNat ≤
      (last - clock.epochCycle.toNat) * sourceFrequencyHz := by
    rw [hindex]
    exact Nat.div_mul_le_self _ _
  have hbelow : relative * sourceFrequencyHz <
      (last - clock.epochCycle.toNat + 1) * sourceFrequencyHz := by
    calc relative * sourceFrequencyHz
        < target * clock.guestCyclesPerSecond.toNat + sourceFrequencyHz := hupper
      _ ≤ (last - clock.epochCycle.toNat) * sourceFrequencyHz + sourceFrequencyHz := by
          rw [hreached]
          exact Nat.add_le_add_right hfloor _
      _ = (last - clock.epochCycle.toNat + 1) * sourceFrequencyHz := by ring
  have hlt := Nat.lt_of_mul_lt_mul_right hbelow
  refine ⟨by omega, by omega, target, relative, ?_, hreached ▸ hlast, by omega, hd, hlower, hupper⟩
  rw [hfirst]
  congr 1
  omega

theorem elapsedTicks_error {first last : Nat}
    (hepoch : clock.epochCycle.toNat ≤ first) (horder : first ≤ last)
    (h : clock.elapsedTicks first last = .error e) : e.isOverflow = true := by
  unfold elapsedTicks at h
  rw [if_neg (by omega)] at h
  rcases bind_eq_error h with h | ⟨_, -, h⟩
  · exact ticksAt_error (hepoch.trans horder) h
  rcases bind_eq_error h with h | ⟨_, -, h⟩
  · exact ticksAt_error hepoch h
  · cases h

end Sh4RtcClockDomain
end KatanaRecomp.Runtime.Timer
