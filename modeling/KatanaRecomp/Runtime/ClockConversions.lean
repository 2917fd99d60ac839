import KatanaRecomp.Runtime.TimerClock

/-! # The two conversions of the clock domain against each other

`ticks_at` and `cycle_at_or_after_tick` are the floor and the ceiling of the same
rational rate, so each decides the other's inequality. Where the index of a cycle
does not fit into 64 bits `ticks_at` throws; nothing else can wrap. -/
namespace KatanaRecomp.Runtime.Timer
open Lib
namespace Sh4RtcClockDomain
variable {clock : Sh4RtcClockDomain}

/-- What the constructor admits. -/
structure Admitted (clock : Sh4RtcClockDomain) : Prop where
  positive : 0 < clock.guestCyclesPerSecond.toNat
  bounded : clock.guestCyclesPerSecond.toNat * sourceFrequencyHz ≤ Scheduler.uint64Max

theorem create_admitted {frequency : BitVec 64} (h : create frequency = .ok clock) :
    clock.guestCyclesPerSecond = frequency ∧ clock.Admitted := by
  unfold create at h
  split at h
  · cases h
  rename_i hrange
  obtain ⟨hnonzero, hbelow⟩ := not_or.mp hrange
  cases h
  refine ⟨rfl, Nat.pos_of_ne_zero fun hzero => hnonzero ?_, ?_⟩
  · exact BitVec.eq_of_toNat_eq (by simpa using hzero)
  · exact (Nat.mul_le_mul_right _ (Nat.not_lt.mp hbelow)).trans (Nat.div_mul_le_self _ _)

/-- The exact tick index of a cycle. -/
def tickIndex (clock : Sh4RtcClockDomain) (cycle : Nat) : Nat :=
  (cycle - clock.epochCycle.toNat) * sourceFrequencyHz / clock.guestCyclesPerSecond.toNat

theorem tickIndex_mono (clock : Sh4RtcClockDomain) {cycle later : Nat} (h : cycle ≤ later) :
    clock.tickIndex cycle ≤ clock.tickIndex later :=
  Nat.div_le_div_right (Nat.mul_le_mul_right _ (Nat.sub_le_sub_right h _))

variable {left right : Nat} {e : TimerError}

theorem checkedMultiply_of_le
    (h : left * right ≤ Scheduler.uint64Max) : checkedMultiply left right e = .ok (left * right) := by
  unfold checkedMultiply
  rw [if_neg]
  intro hpast
  exact absurd ((Nat.le_div_iff_mul_le (Nat.pos_of_ne_zero hpast.1)).mpr h) (by omega)

theorem checkedMultiply_of_gt
    (h : Scheduler.uint64Max < left * right) : checkedMultiply left right e = .error e := by
  unfold checkedMultiply
  have hright : right ≠ 0 := by
    intro hzero
    simp [hzero] at h
  have hpast : left > Scheduler.uint64Max / right :=
    (Nat.div_lt_iff_lt_mul (Nat.pos_of_ne_zero hright)).mpr h
  rw [if_pos ⟨hright, hpast⟩]

theorem checkedAdd_of_le
    (h : left + right ≤ Scheduler.uint64Max) : checkedAdd left right e = .ok (left + right) := by
  unfold checkedAdd
  rw [if_neg (by omega)]

theorem checkedAdd_of_gt (hleft : left ≤ Scheduler.uint64Max)
    (h : Scheduler.uint64Max < left + right) : checkedAdd left right e = .error e := by
  unfold checkedAdd
  rw [if_pos (by omega)]

/-- `ticks_at` is the exact index, or throws because that does not fit. -/
theorem ticksAt_eq (hclock : clock.Admitted) {cycle : Nat} (hepoch : clock.epochCycle.toNat ≤ cycle) :
    clock.ticksAt cycle =
      if clock.tickIndex cycle ≤ Scheduler.uint64Max then .ok (clock.tickIndex cycle)
      else .error .tickIndexOverflow := by
  have hpositive := hclock.positive
  have hsplit := split_div (cycle - clock.epochCycle.toNat) clock.guestCyclesPerSecond.toNat
    sourceFrequencyHz hpositive
  have hindex : clock.tickIndex cycle = (cycle - clock.epochCycle.toNat) * sourceFrequencyHz /
    clock.guestCyclesPerSecond.toNat := rfl
  have hremainder := Nat.mod_lt (cycle - clock.epochCycle.toNat) hpositive
  have hphase : (cycle - clock.epochCycle.toNat) % clock.guestCyclesPerSecond.toNat *
      sourceFrequencyHz ≤ Scheduler.uint64Max :=
    (Nat.mul_le_mul_right _ hremainder.le).trans hclock.bounded
  rw [← hindex] at hsplit
  unfold ticksAt
  rw [if_neg (Nat.not_lt.mpr hepoch)]
  dsimp only
  rw [checkedMultiply_of_le hphase]
  by_cases hseconds : (cycle - clock.epochCycle.toNat) / clock.guestCyclesPerSecond.toNat *
      sourceFrequencyHz ≤ Scheduler.uint64Max
  · rw [checkedMultiply_of_le hseconds]
    by_cases hfits : clock.tickIndex cycle ≤ Scheduler.uint64Max
    · rw [if_pos hfits]
      exact (checkedAdd_of_le (hsplit ▸ hfits)).trans (congrArg Except.ok hsplit)
    · rw [if_neg hfits]
      exact checkedAdd_of_gt hseconds (by rw [hsplit]; omega)
  · have hpast : Scheduler.uint64Max < clock.tickIndex cycle := by
      rw [← hsplit]
      exact (Nat.lt_of_not_le hseconds).trans_le (Nat.le_add_right _ _)
    rw [checkedMultiply_of_gt (Nat.lt_of_not_le hseconds), if_neg (Nat.not_le.mpr hpast)]
    rfl

/-- The ceiling of a tick against the floor of a cycle. -/
theorem le_tickIndex_iff (hclock : clock.Admitted) {tick relative cycle : Nat}
    (hlower : tick * clock.guestCyclesPerSecond.toNat ≤ relative * sourceFrequencyHz)
    (hupper : relative * sourceFrequencyHz <
      tick * clock.guestCyclesPerSecond.toNat + sourceFrequencyHz) :
    tick ≤ clock.tickIndex cycle ↔ relative ≤ cycle - clock.epochCycle.toNat := by
  unfold tickIndex
  rw [Nat.le_div_iff_mul_le hclock.positive]
  constructor
  · intro hreached
    by_contra hshort
    have hnext : (cycle - clock.epochCycle.toNat + 1) * sourceFrequencyHz ≤
      relative * sourceFrequencyHz := Nat.mul_le_mul_right _ (by omega)
    rw [Nat.add_mul, Nat.one_mul] at hnext
    omega
  · intro hle
    exact hlower.trans (Nat.mul_le_mul_right _ hle)

/-- A Galois pair, with the one exception of an index past 64 bits. -/
theorem conversions_galois {frequency : BitVec 64} (h : create frequency = .ok clock)
    (epoch : BitVec 64) : (∀ cycle, epoch.toNat ≤ cycle →
        ({ clock with epochCycle := epoch } : Sh4RtcClockDomain).ticksAt cycle =
          if (cycle - epoch.toNat) * sourceFrequencyHz / frequency.toNat ≤ Scheduler.uint64Max then
            .ok ((cycle - epoch.toNat) * sourceFrequencyHz / frequency.toNat)
          else .error .tickIndexOverflow) ∧
      (∀ cycle later tick tick', cycle ≤ later →
        ({ clock with epochCycle := epoch } : Sh4RtcClockDomain).ticksAt cycle = .ok tick →
        ({ clock with epochCycle := epoch } : Sh4RtcClockDomain).ticksAt later = .ok tick' →
          tick ≤ tick') ∧ ∀ tick ≤ Scheduler.uint64Max, ∀ cycle,
        ({ clock with epochCycle := epoch } : Sh4RtcClockDomain).cycleAtOrAfterTick tick =
            .ok cycle → epoch.toNat ≤ cycle ∧ cycle ≤ Scheduler.uint64Max ∧
            tick ≤ (cycle - epoch.toNat) * sourceFrequencyHz / frequency.toNat ∧
            (∀ earlier, epoch.toNat ≤ earlier → earlier < cycle →
              ∃ tick', ({ clock with epochCycle := epoch } : Sh4RtcClockDomain).ticksAt earlier =
                .ok tick' ∧ tick' < tick) ∧
            tick % sourceFrequencyHz * frequency.toNat ≤ Scheduler.uint64Max ∧
            tick / sourceFrequencyHz * frequency.toNat ≤ Scheduler.uint64Max ∧
            (cycle - epoch.toNat) % frequency.toNat * sourceFrequencyHz ≤ Scheduler.uint64Max := by
  obtain ⟨hfrequency, hadmitted⟩ := create_admitted h
  have hclock : Admitted { clock with epochCycle := epoch } :=
    ⟨hadmitted.positive, hadmitted.bounded⟩
  refine ⟨fun cycle hepoch => hfrequency ▸ ticksAt_eq hclock hepoch,
    fun cycle later tick tick' hle htick htick' => ?_, fun tick hmax cycle hcycle => ?_⟩
  · obtain ⟨-, rfl, -⟩ := ticksAt_ok hclock.positive htick
    obtain ⟨-, rfl, -⟩ := ticksAt_ok hclock.positive htick'
    exact tickIndex_mono { clock with epochCycle := epoch } hle
  · obtain ⟨relative, rfl, hle, hlower, hupper⟩ := cycleAtOrAfterTick_ok hcycle
    have hiff := fun cycle => @le_tickIndex_iff _ hclock tick relative cycle hlower hupper
    have hepoch : epoch.toNat ≤ epoch.toNat + relative := Nat.le_add_right _ _
    have hreached := (hiff (epoch.toNat + relative)).mpr (by
      change relative ≤ epoch.toNat + relative - epoch.toNat
      omega)
    refine ⟨hepoch, hle, hfrequency ▸ hreached, fun earlier hearlier hlt => ?_,
      ?_, ?_, ?_⟩
    · have hbelow : ¬tick ≤ tickIndex { clock with epochCycle := epoch } earlier := by
        rw [hiff]
        change ¬relative ≤ earlier - epoch.toNat
        change earlier < epoch.toNat + relative at hlt
        omega
      refine ⟨_, (ticksAt_eq hclock hearlier).trans (if_pos (by omega)), by omega⟩
    · unfold cycleAtOrAfterTick at hcycle
      obtain ⟨product, hproduct, -⟩ := bind_eq_ok hcycle
      obtain ⟨rfl, hproduct⟩ := checkedMultiply_ok hproduct
      exact hfrequency ▸ hproduct
    · unfold cycleAtOrAfterTick at hcycle
      obtain ⟨product, -, hcycle⟩ := bind_eq_ok hcycle
      obtain ⟨seconds, hseconds, -⟩ := bind_eq_ok hcycle
      obtain ⟨rfl, hseconds⟩ := checkedMultiply_ok hseconds
      exact hfrequency ▸ hseconds
    · have hmod := Nat.mod_lt (epoch.toNat + relative - epoch.toNat) hadmitted.positive
      rw [← hfrequency]
      exact (Nat.mul_le_mul_right _ hmod.le).trans hadmitted.bounded

/-- The console's rate: a tick of the third second. -/
theorem conversions_galois_console : ∃ clock, create 200000000 = .ok clock ∧
    ({ clock with epochCycle := 1000 } : Sh4RtcClockDomain).cycleAtOrAfterTick 40000 =
      .ok 488282250 ∧ ∀ earlier, 1000 ≤ earlier → earlier < 488282250 → ∃ tick,
        ({ clock with epochCycle := 1000 } : Sh4RtcClockDomain).ticksAt earlier = .ok tick ∧
          tick < 40000 := by
  have hcreate : create 200000000 = .ok { guestCyclesPerSecond := 200000000 } := by
    unfold create
    rw [if_neg (by decide +kernel)]
  have hcycle : ({ guestCyclesPerSecond := 200000000, epochCycle := 1000 } :
      Sh4RtcClockDomain).cycleAtOrAfterTick 40000 = .ok 488282250 := by
    rfl
  obtain ⟨-, -, hleast⟩ := conversions_galois hcreate 1000
  exact ⟨_, hcreate, hcycle, (hleast 40000 (by decide +kernel) 488282250 hcycle).2.2.2.1⟩

/-- At one cycle a second the cycle of the last tick has an index past 64 bits. -/
theorem slow_clock_past_index : ¬∀ frequency clock, create frequency = .ok clock →
    ∀ tick ≤ Scheduler.uint64Max, ∀ cycle, clock.cycleAtOrAfterTick tick = .ok cycle →
      ∃ tick', clock.ticksAt cycle = .ok tick' ∧ tick ≤ tick' := by
  intro h
  have hcreate : create 1 = .ok { guestCyclesPerSecond := 1 } := by
    unfold create
    rw [if_neg (by decide +kernel)]
  have hcycle : (({ guestCyclesPerSecond := 1 } : Sh4RtcClockDomain).cycleAtOrAfterTick
      Scheduler.uint64Max).toOption = some (2 ^ 50) := by decide +kernel
  have hthrows : (({ guestCyclesPerSecond := 1 } : Sh4RtcClockDomain).ticksAt (2 ^ 50)).toOption =
    none := by decide +kernel
  cases hresult : ({ guestCyclesPerSecond := 1 } : Sh4RtcClockDomain).cycleAtOrAfterTick
      Scheduler.uint64Max with
  | error e =>
    rw [hresult] at hcycle
    cases hcycle
  | ok cycle =>
    rw [hresult] at hcycle
    obtain rfl : cycle = 2 ^ 50 := Option.some.inj hcycle
    obtain ⟨tick', htick, -⟩ := h 1 _ hcreate _ le_rfl _ hresult
    rw [htick] at hthrows
    cases hthrows

end Sh4RtcClockDomain
end KatanaRecomp.Runtime.Timer
