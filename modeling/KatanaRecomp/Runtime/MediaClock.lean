import KatanaRecomp.Lib.StateExcept

/-! # The media clock

`DreamcastMediaClock` turns a rate (cycles, units a tick and units a second) into
a cadence: whole cycles between two ticks and a remainder that it carries as a
phase. Over any number of ticks the deadlines are the exact ones rounded down, and
the words of 64 bits hold everything on the way. -/
namespace KatanaRecomp.Runtime.Media
open Lib

inductive MediaClockError
  | cadenceOverflow | deadlineOverflow | rateIsZero | belowOneCycle | bufferIsZero

abbrev Word64 := BitVec 64

def maximum : Word64 := BitVec.allOnes 64

def checkedMultiply (left right : Word64) : Except MediaClockError Word64 :=
  if right ≠ 0 ∧ left > maximum / right then .error .cadenceOverflow else .ok (left * right)

def checkedAdd (left right : Word64) : Except MediaClockError Word64 :=
  if right > maximum - left then .error .deadlineOverflow else .ok (left + right)

structure Cadence where
  baseInterval : Word64 := 0
  remainder : Word64 := 0
  denominator : Word64 := 1
  phase : Word64 := 0
  deadline : Word64 := 0

def makeCadence (cyclesPerSecond unitsPerTick unitsPerSecond : Word64) :
    Except MediaClockError Cadence :=
  if cyclesPerSecond = 0 ∨ unitsPerTick = 0 ∨ unitsPerSecond = 0 then .error .rateIsZero
  else do
    let whole := cyclesPerSecond / unitsPerSecond
    let fractional := cyclesPerSecond % unitsPerSecond
    let fractionalProduct ← checkedMultiply fractional unitsPerTick
    let wholeProduct ← checkedMultiply whole unitsPerTick
    let base ← checkedAdd wholeProduct (fractionalProduct / unitsPerSecond)
    let remainder := fractionalProduct % unitsPerSecond
    if base = 0 then .error .belowOneCycle
    else pure { baseInterval := base, remainder, denominator := unitsPerSecond }

/-- `advance_deadline`: the next deadline stands in the cadence that it leaves. -/
def Cadence.advanceDeadline (cadence : Cadence) : Except MediaClockError Cadence := do
  let threshold := cadence.denominator - cadence.remainder
  let carries : Bool := cadence.remainder ≠ 0 ∧ cadence.phase ≥ threshold
  let phase :=
    if cadence.remainder = 0 then cadence.phase
    else if carries then cadence.phase - threshold
    else cadence.phase + cadence.remainder
  let interval ←
    if carries then checkedAdd cadence.baseInterval 1 else .ok cadence.baseInterval
  let deadline ← checkedAdd cadence.deadline interval
  pure { cadence with phase, deadline }

structure MediaClockConfig where
  guestCyclesPerSecond : Word64
  frameRate : BitVec 32 := 60
  audioSampleRate : BitVec 32 := 44100
  audioFramesPerBuffer : BitVec 32 := 735

structure DreamcastMediaClock where
  config : MediaClockConfig
  videoCadence : Cadence
  audioCadence : Cadence

def DreamcastMediaClock.create (config : MediaClockConfig) :
    Except MediaClockError DreamcastMediaClock := do
  let videoCadence ← makeCadence config.guestCyclesPerSecond 1 (config.frameRate.setWidth 64)
  let audioCadence ← makeCadence config.guestCyclesPerSecond
    (config.audioFramesPerBuffer.setWidth 64) (config.audioSampleRate.setWidth 64)
  if config.audioFramesPerBuffer = 0 then .error .bufferIsZero
  else .ok { config, videoCadence, audioCadence }

/-- What `start` and `reset` do to a cadence. -/
def Cadence.startedAt (cadence : Cadence) (currentCycle : Word64) : Cadence :=
  { cadence with phase := 0, deadline := currentCycle }

/-- The cadence that scheduled the given tick after the start: `start` schedules the
first one, and each tick that is handled the next one. -/
def Cadence.scheduled (cadence : Cadence) (currentCycle : Word64) :
    Nat → Except MediaClockError Cadence
  | 0 => .ok (cadence.startedAt currentCycle)
  | tick + 1 => do
    let previous ← cadence.scheduled currentCycle tick
    previous.advanceDeadline

/-! ## Checked words -/

theorem toNat_maximum : maximum.toNat = 2 ^ 64 - 1 := rfl

theorem checkedMultiply_ok {left right v : Word64} (h : checkedMultiply left right = .ok v) :
    v.toNat = left.toNat * right.toNat := by
  unfold checkedMultiply at h
  split at h
  · cases h
  · rename_i hfits
    cases h
    rw [BitVec.toNat_mul]
    refine Nat.mod_eq_of_lt ?_
    rcases Nat.eq_zero_or_pos right.toNat with hzero | hpos
    · simp [hzero]
    · have hle : left ≤ maximum / right := by
        by_contra hlt
        refine hfits ⟨fun hzero => ?_, ?_⟩
        · simp [hzero] at hpos
        · rw [BitVec.le_def] at hlt
          rw [gt_iff_lt, BitVec.lt_def]
          omega
      rw [BitVec.le_def, BitVec.toNat_udiv, toNat_maximum] at hle
      have hbound := (Nat.mul_le_mul_right right.toNat hle).trans (Nat.div_mul_le_self _ _)
      omega

theorem checkedAdd_eq (left right : Word64) : checkedAdd left right =
    if left.toNat + right.toNat < 2 ^ 64 then .ok (left + right) else .error .deadlineOverflow := by
  unfold checkedAdd
  have hleft := left.isLt
  have hdifference : (maximum - left).toNat = 2 ^ 64 - 1 - left.toNat := by
    rw [BitVec.toNat_sub_of_le]
    · rw [toNat_maximum]
    · rw [BitVec.le_def, toNat_maximum]
      omega
  simp only [gt_iff_lt, BitVec.lt_def, hdifference]
  split_ifs
  · omega
  · rfl
  · rfl
  · omega

/-! ## The cadence of a rate -/

/-- A cadence is the rate split into whole cycles and a proper fraction. -/
structure Cadence.Represents (cadence : Cadence) (cycles units perSecond : Nat) : Prop where
  denominator : cadence.denominator.toNat = perSecond
  rate : cadence.baseInterval.toNat * perSecond + cadence.remainder.toNat = cycles * units
  remainder : cadence.remainder.toNat < perSecond

theorem makeCadence_represents {cycles units perSecond : Word64} {cadence : Cadence}
    (h : makeCadence cycles units perSecond = .ok cadence) :
    cadence.Represents cycles.toNat units.toNat perSecond.toNat ∧
      cycles.toNat % perSecond.toNat * units.toNat < 2 ^ 64 ∧
        cycles.toNat / perSecond.toNat * units.toNat < 2 ^ 64 := by
  unfold makeCadence at h
  split at h
  · cases h
  rename_i hrates
  obtain ⟨fractionalProduct, hfractional, h⟩ := bind_eq_ok h
  obtain ⟨wholeProduct, hwhole, h⟩ := bind_eq_ok h
  obtain ⟨base, hbase, h⟩ := bind_eq_ok h
  split at h
  · cases h
  cases h
  have hfractional := checkedMultiply_ok hfractional
  have hwhole := checkedMultiply_ok hwhole
  rw [BitVec.toNat_umod] at hfractional
  rw [BitVec.toNat_udiv] at hwhole
  rw [checkedAdd_eq] at hbase
  split at hbase
  · rename_i hfits
    cases hbase
    have hpositive : 0 < perSecond.toNat := by
      refine Nat.pos_of_ne_zero fun hzero => hrates (.inr (.inr ?_))
      exact BitVec.eq_of_toNat_eq (by simpa using hzero)
    rw [BitVec.toNat_udiv] at hfits
    refine ⟨⟨rfl, ?_, ?_⟩, hfractional ▸ fractionalProduct.isLt, hwhole ▸ wholeProduct.isLt⟩
    · rw [BitVec.toNat_add, BitVec.toNat_udiv, Nat.mod_eq_of_lt hfits, BitVec.toNat_umod]
      calc (wholeProduct.toNat + fractionalProduct.toNat / perSecond.toNat) * perSecond.toNat +
            fractionalProduct.toNat % perSecond.toNat
          = wholeProduct.toNat * perSecond.toNat + (perSecond.toNat *
              (fractionalProduct.toNat / perSecond.toNat) +
                fractionalProduct.toNat % perSecond.toNat) := by ring
        _ = wholeProduct.toNat * perSecond.toNat + fractionalProduct.toNat := by
          rw [Nat.div_add_mod]
        _ = (perSecond.toNat * (cycles.toNat / perSecond.toNat) +
              cycles.toNat % perSecond.toNat) * units.toNat := by
          rw [hwhole, hfractional]
          ring
        _ = cycles.toNat * units.toNat := by rw [Nat.div_add_mod]
    · rw [BitVec.toNat_umod]
      exact Nat.mod_lt _ hpositive
  · cases hbase

/-! ## Deadlines -/

section
variable {cadence : Cadence} {cycles units perSecond start : Nat}

/-- Where the cadence stands after some ticks: the phase is what the deadline leaves out
of the exact time, in units of the denominator. -/
structure Cadence.StandsAt (cadence : Cadence) (cycles units perSecond start tick : Nat) :
    Prop extends cadence.Represents cycles units perSecond where
  deadline : cadence.deadline.toNat = start + tick * cycles * units / perSecond
  phase : cadence.phase.toNat = tick * cycles * units % perSecond

variable {tick : Nat}

theorem Cadence.StandsAt.phase_lt
    (h : cadence.StandsAt cycles units perSecond start tick) : cadence.phase.toNat < perSecond := by
  rw [h.phase]
  exact Nat.mod_lt _ (Nat.zero_lt_of_lt h.remainder)

/-- One more rate on top of quotient and remainder: the carry is at most one. -/
theorem carry_step (total base : Nat) {remainder perSecond : Nat} (hremainder : remainder < perSecond) :
    (total + (base * perSecond + remainder)) / perSecond = total / perSecond + base +
        (if perSecond - remainder ≤ total % perSecond then 1 else 0) ∧
      (total + (base * perSecond + remainder)) % perSecond =
        if perSecond - remainder ≤ total % perSecond then
          total % perSecond - (perSecond - remainder)
        else total % perSecond + remainder := by
  have hpositive : 0 < perSecond := Nat.zero_lt_of_lt hremainder
  have hlt := Nat.mod_lt total hpositive
  have hsplit : total + (base * perSecond + remainder) =
      (total % perSecond + remainder) + perSecond * (total / perSecond + base) := by
    have hdecomposed := Nat.div_add_mod total perSecond
    calc total + (base * perSecond + remainder)
        = perSecond * (total / perSecond) + total % perSecond +
            (base * perSecond + remainder) := by rw [hdecomposed]
      _ = _ := by ring
  rw [hsplit, Nat.add_mul_div_left _ _ hpositive, Nat.add_mul_mod_self_left]
  split_ifs with hcarry
  · have hquotient : (total % perSecond + remainder) / perSecond = 1 := by
      rw [Nat.div_eq_iff hpositive]
      omega
    have hrest : (total % perSecond + remainder) % perSecond =
        total % perSecond + remainder - perSecond := by
      rw [Nat.mod_eq_sub_mod (by omega), Nat.mod_eq_of_lt (by omega)]
    rw [hquotient, hrest]
    omega
  · rw [Nat.div_eq_of_lt (by omega), Nat.mod_eq_of_lt (by omega)]
    omega

theorem toNat_threshold (h : cadence.Represents cycles units perSecond) :
    (cadence.denominator - cadence.remainder).toNat = perSecond - cadence.remainder.toNat := by
  rw [BitVec.toNat_sub_of_le, h.denominator]
  rw [BitVec.le_def, h.denominator]
  exact h.remainder.le

/-- A tick that carries adds a cycle, and the phase stays behind the denominator. -/
theorem Cadence.StandsAt.carries_iff (h : cadence.StandsAt cycles units perSecond start tick) :
    (cadence.remainder ≠ 0 ∧ cadence.phase ≥ cadence.denominator - cadence.remainder) ↔
      perSecond - cadence.remainder.toNat ≤ tick * cycles * units % perSecond := by
  have hphase := h.phase_lt
  rw [ge_iff_le, BitVec.le_def, toNat_threshold h.toRepresents, ← h.phase]
  constructor
  · intro hcarry
    exact hcarry.2
  · intro hle
    refine ⟨fun hzero => ?_, hle⟩
    rw [hzero] at hle
    simp at hle
    omega

theorem Cadence.StandsAt.of_deadline {next : Cadence}
    (h : cadence.Represents cycles units perSecond) (hbase : next.baseInterval = cadence.baseInterval)
    (hremainder : next.remainder = cadence.remainder)
    (hdenominator : next.denominator = cadence.denominator)
    (hdeadline : next.deadline.toNat = start + tick * cycles * units / perSecond)
    (hphase : next.phase.toNat = tick * cycles * units % perSecond) :
    next.StandsAt cycles units perSecond start tick where
  denominator := hdenominator ▸ h.denominator
  rate := by rw [hbase, hremainder, h.rate]
  remainder := hremainder ▸ h.remainder
  deadline := hdeadline
  phase := hphase

theorem ok_bind {α β : Type} (a : α) (f : α → Except MediaClockError β) :
    (Except.ok a >>= f) = f a := rfl

variable (h : cadence.StandsAt cycles units perSecond start tick)
include h

/-- The last step of a tick, with the interval and the phase that it has found. -/
theorem Cadence.StandsAt.reschedule {phase interval : Word64}
    (hinterval : start + (tick + 1) * cycles * units / perSecond =
      cadence.deadline.toNat + interval.toNat)
    (hphase : phase.toNat = (tick + 1) * cycles * units % perSecond) :
    if start + (tick + 1) * cycles * units / perSecond < 2 ^ 64 then
      ∃ next, (do
          let deadline ← checkedAdd cadence.deadline interval
          pure { cadence with phase, deadline } : Except MediaClockError Cadence) = .ok next ∧
        next.StandsAt cycles units perSecond start (tick + 1)
    else (do
        let deadline ← checkedAdd cadence.deadline interval
        pure { cadence with phase, deadline } : Except MediaClockError Cadence) =
      .error .deadlineOverflow := by
  rw [checkedAdd_eq, hinterval]
  by_cases hfits : cadence.deadline.toNat + interval.toNat < 2 ^ 64
  · rw [if_pos hfits, if_pos hfits]
    refine ⟨_, rfl, .of_deadline h.toRepresents rfl rfl rfl ?_ hphase⟩
    rw [hinterval, BitVec.toNat_add, Nat.mod_eq_of_lt hfits]
  · rw [if_neg hfits, if_neg hfits]
    rfl

/-- The next deadline is the exact one, or there is none within 64 bits. -/
theorem Cadence.StandsAt.advance :
    if start + (tick + 1) * cycles * units / perSecond < 2 ^ 64 then
      ∃ next, cadence.advanceDeadline = .ok next ∧
        next.StandsAt cycles units perSecond start (tick + 1)
    else cadence.advanceDeadline = .error .deadlineOverflow := by
  have htotal : (tick + 1) * cycles * units = tick * cycles * units +
      (cadence.baseInterval.toNat * perSecond + cadence.remainder.toNat) := by
    rw [h.rate]
    ring
  obtain ⟨hquotient, hrest⟩ :=
    carry_step (tick * cycles * units) cadence.baseInterval.toNat h.remainder
  rw [← htotal] at hquotient hrest
  have hdeadline := h.deadline
  have hone : (1 : Word64).toNat = 1 := rfl
  unfold Cadence.advanceDeadline
  by_cases hcarry : cadence.remainder ≠ 0 ∧ cadence.phase ≥ cadence.denominator - cadence.remainder
  · have hreached := h.carries_iff.mp hcarry
    rw [if_pos hreached] at hquotient hrest
    simp only [decide_eq_true hcarry, if_neg hcarry.1, if_true]
    by_cases hinterval : cadence.baseInterval.toNat + 1 < 2 ^ 64
    · have hstep : checkedAdd cadence.baseInterval 1 = .ok (cadence.baseInterval + 1) := by
        rw [checkedAdd_eq, hone, if_pos hinterval]
      rw [hstep, ok_bind]
      refine h.reschedule ?_ ?_
      · rw [hquotient, BitVec.toNat_add, hone, Nat.mod_eq_of_lt hinterval, hdeadline]
        omega
      · rw [BitVec.toNat_sub_of_le hcarry.2, toNat_threshold h.toRepresents, hrest, h.phase]
    · have hstep : checkedAdd cadence.baseInterval 1 = .error .deadlineOverflow := by
        rw [checkedAdd_eq, hone, if_neg hinterval]
      have hpast : ¬start + (tick + 1) * cycles * units / perSecond < 2 ^ 64 := by
        rw [hquotient]
        omega
      rw [hstep, if_neg hpast]
      rfl
  · have hshort := mt h.carries_iff.mpr hcarry
    rw [if_neg hshort] at hquotient hrest
    simp only [decide_eq_false hcarry, Bool.false_eq_true, if_false]
    rw [ok_bind]
    refine h.reschedule ?_ ?_
    · rw [hquotient, hdeadline]
      omega
    · rw [hrest, ← h.phase]
      by_cases hzero : cadence.remainder = 0
      · simp [hzero]
      · have hphase := h.phase_lt
        have hremainder := h.remainder
        have hdenominator := h.denominator ▸ cadence.denominator.isLt
        have hlt : cadence.phase.toNat + cadence.remainder.toNat < 2 ^ 64 := by
          rw [← h.phase] at hshort
          omega
        rw [if_neg hzero, BitVec.toNat_add, Nat.mod_eq_of_lt hlt]

omit h

theorem Cadence.Represents.startedAt {currentCycle : Word64}
    (h : cadence.Represents cycles units perSecond) :
    (cadence.startedAt currentCycle).StandsAt cycles units perSecond currentCycle.toNat 0 :=
  .of_deadline h rfl rfl rfl (by simp [Cadence.startedAt]) (by simp [Cadence.startedAt])

theorem exact_mono :
    start + tick * cycles * units / perSecond ≤ start + (tick + 1) * cycles * units / perSecond :=
  Nat.add_le_add_left (Nat.div_le_div_right
    (Nat.mul_le_mul_right _ (Nat.mul_le_mul_right _ (Nat.le_succ tick)))) _

/-- Induction on the ticks: as long as the exact deadline fits into 64 bits the cadence
stands there, and then there is no further one. -/
theorem scheduled_exact {currentCycle : Word64} (h : cadence.Represents cycles units perSecond)
    (tick : Nat) : if currentCycle.toNat + tick * cycles * units / perSecond < 2 ^ 64 then
      ∃ next, cadence.scheduled currentCycle tick = .ok next ∧
        next.StandsAt cycles units perSecond currentCycle.toNat tick
    else cadence.scheduled currentCycle tick = .error .deadlineOverflow := by
  induction tick with
  | zero =>
    rw [if_pos (by simpa using currentCycle.isLt)]
    exact ⟨_, rfl, h.startedAt⟩
  | succ tick ih =>
    have hmono : currentCycle.toNat + tick * cycles * units / perSecond ≤
        currentCycle.toNat + (tick + 1) * cycles * units / perSecond := exact_mono
    unfold Cadence.scheduled
    by_cases hfits : currentCycle.toNat + tick * cycles * units / perSecond < 2 ^ 64
    · rw [if_pos hfits] at ih
      obtain ⟨previous, hprevious, hstands⟩ := ih
      rw [hprevious]
      exact hstands.advance
    · rw [if_neg hfits] at ih
      rw [ih, if_neg (by omega)]
      rfl

end

/-! ## The clock -/

/-- A cadence of the clock, with the units of a tick and of a second. -/
inductive DreamcastMediaClock.Ticks (clock : DreamcastMediaClock) : Cadence → Nat → Nat → Prop
  | video : clock.Ticks clock.videoCadence 1 clock.config.frameRate.toNat
  | audio : clock.Ticks clock.audioCadence clock.config.audioFramesPerBuffer.toNat
      clock.config.audioSampleRate.toNat

theorem DreamcastMediaClock.Ticks.represents {config : MediaClockConfig}
    {clock : DreamcastMediaClock} (h : DreamcastMediaClock.create config = .ok clock)
    {cadence : Cadence} {units perSecond : Nat} (hticks : clock.Ticks cadence units perSecond) :
    clock.config = config ∧ cadence.Represents config.guestCyclesPerSecond.toNat units perSecond ∧
      config.guestCyclesPerSecond.toNat % perSecond * units < 2 ^ 64 ∧
      config.guestCyclesPerSecond.toNat / perSecond * units < 2 ^ 64 := by
  unfold DreamcastMediaClock.create at h
  obtain ⟨video, hvideo, h⟩ := bind_eq_ok h
  obtain ⟨audio, haudio, h⟩ := bind_eq_ok h
  split at h
  · cases h
  cases h
  have hwidth : ∀ word : BitVec 32, (word.setWidth 64).toNat = word.toNat := fun word => by
    rw [BitVec.toNat_setWidth, Nat.mod_eq_of_lt (by have := word.isLt; omega)]
  refine ⟨rfl, ?_⟩
  cases hticks with
  | video =>
    have hrepresents := makeCadence_represents hvideo
    rw [hwidth] at hrepresents
    exact hrepresents
  | audio =>
    have hrepresents := makeCadence_represents haudio
    rw [hwidth, hwidth] at hrepresents
    exact hrepresents

/-- No drift: the deadline of a tick is the exact time rounded down, as long as that fits
into 64 bits; past it the clock throws. The phase stays below its denominator, and the
products of the constructor fit. -/
theorem DreamcastMediaClock.deadline_exact {config : MediaClockConfig}
    {clock : DreamcastMediaClock} (h : DreamcastMediaClock.create config = .ok clock)
    {cadence : Cadence} {units perSecond : Nat} (hticks : clock.Ticks cadence units perSecond)
    (startCycle : Word64) (tick : Nat) :
    (startCycle.toNat + tick * config.guestCyclesPerSecond.toNat * units / perSecond < 2 ^ 64 →
      ∃ next, cadence.scheduled startCycle tick = .ok next ∧ next.deadline.toNat =
          startCycle.toNat + tick * config.guestCyclesPerSecond.toNat * units / perSecond ∧
        next.phase < next.denominator) ∧
      (2 ^ 64 ≤ startCycle.toNat + tick * config.guestCyclesPerSecond.toNat * units / perSecond →
        cadence.scheduled startCycle tick = .error .deadlineOverflow) ∧
      config.guestCyclesPerSecond.toNat % perSecond * units < 2 ^ 64 ∧
      config.guestCyclesPerSecond.toNat / perSecond * units < 2 ^ 64 := by
  obtain ⟨-, hrepresents, hfractional, hwhole⟩ := hticks.represents h
  have hexact := @scheduled_exact _ _ _ _ startCycle hrepresents tick
  refine ⟨fun hfits => ?_, fun hpast => ?_, hfractional, hwhole⟩
  · rw [if_pos hfits] at hexact
    obtain ⟨next, hnext, hstands⟩ := hexact
    refine ⟨next, hnext, hstands.deadline, ?_⟩
    rw [BitVec.lt_def, hstands.denominator]
    exact hstands.phase_lt
  · rwa [if_neg (by omega)] at hexact

/-- The configuration of the console, after a second and a half of video. -/
theorem DreamcastMediaClock.deadline_exact_console :
    ∃ clock, DreamcastMediaClock.create { guestCyclesPerSecond := 200000000 } = .ok clock ∧
      ∃ next, clock.videoCadence.scheduled 1000 90 = .ok next ∧
        next.deadline.toNat = 300001000 := by
  cases hclock : DreamcastMediaClock.create { guestCyclesPerSecond := 200000000 } with
  | error e =>
    have hsome : (DreamcastMediaClock.create
      { guestCyclesPerSecond := 200000000 }).toOption.isSome = true := by decide +kernel
    rw [hclock] at hsome
    cases hsome
  | ok clock =>
    have hconfig := (DreamcastMediaClock.Ticks.represents hclock .video).1
    obtain ⟨hfits, -⟩ := DreamcastMediaClock.deadline_exact hclock .video 1000 90
    rw [hconfig] at hfits
    obtain ⟨next, hnext, hdeadline, -⟩ := hfits (by decide +kernel)
    refine ⟨clock, rfl, next, hnext, hdeadline.trans ?_⟩
    decide +kernel

end KatanaRecomp.Runtime.Media
