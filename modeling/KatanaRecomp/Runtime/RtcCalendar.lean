import KatanaRecomp.Lib.Calendar
import KatanaRecomp.Runtime.TimerInvariant

/-! # The calendar of the real-time clock

`increment_second` steps a valid date and time to the next second of the Gregorian
calendar, with the years counted modulo ten thousand. The 256 Hz ticks count a phase
of 256 steps, from `counter_64hz` and the divider below it, and a running calendar
steps once each time the phase starts anew. -/
namespace KatanaRecomp.Runtime.Timer
open Lib Calendar

/-! ## One second -/

namespace RtcDateTime

def dayNumber (value : RtcDateTime) : Nat :=
  Calendar.dayNumber value.year.toNat value.month.toNat value.day.toNat

def secondNumber (value : RtcDateTime) : Nat :=
  Calendar.secondNumber value.year.toNat value.month.toNat value.day.toNat value.hour.toNat
    value.minute.toNat value.second.toNat

end RtcDateTime

def secondsBeforeYear (year : Nat) : Nat := daysBeforeYear year * 86400

/-- The seconds of the ten thousand years. -/
def calendarSeconds : Nat := secondsBeforeYear 10000

/-- A variable for the years keeps the kernel from counting their days. -/
theorem calendarSeconds_eq {years : Nat} (h : years = 10000) :
    calendarSeconds = daysBeforeYear years * 86400 := by
  unfold calendarSeconds
  rw [← h]
  rfl

theorem leapYear_iff (year : BitVec 16) : leapYear year = true ↔ LeapYear year.toNat := by
  unfold leapYear LeapYear
  simp

theorem toNat_daysInMonth (year : BitVec 16) {month : BitVec 8} (hfirst : 1 ≤ month)
    (hlast : month ≤ 12) : (daysInMonth year month).toNat = monthDays year.toNat month.toNat := by
  have hmonth : month ∈ [1, 2, 3, 4, 5, 6, 7, 8, 9, 10, 11, 12] := by
    revert hfirst hlast
    revert month
    decide
  unfold daysInMonth
  simp only [leapYear_iff]
  by_cases hleap : LeapYear year.toNat
  · simp only [List.mem_cons, List.not_mem_nil, or_false] at hmonth
    rcases hmonth with rfl | rfl | rfl | rfl | rfl | rfl | rfl | rfl | rfl | rfl | rfl | rfl <;>
      simp [monthDays, hleap]
  · simp only [List.mem_cons, List.not_mem_nil, or_false] at hmonth
    rcases hmonth with rfl | rfl | rfl | rfl | rfl | rfl | rfl | rfl | rfl | rfl | rfl | rfl <;>
      simp [monthDays, hleap]

/-- How far the carry of a second goes. -/
inductive Carried (value : RtcDateTime) : RtcDateTime → Prop
  | second (h : value.second.toNat < 59) :
    Carried value { value with second := value.second + 1 }
  | minute (hsecond : value.second.toNat = 59) (h : value.minute.toNat < 59) :
    Carried value { value with second := 0, minute := value.minute + 1 }
  | hour (hsecond : value.second.toNat = 59) (hminute : value.minute.toNat = 59)
      (h : value.hour.toNat < 23) :
    Carried value { value with second := 0, minute := 0, hour := value.hour + 1 }
  | day (hsecond : value.second.toNat = 59) (hminute : value.minute.toNat = 59)
      (hhour : value.hour.toNat = 23)
      (h : value.day.toNat < monthDays value.year.toNat value.month.toNat) : Carried value
      { value with
        second := 0, minute := 0, hour := 0
        dayOfWeek := BitVec.ofNat 8 ((value.dayOfWeek.toNat + 1) % 7), day := value.day + 1 }
  | month (hsecond : value.second.toNat = 59) (hminute : value.minute.toNat = 59)
      (hhour : value.hour.toNat = 23)
      (hday : value.day.toNat = monthDays value.year.toNat value.month.toNat)
      (h : value.month.toNat < 12) : Carried value
      { value with
        second := 0, minute := 0, hour := 0
        dayOfWeek := BitVec.ofNat 8 ((value.dayOfWeek.toNat + 1) % 7), day := 1
        month := value.month + 1 }
  | year (hsecond : value.second.toNat = 59) (hminute : value.minute.toNat = 59)
      (hhour : value.hour.toNat = 23)
      (hday : value.day.toNat = monthDays value.year.toNat value.month.toNat)
      (hmonth : value.month.toNat = 12) : Carried value
      { second := 0, minute := 0, hour := 0
        dayOfWeek := BitVec.ofNat 8 ((value.dayOfWeek.toNat + 1) % 7), day := 1, month := 1
        year := BitVec.ofNat 16 ((value.year.toNat + 1) % 10000) }

theorem monthDays_le (year month : Nat) : monthDays year month ≤ 31 := by
  unfold monthDays
  split
  · split <;> omega
  all_goals omega

variable {value : RtcDateTime}

theorem incrementSecond_carried (h : value.Valid) : Carried value (incrementSecond value) := by
  obtain ⟨-, hmonth, hmonth', -, hday, -, hhour, hminute, hsecond⟩ := h
  have hmonthDays := toNat_daysInMonth value.year hmonth hmonth'
  have hshort := monthDays_le value.year.toNat value.month.toNat
  unfold incrementSecond
  dsimp only
  split_ifs with hs hm hh hd hy
  · exact .second (by bv_omega)
  · exact .minute (by bv_omega) (by bv_omega)
  · exact .hour (by bv_omega) (by bv_omega) (by bv_omega)
  · exact .day (by bv_omega) (by bv_omega) (by bv_omega) (by bv_omega)
  · exact .month (by bv_omega) (by bv_omega) (by bv_omega) (by bv_omega) (by bv_omega)
  · exact .year (by bv_omega) (by bv_omega) (by bv_omega) (by bv_omega) (by bv_omega)

theorem monthDays_pos (year month : Nat) : 1 ≤ monthDays year month := by
  unfold monthDays
  split
  · split <;> omega
  all_goals omega

variable {next : RtcDateTime}

section
variable (hnext : Carried value next)
include hnext

/-- The next second is a valid one. -/
theorem Carried.valid (h : value.Valid) : next.Valid := by
  obtain ⟨hyear, hmonth, hmonth', hday, hday', hweekday, hhour, hminute, hsecond⟩ := h
  have hmonthDays := toNat_daysInMonth value.year hmonth hmonth'
  have hcarriedWeekday : BitVec.ofNat 8 ((value.dayOfWeek.toNat + 1) % 7) ≤ 6 := by bv_omega
  cases hnext with
  | second _ =>
    exact ⟨hyear, hmonth, hmonth', hday, hday', hweekday, hhour, hminute, by bv_omega⟩
  | minute _ _ =>
    exact ⟨hyear, hmonth, hmonth', hday, hday', hweekday, hhour, by bv_omega, by simp⟩
  | hour _ _ _ =>
    exact ⟨hyear, hmonth, hmonth', hday, hday', hweekday, by bv_omega, by simp, by simp⟩
  | day _ _ _ hlast =>
    have hshort := monthDays_le value.year.toNat value.month.toNat
    refine ⟨hyear, hmonth, hmonth', by bv_omega, ?_, hcarriedWeekday, by simp, by simp, by simp⟩
    bv_omega
  | month _ _ _ _ hlast =>
    have hfirst : (1 : BitVec 8) ≤ value.month + 1 := by bv_omega
    have hlast' : value.month + 1 ≤ 12 := by bv_omega
    have hpositive := monthDays_pos value.year.toNat (value.month + 1).toNat
    have hlength := toNat_daysInMonth value.year hfirst hlast'
    refine ⟨hyear, hfirst, hlast', by simp, ?_, hcarriedWeekday, by simp, by simp, by simp⟩
    bv_omega
  | year _ _ _ _ _ =>
    have hpositive :=
      monthDays_pos (BitVec.ofNat 16 ((value.year.toNat + 1) % 10000)).toNat (1 : BitVec 8).toNat
    have hlength := toNat_daysInMonth (BitVec.ofNat 16 ((value.year.toNat + 1) % 10000))
      (by decide : (1 : BitVec 8) ≤ 1) (by decide)
    refine ⟨by bv_omega, by simp, by simp, by simp, ?_, hcarriedWeekday, by simp, by simp, by simp⟩
    bv_omega

/-- The day number moves by one with the weekday, or the ten thousand years are over. -/
theorem Carried.seconds (h : value.Valid) :
    next.secondNumber = value.secondNumber + 1 ∨
      value.secondNumber + 1 = calendarSeconds ∧ next.secondNumber = 0 := by
  obtain ⟨hyear, hmonth, -, hday, -, -, -, -, -⟩ := h
  have hzero : (0 : BitVec 8).toNat = 0 := rfl
  unfold RtcDateTime.secondNumber Calendar.secondNumber
  cases hnext with
  | second hlast =>
    have hsecond : (value.second + 1).toNat = value.second.toNat + 1 := by bv_omega
    simp only [hsecond]
    omega
  | minute hsecond hlast =>
    have hminute : (value.minute + 1).toNat = value.minute.toNat + 1 := by bv_omega
    simp only [hminute, hsecond, hzero]
    omega
  | hour hsecond hminute hlast =>
    have hhour : (value.hour + 1).toNat = value.hour.toNat + 1 := by bv_omega
    simp only [hhour, hminute, hsecond, hzero]
    omega
  | day hsecond hminute hhour hlast =>
    have hshort := monthDays_le value.year.toNat value.month.toNat
    have hday' : (value.day + 1).toNat = value.day.toNat + 1 := by bv_omega
    have hnumber := @dayNumber_next value.year.toNat value.month.toNat value.day.toNat (by bv_omega)
    simp only [hday', hhour, hminute, hsecond, hzero, hnumber]
    omega
  | month hsecond hminute hhour hlast _ =>
    have hmonth' : (value.month + 1).toNat = value.month.toNat + 1 := by bv_omega
    have hone : (1 : BitVec 8).toNat = 1 := rfl
    have hnumber := @dayNumber_nextMonth value.year.toNat value.month.toNat value.day.toNat
      (by bv_omega) (by bv_omega) hlast
    simp only [hmonth', hone, hhour, hminute, hsecond, hzero, hnumber]
    omega
  | year hsecond hminute hhour hlast htwelve =>
    have hone : (1 : BitVec 8).toNat = 1 := rfl
    rw [htwelve] at hlast
    have hnumber := @dayNumber_nextYear value.year.toNat value.day.toNat (by bv_omega) hlast
    simp only [hone, hhour, hminute, hsecond, hzero, htwelve]
    by_cases hend : value.year.toNat = 9999
    · right
      have hwrapped : (BitVec.ofNat 16 ((value.year.toNat + 1) % 10000)).toNat = 0 := by
        rw [hend]
        rfl
      have hstart := dayNumber_first 10000
      have hfirst : Calendar.dayNumber 0 1 1 = 0 := dayNumber_first 0
      obtain ⟨years, hyears⟩ : ∃ years, years = 10000 := ⟨_, rfl⟩
      rw [hend, hstart, ← hyears] at hnumber
      rw [hwrapped, hfirst, hend, calendarSeconds_eq hyears]
      omega
    · left
      have hwrapped : (BitVec.ofNat 16 ((value.year.toNat + 1) % 10000)).toNat =
        value.year.toNat + 1 := by bv_omega
      rw [hwrapped, hnumber]
      omega

theorem Carried.weekday (h : value.Valid) :
    (next.dayOfWeek.toNat + value.dayNumber) % 7 = (value.dayOfWeek.toNat + next.dayNumber) % 7 := by
  obtain ⟨hyear, hmonth, -, hday, -, hweekday, -, -, -⟩ := h
  have hcarried : (BitVec.ofNat 8 ((value.dayOfWeek.toNat + 1) % 7)).toNat =
    (value.dayOfWeek.toNat + 1) % 7 := by bv_omega
  unfold RtcDateTime.dayNumber
  cases hnext with
  | second _ => rfl
  | minute _ _ => rfl
  | hour _ _ _ => rfl
  | day _ _ _ hlast =>
    have hshort := monthDays_le value.year.toNat value.month.toNat
    have hday' : (value.day + 1).toNat = value.day.toNat + 1 := by bv_omega
    have hnumber := @dayNumber_next value.year.toNat value.month.toNat value.day.toNat (by bv_omega)
    simp only [hday', hnumber, hcarried]
    omega
  | month _ _ _ hlast _ =>
    have hmonth' : (value.month + 1).toNat = value.month.toNat + 1 := by bv_omega
    have hone : (1 : BitVec 8).toNat = 1 := rfl
    have hnumber := @dayNumber_nextMonth value.year.toNat value.month.toNat value.day.toNat
      (by bv_omega) (by bv_omega) hlast
    simp only [hmonth', hone, hnumber, hcarried]
    omega
  | year _ _ _ hlast htwelve =>
    have hone : (1 : BitVec 8).toNat = 1 := rfl
    rw [htwelve] at hlast
    have hnumber := @dayNumber_nextYear value.year.toNat value.day.toNat (by bv_omega) hlast
    simp only [hone, htwelve, hcarried]
    by_cases hend : value.year.toNat = 9999
    · have hwrapped : (BitVec.ofNat 16 ((value.year.toNat + 1) % 10000)).toNat = 0 := by
        rw [hend]
        rfl
      have hstart := dayNumber_first 10000
      have hfirst : Calendar.dayNumber 0 1 1 = 0 := dayNumber_first 0
      -- ten thousand years are whole weeks
      have hweeks : daysBeforeYear 10000 = 146097 * 25 := daysBeforeYear_cycles 25
      rw [hend, hstart, hweeks] at hnumber
      rw [hwrapped, hfirst, hend]
      omega
    · have hwrapped : (BitVec.ofNat 16 ((value.year.toNat + 1) % 10000)).toNat =
        value.year.toNat + 1 := by bv_omega
      rw [hwrapped, hnumber]
      omega

end

/-- The days in front of a month come to no more than the days in front of a later one. -/
theorem daysBeforeMonth_mono (year : Nat) : Monotone (daysBeforeMonth year) := by
  refine monotone_nat_of_le_succ fun month => ?_
  cases month with
  | zero => exact Nat.le_refl 0
  | succ month => exact Nat.le_add_right _ _

theorem secondNumber_lt (h : value.Valid) : value.secondNumber < calendarSeconds := by
  obtain ⟨hyear, hmonth, hlast, hday, hlastDay, -, hhour, hminute, hsecond⟩ := h
  have hlength := toNat_daysInMonth value.year hmonth hlast
  have hshort : value.day.toNat ≤ monthDays value.year.toNat value.month.toNat := by bv_omega
  have hfirst : 1 ≤ value.month.toNat := by bv_omega
  have hmonths : daysBeforeMonth value.year.toNat (value.month.toNat + 1) ≤
    daysBeforeMonth value.year.toNat 13 := daysBeforeMonth_mono _ (by bv_omega)
  obtain ⟨years, hyears⟩ : ∃ years, years = 10000 := ⟨_, rfl⟩
  have hbefore : daysBeforeYear (value.year.toNat + 1) ≤ daysBeforeYear years :=
    monotone_nat_of_le_succ (fun year => Nat.le_add_right (daysBeforeYear year) _) (by bv_omega)
  rw [daysBeforeMonth_succ _ hfirst] at hmonths
  have hbefore' : daysBeforeYear value.year.toNat + daysBeforeMonth value.year.toNat 13 ≤
    daysBeforeYear years := hbefore
  have hhour' : value.hour.toNat ≤ 23 := hhour
  have hminute' : value.minute.toNat ≤ 59 := hminute
  have hsecond' : value.second.toNat ≤ 59 := hsecond
  have hday' : 1 ≤ value.day.toNat := hday
  unfold RtcDateTime.secondNumber Calendar.secondNumber Calendar.dayNumber
  rw [calendarSeconds_eq hyears]
  omega

/-! ## The ticks -/

/-- The phase below a second: the seven bits of `counter_64hz` and the divider. -/
def Sh4Rtc.subSecondPhase (rtc : Sh4Rtc) : Nat :=
  rtc.counter64hz.toNat * 2 + rtc.divider256hzPhase.toNat

/-- What a tick does to phase and calendar. -/
structure Sh4Rtc.Ticks (rtc next : Sh4Rtc) : Prop where
  divider : next.divider256hzPhase ≤ 1
  counter : next.counter64hz ≤ 0x7F
  running : next.calendarRunning = rtc.calendarRunning
  phase : next.subSecondPhase = (rtc.subSecondPhase + 1) % 256
  dateTime : next.dateTime =
    if rtc.calendarRunning ∧ rtc.subSecondPhase = 255 then incrementSecond rtc.dateTime
    else rtc.dateTime

theorem updateAlarm_calendar (rtc : Sh4Rtc) : (updateAlarm rtc).dateTime = rtc.dateTime ∧
      (updateAlarm rtc).divider256hzPhase = rtc.divider256hzPhase ∧
      (updateAlarm rtc).counter64hz = rtc.counter64hz ∧
      (updateAlarm rtc).calendarRunning = rtc.calendarRunning := by
  unfold updateAlarm
  dsimp only
  split <;> exact ⟨rfl, rfl, rfl, rfl⟩

/-- The divider toggles, and the counter above it takes its carry. -/
theorem phase_step {divider counter : BitVec 8} (hdivider : divider ≤ 1) (hcounter : counter ≤ 0x7F) :
    (divider ^^^ 1 = 0 ↔ divider = 1) ∧ divider ^^^ 1 ≤ 1 ∧ (counter + 1) &&& 0x7F ≤ 0x7F ∧
      ((counter + 1) &&& 0x7F = 0 ↔ counter = 0x7F) ∧
      ((counter + 1) &&& 0x7F).toNat = (counter.toNat + 1) % 128 := by
  have hdividers : ∀ d : BitVec 8, d ≤ 1 → (d ^^^ 1 = 0 ↔ d = 1) ∧ d ^^^ 1 ≤ 1 := by
    decide +kernel
  have hcounters : ∀ c : BitVec 8, c ≤ 0x7F → (c + 1) &&& 0x7F ≤ 0x7F ∧
      ((c + 1) &&& 0x7F = 0 ↔ c = 0x7F) ∧ ((c + 1) &&& 0x7F).toNat = (c.toNat + 1) % 128 := by
    decide +kernel
  exact ⟨(hdividers divider hdivider).1, (hdividers divider hdivider).2, hcounters counter hcounter⟩

variable {rtc : Sh4Rtc} (hdivider : rtc.divider256hzPhase ≤ 1)
include hdivider

section
variable (hcounter : rtc.counter64hz ≤ 0x7F)
include hcounter

omit hcounter in
theorem subSecondPhase_last :
    rtc.subSecondPhase = 255 ↔ rtc.divider256hzPhase = 1 ∧ rtc.counter64hz = 0x7F := by
  unfold Sh4Rtc.subSecondPhase
  constructor
  · intro h
    exact ⟨by bv_omega, by bv_omega⟩
  · intro h
    rw [h.1, h.2]
    rfl

theorem Sh4Rtc.Ticks.of_fields {next : Sh4Rtc}
    (hnextDivider : next.divider256hzPhase = rtc.divider256hzPhase ^^^ 1)
    (hnextCounter : next.counter64hz =
      if rtc.divider256hzPhase = 1 then (rtc.counter64hz + 1) &&& 0x7F else rtc.counter64hz)
    (hrunning : next.calendarRunning = rtc.calendarRunning)
    (hdate : next.dateTime =
      if rtc.calendarRunning ∧ rtc.divider256hzPhase = 1 ∧ rtc.counter64hz = 0x7F then
        incrementSecond rtc.dateTime
      else rtc.dateTime) : rtc.Ticks next := by
  obtain ⟨htoggled, hdivider', hcounter', -, hcounted⟩ := phase_step hdivider hcounter
  refine ⟨hnextDivider ▸ hdivider', ?_, hrunning, ?_, ?_⟩
  · rw [hnextCounter]
    split
    · exact hcounter'
    · exact hcounter
  · unfold Sh4Rtc.subSecondPhase
    rw [hnextDivider, hnextCounter]
    by_cases hcarry : rtc.divider256hzPhase = 1
    · rw [if_pos hcarry, hcounted, htoggled.mpr hcarry, hcarry]
      have hzero : (0 : BitVec 8).toNat = 0 := rfl
      have hone : (1 : BitVec 8).toNat = 1 := rfl
      omega
    · have hlow : rtc.divider256hzPhase = 0 := by bv_omega
      rw [if_neg hcarry, hlow]
      have hone : (0 ^^^ 1 : BitVec 8).toNat = 1 := rfl
      have hzero : (0 : BitVec 8).toNat = 0 := rfl
      bv_omega
  · simp only [hdate, subSecondPhase_last hdivider]

theorem Sh4Rtc.ticked_ticks : rtc.Ticks rtc.ticked := by
  obtain ⟨htoggled, -, -, hwrapped, -⟩ := phase_step hdivider hcounter
  unfold Sh4Rtc.ticked
  extract_lets cleared counted period periodic toggled stepped carried
  -- nothing up to the toggle changes the calendar
  have hperiodic : periodic.divider256hzPhase = rtc.divider256hzPhase ∧
      periodic.counter64hz = rtc.counter64hz ∧ periodic.calendarRunning = rtc.calendarRunning ∧
        periodic.dateTime = rtc.dateTime := by
    unfold periodic
    split <;> exact ⟨rfl, rfl, rfl, rfl⟩
  obtain ⟨hphase, hsame, hrunning, hdate⟩ := hperiodic
  have htoggle : toggled.divider256hzPhase = rtc.divider256hzPhase ^^^ 1 := congrArg (· ^^^ 1) hphase
  have hstep : stepped.counter64hz = (rtc.counter64hz + 1) &&& 0x7F :=
    congrArg (fun counter => (counter + 1) &&& 0x7F) hsame
  by_cases hcarry : rtc.divider256hzPhase = 1
  · rw [if_pos (htoggle.trans (htoggled.mpr hcarry))]
    by_cases hlast : rtc.counter64hz = 0x7F
    · rw [if_pos (hstep.trans (hwrapped.mpr hlast))]
      by_cases hruns : rtc.calendarRunning = true
      · have hcarriedRuns : carried.calendarRunning = true := hrunning.trans hruns
        obtain ⟨halarm, halarmPhase, halarmCounter, halarmRunning⟩ :=
          updateAlarm_calendar { carried with dateTime := incrementSecond carried.dateTime }
        rw [if_pos hcarriedRuns]
        refine .of_fields hdivider hcounter (halarmPhase.trans htoggle) ?_
          (halarmRunning.trans hrunning) ?_
        · rw [if_pos hcarry]
          exact halarmCounter.trans hstep
        · rw [if_pos ⟨hruns, hcarry, hlast⟩]
          exact halarm.trans (congrArg incrementSecond hdate)
      · have hcarriedStands : ¬carried.calendarRunning = true := fun h => hruns (hrunning.symm.trans h)
        rw [if_neg hcarriedStands]
        refine .of_fields hdivider hcounter htoggle ?_ hrunning ?_
        · rw [if_pos hcarry]
          exact hstep
        · rw [if_neg fun h => hruns h.1]
          exact hdate
    · rw [if_neg fun h => hlast (hwrapped.mp (hstep.symm.trans h))]
      refine .of_fields hdivider hcounter htoggle ?_ hrunning ?_
      · rw [if_pos hcarry]
        exact hstep
      · rw [if_neg fun h => hlast h.2.2]
        exact hdate
  · rw [if_neg fun h => hcarry (htoggled.mp (htoggle.symm.trans h))]
    refine .of_fields hdivider hcounter htoggle ?_ hrunning ?_
    · rw [if_neg hcarry]
      exact hsame
    · rw [if_neg fun h => hcarry h.2.1]
      exact hdate

end

omit hdivider

/-- The events aside, the clocks stand alike. -/
structure Sh4Rtc.SameCalendar (rtc other : Sh4Rtc) : Prop where
  dateTime : other.dateTime = rtc.dateTime
  divider : other.divider256hzPhase = rtc.divider256hzPhase
  counter : other.counter64hz = rtc.counter64hz
  running : other.calendarRunning = rtc.calendarRunning

theorem scheduleTickIfEnabled_calendar (s : Timers) :
    Ensures scheduleTickIfEnabled s (fun _ t => s.rtc.SameCalendar t.rtc)
      (fun _ t => s.rtc.SameCalendar t.rtc) := by
  have hsame : s.rtc.SameCalendar s.rtc := ⟨rfl, rfl, rfl, rfl⟩
  unfold scheduleTickIfEnabled
  refine .bind (.get (.ite (fun _ => ?_) fun _ => .pure hsame))
  unfold scheduleTick
  refine .bind (.get (.bind (.ofChecked (fun deadline _ => .bind ?_) fun _ _ => hsame)))
  unfold Ensures schedule
  split
  · rename_i heq
    split at heq <;> cases heq
    exact ⟨rfl, rfl, rfl, rfl⟩
  · rename_i heq
    split at heq <;> cases heq
    exact hsame

/-- What a tick of the clock does, whether or not the next event can be scheduled. -/
theorem tick_calendar (s : Timers) : s.rtc.ticked.SameCalendar (resultState (tick s)).rtc := by
  have h : Ensures tick s (fun _ t => s.rtc.ticked.SameCalendar t.rtc)
      (fun _ t => s.rtc.ticked.SameCalendar t.rtc) := by
    unfold tick
    exact .bind (.update (scheduleTickIfEnabled_calendar (s.setRtc s.rtc.ticked)))
  unfold resultState
  cases hresult : tick s with
  | ok _ t => exact h.of_ok hresult
  | error _ t => exact h.of_error hresult

theorem Sh4Rtc.Ticks.same {next other : Sh4Rtc} (h : rtc.Ticks next)
    (hsame : next.SameCalendar other) : rtc.Ticks other where
  divider := hsame.divider ▸ h.divider
  counter := hsame.counter ▸ h.counter
  running := hsame.running.trans h.running
  phase := by
    unfold Sh4Rtc.subSecondPhase
    rw [hsame.counter, hsame.divider]
    exact h.phase
  dateTime := hsame.dateTime.trans h.dateTime

/-- Some ticks of the clock. -/
def ticks (s : Timers) (n : Nat) : Timers := (fun s => resultState (tick s))^[n] s

theorem ticks_succ (s : Timers) (n : Nat) : ticks s (n + 1) = resultState (tick (ticks s n)) :=
  Function.iterate_succ_apply' _ _ _

theorem ticks_calendar {s : Timers} (h : s.rtc.Registers) (n : Nat) :
    (ticks s n).rtc.divider256hzPhase ≤ 1 ∧ (ticks s n).rtc.counter64hz ≤ 0x7F ∧
      (ticks s n).rtc.calendarRunning = s.rtc.calendarRunning ∧
      (ticks s n).rtc.subSecondPhase = (s.rtc.subSecondPhase + n) % 256 ∧ (ticks s n).rtc.dateTime =
        incrementSecond^[if s.rtc.calendarRunning then (s.rtc.subSecondPhase + n) / 256 else 0]
          s.rtc.dateTime := by
  have hfirst : s.rtc.subSecondPhase < 256 := by
    have hdivider := h.divider
    have hcounter := h.counter
    unfold Sh4Rtc.subSecondPhase
    bv_omega
  induction n with
  | zero =>
    refine ⟨h.divider, h.counter, rfl, ?_, ?_⟩
    · exact (Nat.mod_eq_of_lt hfirst).symm
    · rw [Nat.add_zero, Nat.div_eq_of_lt hfirst, ite_self]
      rfl
  | succ n ih =>
    obtain ⟨hdivider, hcounter, hrunning, hphase, hdate⟩ := ih
    have htick := (Sh4Rtc.ticked_ticks hdivider hcounter).same (tick_calendar (ticks s n))
    rw [ticks_succ]
    refine ⟨htick.divider, htick.counter, htick.running.trans hrunning, ?_, ?_⟩
    · rw [htick.phase, hphase]
      omega
    · rw [htick.dateTime, hrunning, hphase, hdate]
      by_cases hruns : s.rtc.calendarRunning = true
      · by_cases hlast : (s.rtc.subSecondPhase + n) % 256 = 255
        · have hcount : (s.rtc.subSecondPhase + (n + 1)) / 256 =
            (s.rtc.subSecondPhase + n) / 256 + 1 := by omega
          rw [if_pos ⟨hruns, hlast⟩, if_pos hruns, if_pos hruns, hcount,
            Function.iterate_succ_apply']
        · have hcount : (s.rtc.subSecondPhase + (n + 1)) / 256 =
            (s.rtc.subSecondPhase + n) / 256 := by omega
          rw [if_neg fun h => hlast h.2, if_pos hruns, if_pos hruns, hcount]
      · rw [if_neg fun h => hruns h.1, if_neg hruns, if_neg hruns]

/-- Some seconds after a valid time: the second number is that many further, modulo the
ten thousand years, and the weekday has gone along with the days. -/
theorem iterate_incrementSecond {value : RtcDateTime} (h : value.Valid) (n : Nat) :
    (incrementSecond^[n] value).Valid ∧
      (incrementSecond^[n] value).secondNumber = (value.secondNumber + n) % calendarSeconds ∧
      ((incrementSecond^[n] value).dayOfWeek.toNat + value.dayNumber) % 7 =
        (value.dayOfWeek.toNat + (incrementSecond^[n] value).dayNumber) % 7 := by
  induction n with
  | zero =>
    rw [Function.iterate_zero_apply, Nat.add_zero, Nat.mod_eq_of_lt (secondNumber_lt h)]
    exact ⟨h, rfl, rfl⟩
  | succ n ih =>
    obtain ⟨hvalid, hseconds, hweekday⟩ := ih
    rw [Function.iterate_succ_apply']
    have hnext := incrementSecond_carried hvalid
    have hvalid' := hnext.valid hvalid
    have hweekday' := hnext.weekday hvalid
    refine ⟨hvalid', ?_, by omega⟩
    rw [← Nat.add_assoc, ← Nat.mod_add_mod, ← hseconds]
    obtain hstep | ⟨hlast, hzero⟩ := hnext.seconds hvalid
    · rw [← hstep, Nat.mod_eq_of_lt (secondNumber_lt hvalid')]
    · rw [hlast, Nat.mod_self, hzero]

/-- Calendar and ticks are exact: a valid time steps to the next second with its weekday, a
running calendar steps once each 256 ticks of its phase, and its date is then that many
seconds further. -/
theorem calendar_exact {s : Timers} (h : s.rtc.Registers) (n : Nat) :
    let seconds := if s.rtc.calendarRunning then (s.rtc.subSecondPhase + n) / 256 else 0
    let date := (ticks s n).rtc.dateTime
    (∀ value : RtcDateTime, value.Valid → (incrementSecond value).Valid ∧
      ((incrementSecond value).secondNumber = value.secondNumber + 1 ∨
        value.secondNumber + 1 = calendarSeconds ∧ (incrementSecond value).secondNumber = 0) ∧
      ((incrementSecond value).dayOfWeek.toNat + value.dayNumber) % 7 =
        (value.dayOfWeek.toNat + (incrementSecond value).dayNumber) % 7) ∧
      (ticks s n).rtc.subSecondPhase = (s.rtc.subSecondPhase + n) % 256 ∧
      date = incrementSecond^[seconds] s.rtc.dateTime ∧ date.Valid ∧
      date.secondNumber = (s.rtc.dateTime.secondNumber + seconds) % calendarSeconds ∧
      (date.dayOfWeek.toNat + s.rtc.dateTime.dayNumber) % 7 =
        (s.rtc.dateTime.dayOfWeek.toNat + date.dayNumber) % 7 := by
  intro seconds date
  obtain ⟨-, -, -, hphase, hdate⟩ := ticks_calendar h n
  have hdate : date = incrementSecond^[seconds] s.rtc.dateTime := hdate
  refine ⟨fun value hvalue => ?_, hphase, hdate, ?_⟩
  · have hnext := incrementSecond_carried hvalue
    exact ⟨hnext.valid hvalue, hnext.seconds hvalue, hnext.weekday hvalue⟩
  · rw [hdate]
    exact iterate_incrementSecond h.dateTime seconds

/-- A timer unit whose calendar stands. -/
def stoppedCalendar : Timers where
  scheduler := {}
  clock := { guestCyclesPerSecond := 200000000 }
  guestCyclesPerPeripheralCycle := 4

theorem stoppedCalendar_registers : stoppedCalendar.rtc.Registers :=
  ⟨by decide, by decide, by decide⟩

/-- A running calendar at the end of a year, one tick in front of the second. -/
def runningCalendar : Timers :=
  { stoppedCalendar with
    rtc :=
      { dateTime := ⟨1999, 12, 31, 5, 23, 59, 59⟩
        calendarRunning := true
        counter64hz := 0x7F
        divider256hzPhase := 1 } }

theorem calendar_exact_running : (ticks runningCalendar 513).rtc.subSecondPhase = 0 ∧
      (ticks runningCalendar 513).rtc.dateTime = ⟨2000, 1, 1, 6, 0, 0, 2⟩ ∧
      (ticks runningCalendar 513).rtc.dateTime.Valid := by
  obtain ⟨-, hphase, hdate, hvalid⟩ := calendar_exact
    (⟨by decide, by decide, by decide⟩ : runningCalendar.rtc.Registers) 513
  exact ⟨hphase, hdate, hvalid.1⟩

/-- A stopped calendar keeps its second whatever the phase does. -/
theorem stopped_not_incremented : ¬∀ s : Timers, s.rtc.Registers → ∀ n, (ticks s n).rtc.dateTime =
      incrementSecond^[(s.rtc.subSecondPhase + n) / 256] s.rtc.dateTime := by
  intro h
  have hstep := h stoppedCalendar stoppedCalendar_registers 256
  rw [(ticks_calendar stoppedCalendar_registers 256).2.2.2.2] at hstep
  exact absurd hstep (by decide)

end KatanaRecomp.Runtime.Timer
