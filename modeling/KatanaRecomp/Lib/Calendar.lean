import Mathlib.Tactic.Ring

/-! # The Gregorian calendar

Day and second numbers of dates and times counted from the first of January of
year zero, and what the next day and the next second are. -/
namespace KatanaRecomp.Lib.Calendar

def LeapYear (year : Nat) : Prop := year % 4 = 0 ∧ (year % 100 ≠ 0 ∨ year % 400 = 0)

instance (year : Nat) : Decidable (LeapYear year) := inferInstanceAs (Decidable (_ ∧ _))

def monthDays (year : Nat) : Nat → Nat
  | 2 => if LeapYear year then 29 else 28
  | 4 | 6 | 9 | 11 => 30
  | _ => 31

/-- The days of a year in front of a month. -/
def daysBeforeMonth (year : Nat) : Nat → Nat
  | 0 | 1 => 0
  | month + 1 => daysBeforeMonth year month + monthDays year month

def yearDays (year : Nat) : Nat := daysBeforeMonth year 13

def daysBeforeYear : Nat → Nat
  | 0 => 0
  | year + 1 => daysBeforeYear year + yearDays year

def dayNumber (year month day : Nat) : Nat :=
  daysBeforeYear year + daysBeforeMonth year month + (day - 1)

def secondNumber (year month day hour minute second : Nat) : Nat :=
  dayNumber year month day * 86400 + hour * 3600 + minute * 60 + second

theorem dayNumber_next {year month day : Nat} (hday : 1 ≤ day) :
    dayNumber year month (day + 1) = dayNumber year month day + 1 := by
  unfold dayNumber
  omega

theorem daysBeforeMonth_succ (year : Nat) {month : Nat} (hmonth : 1 ≤ month) :
    daysBeforeMonth year (month + 1) = daysBeforeMonth year month + monthDays year month := by
  obtain ⟨before, rfl⟩ := Nat.exists_eq_add_of_le' hmonth
  rfl

theorem dayNumber_nextMonth {year month day : Nat} (hmonth : 1 ≤ month) (hday : 1 ≤ day)
    (hlast : day = monthDays year month) :
    dayNumber year (month + 1) 1 = dayNumber year month day + 1 := by
  unfold dayNumber
  rw [daysBeforeMonth_succ year hmonth]
  omega

theorem dayNumber_nextYear {year day : Nat} (hday : 1 ≤ day) (hlast : day = monthDays year 12) :
    dayNumber (year + 1) 1 1 = dayNumber year 12 day + 1 := by
  unfold dayNumber
  have hyear : yearDays year = daysBeforeMonth year 12 + monthDays year 12 :=
    daysBeforeMonth_succ year (by decide)
  have hfirst : daysBeforeMonth (year + 1) 1 = 0 := rfl
  rw [daysBeforeYear, hyear, hfirst]
  omega

theorem dayNumber_first (year : Nat) : dayNumber year 1 1 = daysBeforeYear year := rfl

/-! ## The cycle of four hundred years -/

theorem leapYear_add (year : Nat) : LeapYear (year + 400) ↔ LeapYear year := by
  unfold LeapYear
  omega

theorem yearDays_eq (year : Nat) : yearDays year = if LeapYear year then 366 else 365 := by
  unfold yearDays
  simp only [daysBeforeMonth, monthDays]
  split <;> rfl

theorem daysBeforeYear_add (year : Nat) :
    daysBeforeYear (year + 400) = daysBeforeYear year + 146097 := by
  induction year with
  | zero => decide +kernel
  | succ year ih =>
    have hsame : yearDays (year + 400) = yearDays year := by
      rw [yearDays_eq, yearDays_eq]
      simp only [leapYear_add]
    have hstep : daysBeforeYear (year + 1 + 400) =
        daysBeforeYear (year + 400) + yearDays (year + 400) := by
      rw [Nat.add_right_comm]
      rfl
    rw [hstep, ih, hsame, daysBeforeYear]
    omega

/-- Any number of whole cycles has a whole number of weeks. -/
theorem daysBeforeYear_cycles (cycles : Nat) : daysBeforeYear (400 * cycles) = 146097 * cycles := by
  induction cycles with
  | zero => rfl
  | succ cycles ih => rw [Nat.mul_succ, daysBeforeYear_add, ih, Nat.mul_succ]

end KatanaRecomp.Lib.Calendar
