import Mathlib.Algebra.GroupWithZero.Nat
import Mathlib.Data.List.Basic

/-! The proleptic Gregorian calendar: days counted from the first of January of the year 1, and
from that of the year 0. -/

namespace Audr.Calendar

def leap (year : Nat) : Bool := year % 4 = 0 && (year % 100 ≠ 0 || year % 400 = 0)

/-- The days of all earlier years. -/
def daysBeforeYear (year : Nat) : Nat := (year - 1) * 365 + (year - 1) / 4 - (year - 1) / 100 + (year - 1) / 400

def monthLengths (year : Nat) : List Nat :=
  [31, if leap year then 29 else 28, 31, 30, 31, 30, 31, 31, 30, 31, 30, 31]

/-- The length of a month, where January is 1. -/
def monthLength (year month : Nat) : Nat := (monthLengths year).getD (month - 1) 0

def daysBeforeMonth (year month : Nat) : Nat := ((monthLengths year).take (month - 1)).sum

/-- The number of a day, from 0. -/
def dayNumber (year month day : Nat) : Nat := daysBeforeYear year + daysBeforeMonth year month + (day - 1)

/-- The first of January 1970. -/
def epochDay : Nat := dayNumber 1970 1 1

def yearLength (year : Nat) : Nat := if leap year then 366 else 365

/-- The days from the first of January of the year 0 to that of a year. -/
def daysBefore : Nat → Nat
  | 0 => 0
  | year + 1 => daysBefore year + yearLength year

theorem daysBeforeYear_succ {year : Nat} (positive : 0 < year) :
    daysBeforeYear (year + 1) = daysBeforeYear year + yearLength year := by
  obtain ⟨earlier, rfl⟩ : ∃ earlier, year = earlier + 1 := ⟨year - 1, by omega⟩
  have leaps : leap (earlier + 1) = true ↔ 4 ∣ earlier + 1 ∧ (¬100 ∣ earlier + 1 ∨ 400 ∣ earlier + 1) := by
    simp [leap, Nat.dvd_iff_mod_eq_zero]
  have order : earlier / 100 ≤ earlier / 4 := Nat.div_le_div_left (by decide) (by decide)
  unfold daysBeforeYear yearLength
  simp only [Nat.add_sub_cancel, leaps, Nat.succ_div]
  by_cases fourth : 4 ∣ earlier + 1
  · by_cases hundredth : 100 ∣ earlier + 1
    · by_cases last : 400 ∣ earlier + 1 <;> simp only [fourth, hundredth, last] <;> simp <;> omega
    · have not400 : ¬400 ∣ earlier + 1 := fun divides => hundredth (Nat.dvd_trans (by decide) divides)
      simp only [fourth, hundredth, not400]
      simp
      omega
  · have not100 : ¬100 ∣ earlier + 1 := fun divides => fourth (Nat.dvd_trans (by decide) divides)
    have not400 : ¬400 ∣ earlier + 1 := fun divides => fourth (Nat.dvd_trans (by decide) divides)
    simp only [fourth, not100, not400]
    simp
    omega

/-- From the year 1 on, the two counts differ by the year 0. -/
theorem daysBefore_eq {year : Nat} (positive : 0 < year) : daysBefore year = 366 + daysBeforeYear year := by
  induction year with
  | zero => cases positive
  | succ year ih =>
    by_cases later : 0 < year
    · rw [daysBefore, ih later, daysBeforeYear_succ later]
      omega
    · have first : year = 0 := by omega
      subst first
      decide

theorem daysBefore_mono {earlier later : Nat} (order : earlier ≤ later) :
    daysBefore earlier + 365 * (later - earlier) ≤ daysBefore later := by
  induction order with
  | refl => simp
  | @step later order ih =>
    have long : 365 ≤ yearLength later := by
      unfold yearLength
      split <;> omega
    have counted : earlier ≤ later := order
    rw [daysBefore]
    omega

/-- The days of 400 years are the same wherever they start. -/
theorem daysBefore_cycle (year : Nat) : daysBefore (year + 400) = daysBefore year + 146097 := by
  by_cases positive : 0 < year
  · rw [daysBefore_eq positive, @daysBefore_eq (year + 400) (by omega), daysBeforeYear, daysBeforeYear]
    omega
  · have first : year = 0 := by omega
    subst first
    decide +kernel

theorem leap_cycle (year : Nat) : leap (year + 400) = leap year := by
  rw [Bool.eq_iff_iff]
  simp only [leap, Bool.and_eq_true, Bool.or_eq_true, decide_eq_true_eq]
  omega

/-- A leap day moves the months after it by one day at most. -/
theorem daysBeforeMonth_le (year later month : Nat) : daysBeforeMonth year month ≤ daysBeforeMonth later month + 1 := by
  unfold daysBeforeMonth monthLengths
  rcases month - 1 with _ | _ | count
  · simp
  · simp
  · simp only [List.take_succ_cons, List.sum_cons]
    split <;> split <;> omega

/-- A day that exists in a common year exists in every year. -/
theorem monthLength_le {year later : Nat} (leaps : leap year = true → leap later = true) (month : Nat) :
    monthLength year month ≤ monthLength later month := by
  unfold monthLength monthLengths
  rcases month - 1 with _ | _ | count
  · simp
  · by_cases long : leap year = true
    · simp [long, leaps long]
    · simp only [long]
      by_cases longer : leap later = true <;> simp [longer]
  · simp

end Audr.Calendar
