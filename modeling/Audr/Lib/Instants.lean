import Audr.Lib.Timestamp
import Mathlib.Algebra.Order.Field.Rat
import Mathlib.Data.Rat.Floor
import Mathlib.Tactic.FieldSimp
import Mathlib.Tactic.Linarith
import Mathlib.Tactic.Ring

/-! The moments that timestamps denote: which dates and times exist, and how long after the first
of January 1970 they are. -/

namespace Audr.Timestamp

/-- The parts are those of a date and a time that exist. -/
structure Parts.Real (parts : Parts) : Prop where
  month : 1 ≤ parts.month ∧ parts.month ≤ 12
  day : 1 ≤ parts.day ∧ parts.day ≤ Calendar.monthLength parts.year parts.month
  hour : parts.hour ≤ 23
  minute : parts.minute ≤ 59
  second : parts.second ≤ 59
  offset : ∀ zone ∈ parts.zone, zone.2.1 ≤ 23 ∧ zone.2.2 ≤ 59

/-- The part of a second some digits stand for. -/
def fractionValue (digits : List Char) : ℚ := (Nat.ofDigitChars 10 digits 0 : ℚ) / (10 ^ digits.length : ℕ)

/-- How many minutes the clocks of a zone are ahead. -/
def minutesAhead : Option (Bool × Nat × Nat) → ℤ
  | none => 0
  | some (false, hours, minutes) => hours * 60 + minutes
  | some (true, hours, minutes) => -(hours * 60 + minutes)

def Parts.daysSinceEpoch (parts : Parts) : ℤ :=
  (Calendar.daysBefore parts.year + Calendar.daysBeforeMonth parts.year parts.month + (parts.day - 1) : Nat) -
    Calendar.daysBefore 1970

/-- The exact time since the first of January 1970, in seconds. -/
def Parts.sinceEpoch (parts : Parts) : ℚ :=
  parts.daysSinceEpoch * 86400 + parts.hour * 3600 + parts.minute * 60 + parts.second + fractionValue parts.fraction -
    minutesAhead parts.zone * 60

/-- The same in milliseconds, where what is below one is cut off. -/
def Parts.milliseconds (parts : Parts) : ℤ := ⌊parts.sinceEpoch * 1000⌋

/-- The first three digits of a fraction, filled up with zeros, are its whole milliseconds. -/
theorem leadingDigits_eq {digits : List Char} (digit : ∀ c ∈ digits, isDigit c = true) :
    Nat.ofDigitChars 10 ((digits.take 3).rightpad 3 '0') 0 = Nat.ofDigitChars 10 digits 0 * 1000 / 10 ^ digits.length := by
  by_cases long : 3 ≤ digits.length
  · have taken : (digits.take 3).length = 3 := List.length_take_of_le long
    have full : (digits.take 3).rightpad 3 '0' = digits.take 3 := by
      rw [List.rightpad, taken]
      simp
    have rest := @Decimal.ofDigitChars_lt (digits.drop 3) fun c member => by
      rw [← isDigit_eq]
      exact digit c (List.mem_of_mem_drop member)
    have length : digits.length = 3 + (digits.drop 3).length := by
      rw [List.length_drop]
      omega
    have split : Nat.ofDigitChars 10 digits 0 =
        10 ^ (digits.drop 3).length * Nat.ofDigitChars 10 (digits.take 3) 0 + Nat.ofDigitChars 10 (digits.drop 3) 0 := by
      conv_lhs => rw [← List.take_append_drop 3 digits]
      rw [Nat.ofDigitChars_append, Nat.ofDigitChars_eq_ofDigitChars_zero]
    rw [full, split, length, Nat.pow_add, Nat.mul_comm _ 1000]
    apply (Nat.div_eq_of_lt_le _ _).symm
    · nlinarith
    · nlinarith
  · have filled : (digits.take 3).rightpad 3 '0' = digits ++ List.replicate (3 - digits.length) '0' := by
      rw [List.take_of_length_le (by omega), List.rightpad]
    have power : 1000 = 10 ^ (3 - digits.length) * 10 ^ digits.length := by
      rw [← Nat.pow_add, Nat.sub_add_cancel (by omega)]
    rw [filled, Nat.ofDigitChars_append, Nat.ofDigitChars_replicate_zero]
    conv_rhs => rw [power, ← Nat.mul_assoc]
    rw [Nat.mul_div_cancel _ (by positivity), Nat.mul_comm]

/-- The milliseconds of a moment, counted part by part. -/
theorem milliseconds_eq (parts : Parts) :
    parts.milliseconds = parts.daysSinceEpoch * 86400000 +
      (((parts.hour * 60 + parts.minute) * 60 + parts.second) * 1000 +
        Nat.ofDigitChars 10 parts.fraction 0 * 1000 / 10 ^ parts.fraction.length : Nat) - minutesAhead parts.zone * 60000 := by
  have split : parts.sinceEpoch * 1000 = ((Nat.ofDigitChars 10 parts.fraction 0 * 1000 : Nat) : ℚ) /
      (10 ^ parts.fraction.length : Nat) + (parts.daysSinceEpoch * 86400000 +
        (((parts.hour * 60 + parts.minute) * 60 + parts.second) * 1000 : Nat) - minutesAhead parts.zone * 60000 : ℤ) := by
    unfold Parts.sinceEpoch fractionValue
    push_cast
    ring
  rw [Parts.milliseconds, split, Int.floor_add_intCast, Rat.floor_natCast_div_natCast]
  push_cast
  ring

/-- The same date and time in a later year is later. -/
theorem milliseconds_lt {parts : Parts} {later : Nat} (after : parts.year < later) :
    parts.milliseconds < { parts with year := later }.milliseconds := by
  have years := Calendar.daysBefore_mono after.le
  have months := Calendar.daysBeforeMonth_le parts.year later parts.month
  have days : parts.daysSinceEpoch < { parts with year := later }.daysSinceEpoch := by
    simp only [Parts.daysSinceEpoch]
    omega
  rw [milliseconds_eq, milliseconds_eq]
  dsimp only
  omega

end Audr.Timestamp
