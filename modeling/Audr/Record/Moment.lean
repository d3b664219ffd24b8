import Audr.Lib.Dates
import Audr.Lib.Instants
import Audr.Python

/-! The aware datetimes of the Python package, and the text they are written as. -/

namespace Audr.Record

open Timestamp (Parts padded)

/-- An aware `datetime`: what its clock shows, in microseconds since the first of January of the
year 1, and how far that clock is ahead of UTC. -/
structure Moment where
  wall : Int
  ahead : Int
  deriving DecidableEq, Repr

def microsPerDay : Nat := 86400000000

/-- Where `datetime` ends: after the year 9999. -/
def momentsEnd : Nat := Calendar.daysBeforeYear (Calendar.lastYear + 1) * microsPerDay

/-- What the code takes of Python's `re` and of `strftime`. -/
structure Library where
  /-- `\d` -/
  digit : Char → Bool
  /-- `%Y` -/
  year : Nat → List Char
  digit_ascii : ∀ c, c.toNat < 128 → digit c = Timestamp.isDigit c
  year_four : ∀ year', 1000 ≤ year' → year' < 10 ^ 4 → year year' = padded 4 year'

/-- ASCII digits, and years filled up with zeros. -/
def Library.plain : Library := ⟨Timestamp.isDigit, padded 4, fun _ _ => rfl, fun _ _ _ => rfl⟩

namespace Moment

/-- What a clock of UTC shows at a moment. -/
def utc (moment : Moment) : Int := moment.wall - moment.ahead

/-- `value.microsecond % 1000`. -/
def belowMillisecond (moment : Moment) : Int := moment.wall % 1000

end Moment

/-- The parts of what a clock of UTC shows, with whole milliseconds. -/
def clockParts (micros : Nat) : Parts :=
  let date := Calendar.date (micros / microsPerDay)
  ⟨date.year, date.month, date.day, micros % microsPerDay / 3600000000, micros / 60000000 % 60, micros / 1000000 % 60,
    padded 3 (micros / 1000 % 1000), none⟩

/-- `strftime("%Y-%m-%dT%H:%M:%S.") + f"{microsecond // 1000:03d}Z"`. -/
def clockText (library : Library) (micros : Nat) : String :=
  let parts := clockParts micros
  String.ofList (library.year parts.year ++ '-' :: (padded 2 parts.month ++ '-' :: (padded 2 parts.day ++ 'T' ::
    (padded 2 parts.hour ++ ':' :: (padded 2 parts.minute ++ ':' :: (padded 2 parts.second ++ '.' ::
      (parts.fraction ++ ['Z'])))))))

/-- `to_rfc3339_ms`; `astimezone` raises where the date has no place in UTC. -/
def toRfc3339Ms (library : Library) (moment : Moment) : Except Python.Exception String :=
  if 0 ≤ moment.utc ∧ moment.utc < momentsEnd then .ok (clockText library moment.utc.toNat)
  else .error .overflowError

/-- The first of January 1970, on a clock of UTC. -/
def epochMicros : Int := (Calendar.epochDay * microsPerDay : Nat)

/-- Whole milliseconds since 1970, of what a clock of UTC shows. -/
def sinceEpochMs (micros : Int) : Int := (micros - epochMicros) / 1000

variable {micros : Nat}

theorem clockDate (inside : micros < momentsEnd) :
    (1 ≤ (clockParts micros).year ∧ (clockParts micros).year ≤ Calendar.lastYear) ∧
      (1 ≤ (clockParts micros).month ∧ (clockParts micros).month ≤ 12) ∧
      (1 ≤ (clockParts micros).day ∧
        (clockParts micros).day ≤ Calendar.monthLength (clockParts micros).year (clockParts micros).month) ∧
      Calendar.dayNumber (clockParts micros).year (clockParts micros).month (clockParts micros).day =
        micros / microsPerDay := by
  apply Calendar.date_spec
  rw [Nat.div_lt_iff_lt_mul (by decide)]
  exact inside

theorem clockParts_real (inside : micros < momentsEnd) : (clockParts micros).Real := by
  obtain ⟨-, month, day, -⟩ := clockDate inside
  refine ⟨month, day, ?_, ?_, ?_, by simp [clockParts]⟩
  · have short : micros % microsPerDay < microsPerDay := Nat.mod_lt _ (by decide)
    simp only [clockParts]
    unfold microsPerDay at *
    omega
  · simp only [clockParts]
    omega
  · simp only [clockParts]
    omega

theorem clockParts_fits (inside : micros < momentsEnd) : (clockParts micros).Fits := by
  have real := clockParts_real inside
  obtain ⟨year, -⟩ := clockDate inside
  have last : Calendar.lastYear = 9999 := rfl
  have longest : ∀ year month, Calendar.monthLength year month ≤ 31 := by
    intro year month
    unfold Calendar.monthLength Calendar.monthLengths
    rcases month - 1 with _ | _ | _ | _ | _ | _ | _ | _ | _ | _ | _ | _ | rest <;> simp
    split <;> omega
  have day := longest (clockParts micros).year (clockParts micros).month
  have bounds := real.day
  have months := real.month
  have hours := real.hour
  have minutes := real.minute
  have seconds := real.second
  exact ⟨by omega, by omega, by omega, by omega, by omega, by omega, Timestamp.padded_digits 3 _, by simp [clockParts]⟩

theorem ofDigitChars_padded (width n : Nat) : Nat.ofDigitChars 10 (padded width n) 0 = n := by
  simp [padded, List.leftpad, Timestamp.ofDigitChars_zeros, Nat.ofDigitChars_ten_toDigits]

/-- The text of a moment denotes it, to the millisecond. -/
theorem clockParts_milliseconds (inside : micros < momentsEnd) :
    (clockParts micros).milliseconds = sinceEpochMs micros := by
  obtain ⟨year, -, -, number⟩ := clockDate inside
  have days : (clockParts micros).daysSinceEpoch = (micros / microsPerDay : Nat) - (Calendar.epochDay : Int) := by
    have first : Calendar.epochDay = Calendar.daysBeforeYear 1970 := by decide
    have years := @Calendar.daysBefore_eq (clockParts micros).year (by omega)
    have epoch := @Calendar.daysBefore_eq 1970 (by decide)
    rw [Parts.daysSinceEpoch, years, epoch, ← number, first, Calendar.dayNumber]
    push_cast
    ring
  have fraction : (clockParts micros).fraction = padded 3 (micros / 1000 % 1000) := rfl
  have digits : (padded 3 (micros / 1000 % 1000)).length = 3 := Timestamp.padded_length (by omega) (by decide)
  have hour : (clockParts micros).hour = micros % microsPerDay / 3600000000 := rfl
  have minute : (clockParts micros).minute = micros / 60000000 % 60 := rfl
  have second : (clockParts micros).second = micros / 1000000 % 60 := rfl
  have zone : (clockParts micros).zone = none := rfl
  rw [Timestamp.milliseconds_eq, days, fraction, ofDigitChars_padded, digits, hour, minute, second, zone, sinceEpochMs,
    epochMicros, Timestamp.minutesAhead]
  unfold microsPerDay
  push_cast
  omega

/-- From the year 1000 on, the text is that of the parts. -/
theorem clockText_eq (library : Library) (inside : micros < momentsEnd) (modern : 1000 ≤ (clockParts micros).year) :
    clockText library micros = String.ofList (clockParts micros).text := by
  have fits := clockParts_fits inside
  have digits : (clockParts micros).fraction ≠ [] := by
    have length : (clockParts micros).fraction.length = 3 := Timestamp.padded_length (by omega) (by decide)
    intro none
    rw [none, List.length_nil] at length
    cases length
  rw [clockText, library.year_four _ modern fits.year, Parts.text, Timestamp.fractionText, if_neg digits]
  rfl

end Audr.Record
