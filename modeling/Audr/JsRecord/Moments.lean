import Audr.JsRecord.Validate
import Audr.Lib.Instants

/-! What `parseTimestamp` reads, and where that is not the moment a text denotes: `Date.UTC` takes
the years up to 99 for those of the twentieth century. -/

namespace Audr.JsRecord

open Timestamp (Parts)

/-- The parts of the moment that is read. -/
def readParts (parts : Parts) : Parts := { parts with year := fullYear parts.year }

theorem hundred_le_fullYear (year : Nat) : 100 ≤ fullYear year := by
  unfold fullYear
  split <;> omega

theorem inRange_iff {parts : Parts} : inRange parts = true ↔ (readParts parts).Real := by
  constructor
  · intro ranged
    simp only [inRange, Bool.and_eq_true, decide_eq_true_eq, Option.all_eq_true] at ranged
    obtain ⟨⟨⟨⟨⟨⟨⟨low, high⟩, first⟩, last⟩, hour⟩, minute⟩, second⟩, zone⟩ := ranged
    exact ⟨⟨low, high⟩, ⟨first, last⟩, hour, minute, second, zone⟩
  · rintro ⟨month, day, hour, minute, second, zone⟩
    simp only [inRange, Bool.and_eq_true, decide_eq_true_eq, Option.all_eq_true]
    exact ⟨⟨⟨⟨⟨⟨⟨month.1, month.2⟩, day.1⟩, day.2⟩, hour⟩, minute⟩, second⟩, zone⟩

theorem offsetMinutes_eq (zone : Option (Bool × Nat × Nat)) : offsetMinutes zone = Timestamp.minutesAhead zone := by
  rcases zone with _ | ⟨_ | _, hours, minutes⟩ <;> simp [offsetMinutes, Timestamp.minutesAhead]

theorem epochMs_eq {parts : Parts} (fits : parts.Fits) : epochMs parts = (readParts parts).milliseconds := by
  have positive := hundred_le_fullYear parts.year
  have years := @Calendar.daysBefore_eq (fullYear parts.year) (by omega)
  have epoch := @Calendar.daysBefore_eq 1970 (by decide)
  have first : Calendar.epochDay = Calendar.daysBeforeYear 1970 := by decide
  rw [epochMs, Timestamp.milliseconds_eq, milliseconds, Timestamp.leadingDigits_eq fits.fraction, offsetMinutes_eq]
  simp only [Parts.daysSinceEpoch, readParts, Calendar.dayNumber, first, years, epoch]
  push_cast
  ring

/-- A day of one of the first hundred years that is read as one of the twentieth century exists. -/
theorem readParts_real {parts : Parts} (real : (readParts parts).Real) : parts.Real := by
  have leaps : Calendar.leap (fullYear parts.year) = true → Calendar.leap parts.year = true := by
    unfold fullYear
    split
    · simp only [Calendar.leap, Bool.and_eq_true, Bool.or_eq_true, decide_eq_true_eq]
      omega
    · exact id
  have longer := Calendar.monthLength_le leaps parts.month
  exact ⟨real.month, ⟨real.day.1, real.day.2.trans longer⟩, real.hour, real.minute, real.second, real.offset⟩

/-- Only the leap day of the year 0 is not read. -/
theorem readParts_real_iff {parts : Parts} (real : parts.Real) :
    (readParts parts).Real ↔ ¬(parts.year = 0 ∧ parts.month = 2 ∧ parts.day = 29) := by
  constructor
  · rintro ⟨-, day, -⟩ ⟨year, month, last⟩
    have length : Calendar.monthLength (fullYear 0) 2 = 28 := by decide
    simp only [readParts, year, month, last, length] at day
    omega
  · intro other
    by_cases leaps : Calendar.leap parts.year = Calendar.leap (fullYear parts.year)
    · have same : Calendar.monthLength (fullYear parts.year) parts.month = Calendar.monthLength parts.year parts.month := by
        rw [Calendar.monthLength, Calendar.monthLength, Calendar.monthLengths, Calendar.monthLengths, leaps]
      exact ⟨real.month, ⟨real.day.1, by rw [readParts, same]; exact real.day.2⟩, real.hour, real.minute, real.second,
        real.offset⟩
    · have first : parts.year = 0 := by
        unfold fullYear at leaps
        split at leaps
        · rw [Bool.eq_iff_iff] at leaps
          simp only [Calendar.leap, Bool.and_eq_true, Bool.or_eq_true, decide_eq_true_eq] at leaps
          omega
        · exact absurd rfl leaps
      have shorter : ∀ month ∈ List.range 13, ∀ day ∈ List.range 32, day ≤ Calendar.monthLength 0 month →
          ¬(month = 2 ∧ day = 29) → day ≤ Calendar.monthLength (fullYear 0) month := by decide
      obtain ⟨low, last⟩ := real.day
      have bound : parts.day < 32 := by
        have longest : ∀ month ∈ List.range 13, Calendar.monthLength 0 month ≤ 31 := by decide
        have here := longest parts.month (List.mem_range.mpr (by have := real.month.2; omega))
        rw [first] at last
        omega
      have fits := shorter parts.month (List.mem_range.mpr (by have := real.month.2; omega)) parts.day
        (List.mem_range.mpr bound) (by rwa [first] at last) fun leapDay => other ⟨first, leapDay⟩
      exact ⟨real.month, ⟨low, by rw [readParts, first]; exact fits⟩, real.hour, real.minute, real.second, real.offset⟩

theorem readParts_eq {parts : Parts} (late : ¬parts.year ≤ 99) : readParts parts = parts := by
  rw [readParts, fullYear, if_neg late]

/-- A moment of the first hundred years is read as a later one. -/
theorem milliseconds_readParts {parts : Parts} (early : parts.year ≤ 99) :
    parts.milliseconds < (readParts parts).milliseconds := by
  apply Timestamp.milliseconds_lt
  rw [fullYear, if_pos early]
  omega

theorem parseTimestamp_eq_some {text : String} {read : Int × List Char} :
    parseTimestamp text = some read ↔ ∃ parts : Parts, parts.Fits ∧ text.toList = parts.text ∧ (readParts parts).Real ∧
      read = ((readParts parts).milliseconds, parts.fraction) := by
  unfold parseTimestamp
  constructor
  · intro parsed
    split at parsed
    next parts scanned =>
      obtain ⟨fits, written⟩ := Timestamp.scan_eq_some.mp scanned
      split at parsed
      next ranged =>
        cases parsed
        exact ⟨parts, fits, written, inRange_iff.mp ranged, by rw [epochMs_eq fits]⟩
      next => cases parsed
    next => cases parsed
  · rintro ⟨parts, fits, written, real, rfl⟩
    rw [Timestamp.scan_eq_some.mpr ⟨fits, written⟩]
    simp only [inRange_iff.mpr real, if_true, epochMs_eq fits]

/-- What is read from a text is the moment it denotes, to the millisecond, and nothing is read
from a text that denotes none. -/
def ReadsExactly (text : String) : Prop :=
  ∀ epochMs fraction, parseTimestamp text = some (epochMs, fraction) ↔
    ∃ parts : Parts, parts.Fits ∧ text.toList = parts.text ∧ parts.Real ∧ epochMs = parts.milliseconds ∧
      fraction = parts.fraction

/-- A text is read exactly but where it denotes a moment of the years 0000 to 0099. -/
theorem parseTimestamp_exact (text : String) :
    ReadsExactly text ↔ ¬∃ parts : Parts, parts.Fits ∧ text.toList = parts.text ∧ parts.Real ∧ parts.year ≤ 99 := by
  have single : ∀ {first second : Parts}, first.Fits → text.toList = first.text → second.Fits →
      text.toList = second.text → first = second := by
    intro first second fits written others rewritten
    have scanned := Timestamp.scan_eq_some.mpr ⟨fits, written⟩
    rw [Timestamp.scan_eq_some.mpr ⟨others, rewritten⟩] at scanned
    exact (Option.some.inj scanned).symm
  constructor
  · rintro exact ⟨parts, fits, written, real, early⟩
    have parsed := (exact parts.milliseconds parts.fraction).mpr ⟨parts, fits, written, real, rfl, rfl⟩
    obtain ⟨same, others, rewritten, -, moment⟩ := parseTimestamp_eq_some.mp parsed
    obtain rfl := single fits written others rewritten
    have later := milliseconds_readParts early
    rw [← (Prod.mk.inj moment).1] at later
    exact lt_irrefl _ later
  · intro late epochMs fraction
    rw [parseTimestamp_eq_some]
    have same : ∀ parts : Parts, parts.Fits → text.toList = parts.text → parts.Real → readParts parts = parts :=
      fun parts fits written real => readParts_eq fun early => late ⟨parts, fits, written, real, early⟩
    constructor
    · rintro ⟨parts, fits, written, real, moment⟩
      have exists' := readParts_real real
      rw [same parts fits written exists'] at moment
      exact ⟨parts, fits, written, exists', (Prod.mk.inj moment).1, (Prod.mk.inj moment).2⟩
    · rintro ⟨parts, fits, written, real, rfl, rfl⟩
      have read := same parts fits written real
      exact ⟨parts, fits, written, by rwa [read], by rw [read]⟩

def leapDay : Parts := ⟨0, 2, 29, 0, 0, 0, [], none⟩

theorem leapDay_real : leapDay.Fits ∧ "0000-02-29T00:00:00Z".toList = leapDay.text ∧ leapDay.Real := by
  refine ⟨⟨by decide, by decide, by decide, by decide, by decide, by decide, by simp [leapDay], by simp [leapDay]⟩, ?_, ?_⟩
  · decide +kernel
  · exact ⟨by decide, by decide, by decide, by decide, by decide, by simp [leapDay]⟩

/-- The year 0 is a leap year, and the year 1900 is not. -/
theorem leapDay_unread : ¬ReadsExactly "0000-02-29T00:00:00Z" := by
  intro exact
  obtain ⟨fits, written, real⟩ := leapDay_real
  have parsed := (exact leapDay.milliseconds []).mpr ⟨leapDay, fits, written, real, rfl, rfl⟩
  have unread : parseTimestamp "0000-02-29T00:00:00Z" = none := by decide +kernel
  rw [unread] at parsed
  cases parsed

end Audr.JsRecord
