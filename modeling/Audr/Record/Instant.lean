import Audr.Lib.Cuts
import Audr.Record.Moment

/-! The moments that texts are read as, and which texts `to_rfc3339_ms` writes again. -/

namespace Audr.Record

open Timestamp (Parts padded fractionText zoneText)

/-- The instant of a date and time in microseconds, as `datetime` counts and cuts it. -/
def instant (parts : Parts) : ℤ := epochMicros + ⌊parts.sinceEpoch * 1000000⌋

/-- What `datetime.fromisoformat` makes of a text. -/
def Reads (moment : Moment) (text : String) : Prop :=
  ∃ parts, Timestamp.scan text.toList = some parts ∧ 1 ≤ parts.year ∧ parts.Real ∧ moment.utc = instant parts

/-- The instant of a text has a date in UTC. -/
def Placed (text : String) : Prop :=
  ∀ parts ∈ Timestamp.scan text.toList, 0 ≤ instant parts ∧ instant parts < momentsEnd

/-- The text of a moment of UTC with three digits of a second, in a year that is written with four. -/
def Spelled (library : Library) (text : String) : Prop :=
  ∀ parts ∈ Timestamp.scan text.toList,
    parts.fraction.length = 3 ∧ parts.zone = none ∧ library.year parts.year = padded 4 parts.year

instance (text : String) : Decidable (Placed text) := inferInstanceAs (Decidable (∀ _ ∈ _, _))

instance (library : Library) (text : String) : Decidable (Spelled library text) :=
  inferInstanceAs (Decidable (∀ _ ∈ _, _))

variable {library : Library} {moment : Moment} {text : String} {parts : Parts}

theorem Reads.placed_iff (reads : Reads moment text) : Placed text ↔ 0 ≤ moment.utc ∧ moment.utc < momentsEnd := by
  obtain ⟨parts, scanned, -, -, same⟩ := reads
  rw [Placed, scanned, same]
  simp

/-- The instant of a moment of UTC with three digits of a second. -/
theorem instant_eq (first : 1 ≤ parts.year) (zone : parts.zone = none) (digits : parts.fraction.length = 3) :
    instant parts = (Calendar.dayNumber parts.year parts.month parts.day * microsPerDay +
      (((parts.hour * 60 + parts.minute) * 60 + parts.second) * 1000000 +
        Nat.ofDigitChars 10 parts.fraction 0 * 1000) : Nat) := by
  have years := @Calendar.daysBefore_eq parts.year (by omega)
  have epoch := @Calendar.daysBefore_eq 1970 (by decide)
  have start : Calendar.epochDay = Calendar.daysBeforeYear 1970 := by decide
  have whole : parts.sinceEpoch * 1000000 = (parts.daysSinceEpoch * 86400000000 +
      (((parts.hour * 60 + parts.minute) * 60 + parts.second) * 1000000 +
        Nat.ofDigitChars 10 parts.fraction 0 * 1000 : Nat) : ℤ) := by
    rw [Parts.sinceEpoch, Timestamp.fractionValue, zone, digits, Timestamp.minutesAhead]
    push_cast
    ring
  rw [instant, whole, Int.floor_intCast, epochMicros, Parts.daysSinceEpoch, years, epoch, Calendar.dayNumber, start]
  unfold microsPerDay
  push_cast
  ring

/-- What a clock of UTC shows at the instant of its own text. -/
theorem clockParts_instant (fits : parts.Fits) (real : parts.Real) (first : 1 ≤ parts.year) (zone : parts.zone = none)
    (digits : parts.fraction.length = 3) : clockParts (instant parts).toNat = parts := by
  have hour := real.hour
  have minute := real.minute
  have second := real.second
  have last : parts.year ≤ Calendar.lastYear := Nat.le_of_lt_succ fits.year
  have short : Nat.ofDigitChars 10 parts.fraction 0 < 1000 := by
    have bound := @Decimal.ofDigitChars_lt parts.fraction fun c member => by
      rw [← Timestamp.isDigit_eq]
      exact fits.fraction c member
    rwa [digits] at bound
  have fraction : padded 3 (Nat.ofDigitChars 10 parts.fraction 0) = parts.fraction := by
    apply Decimal.ofDigitChars_inj
    · intro c member
      rw [← Timestamp.isDigit_eq]
      exact Timestamp.padded_digits _ _ c member
    · intro c member
      rw [← Timestamp.isDigit_eq]
      exact fits.fraction c member
    · rw [Timestamp.padded_length short (by decide), digits]
    · exact ofDigitChars_padded _ _
  have date := Calendar.date_dayNumber ⟨first, last⟩ real.month real.day
  rw [instant_eq first zone digits, Int.toNat_natCast]
  generalize Nat.ofDigitChars 10 parts.fraction 0 = below at short fraction
  generalize Calendar.dayNumber parts.year parts.month parts.day = day at date
  obtain ⟨year, month, number, hours, minutes, seconds, tail, offset⟩ := parts
  dsimp only at *
  have days : (day * microsPerDay + (((hours * 60 + minutes) * 60 + seconds) * 1000000 + below * 1000)) / microsPerDay =
      day := by
    unfold microsPerDay
    omega
  rw [clockParts, days, date, zone]
  simp only [Parts.mk.injEq, true_and, and_true]
  unfold microsPerDay
  refine ⟨by omega, by omega, by omega, ?_⟩
  rw [← fraction]
  congr 1
  omega

/-- A text ends in one run of digits. -/
theorem digits_unique {front other digits more : List Char} {mark sign : Char}
    (all : ∀ c ∈ digits, Timestamp.isDigit c = true) (ends : Timestamp.isDigit mark = false)
    (every : ∀ c ∈ more, Timestamp.isDigit c = true) (halts : Timestamp.isDigit sign = false)
    (same : front ++ mark :: digits = other ++ sign :: more) : digits = more := by
  have reversed := congrArg List.reverse same
  simp only [List.reverse_append, List.reverse_cons, List.append_assoc] at reversed
  have cut := Cuts.cut_inj (fun c member => all c (List.mem_reverse.mp member)) (Cuts.stops_cons.mpr ends)
    (fun c member => every c (List.mem_reverse.mp member)) (Cuts.stops_cons.mpr halts) reversed
  exact List.reverse_injective cut.1

/-- The text of a clock has three digits of a second, and stands for UTC. -/
theorem shape_of_clockText (scanned : Timestamp.scan text.toList = some parts) {micros : Nat}
    (shown : clockText library micros = text) : parts.fraction.length = 3 ∧ parts.zone = none := by
  obtain ⟨fits, spelled⟩ := Timestamp.scan_eq_some.mp scanned
  have three : (clockParts micros).fraction.length = 3 := Timestamp.padded_length (by omega) (by decide)
  have digit : ∀ c ∈ (clockParts micros).fraction, Timestamp.isDigit c = true := Timestamp.padded_digits 3 _
  obtain ⟨front, clock⟩ : ∃ front, text.toList = front ++ '.' :: ((clockParts micros).fraction ++ ['Z']) := by
    rw [← shown, clockText, String.toList_ofList]
    exact ⟨library.year (clockParts micros).year ++ '-' :: (padded 2 (clockParts micros).month ++ '-' ::
      (padded 2 (clockParts micros).day ++ 'T' :: (padded 2 (clockParts micros).hour ++ ':' ::
        (padded 2 (clockParts micros).minute ++ ':' :: padded 2 (clockParts micros).second)))), by simp⟩
  obtain ⟨other, written⟩ : ∃ other, text.toList =
      other ++ ':' :: (padded 2 parts.second ++ (fractionText parts.fraction ++ zoneText parts.zone)) := by
    rw [spelled, Parts.text]
    exact ⟨padded 4 parts.year ++ '-' :: (padded 2 parts.month ++ '-' :: (padded 2 parts.day ++ 'T' ::
      (padded 2 parts.hour ++ ':' :: padded 2 parts.minute))), by simp⟩
  have zone : parts.zone = none := by
    cases zoned : parts.zone with
    | none => rfl
    | some offset =>
      obtain ⟨minus, hours, minutes⟩ := offset
      have few : minutes < 10 ^ 2 := (fits.zone _ zoned).2
      have two : (padded 2 minutes).length = 2 := Timestamp.padded_length few (by decide)
      rw [zoned, zoneText] at written
      have ended := congrArg List.getLast? (clock.symm.trans written)
      have last : (padded 2 minutes).getLast? = some 'Z' := by
        cases spelled : padded 2 minutes with
        | nil => simp [spelled] at two
        | cons c rest => simpa [spelled, List.getLast?_append, List.getLast?_cons] using ended.symm
      exact absurd (Timestamp.padded_digits _ _ _ (List.mem_of_getLast? last)) (by decide)
  refine ⟨?_, zone⟩
  rw [zone, zoneText, ← List.append_assoc] at written
  have same := clock.symm.trans written
  rw [← List.cons_append, ← List.append_assoc, ← List.cons_append, ← List.append_assoc] at same
  have same := List.append_cancel_right same
  by_cases none : parts.fraction = []
  · rw [none, fractionText, if_pos rfl, List.append_nil] at same
    have equal := digits_unique digit (by decide) (Timestamp.padded_digits 2 _) (by decide) same
    have two : (padded 2 parts.second).length = 2 := Timestamp.padded_length fits.second (by decide)
    rw [← equal, three] at two
    cases two
  · rw [fractionText, if_neg none, ← List.cons_append, ← List.append_assoc] at same
    rw [← digits_unique digit (by decide) fits.fraction (by decide) same, three]

/-- `to_rfc3339_ms` writes the text a moment was read from where it is spelled that way. -/
theorem Reads.spelled_iff (reads : Reads moment text) :
    clockText library moment.utc.toNat = text ↔ Spelled library text := by
  obtain ⟨parts, scanned, first, real, same⟩ := reads
  obtain ⟨fits, spelled⟩ := Timestamp.scan_eq_some.mp scanned
  have shown : ∀ digits : parts.fraction.length = 3, parts.zone = none →
      (clockText library moment.utc.toNat = text ↔ library.year parts.year = padded 4 parts.year) := by
    intro digits zone
    have some : parts.fraction ≠ [] := by
      intro none
      rw [none] at digits
      cases digits
    rw [same, clockText, clockParts_instant fits real first zone digits, ← String.toList_inj, String.toList_ofList, spelled,
      Parts.text, zone, fractionText, if_neg some, zoneText]
    simp
  simp only [Spelled, scanned, Option.mem_some_iff, forall_eq']
  constructor
  · intro written
    obtain ⟨digits, zone⟩ := shape_of_clockText scanned written
    exact ⟨digits, zone, (shown digits zone).mp written⟩
  · intro spelled
    exact (shown spelled.1 spelled.2.1).mpr spelled.2.2

example : ¬Placed "0001-01-01T00:00:00+05:00" ∧ ¬Spelled Library.plain "2025-01-01T00:00:00Z" ∧
    Spelled Library.plain "2025-01-01T00:00:00.000Z" := by decide +kernel

end Audr.Record
