import Audr.Lib.Calendar
import Audr.Lib.Decimal
import Mathlib.Data.List.TakeDrop
import Mathlib.Data.List.TakeWhile
import Mathlib.Data.Nat.Digits.Defs

/-! RFC 3339 timestamps: the parts of their text. -/

namespace Audr.Timestamp

/-- The parts of a timestamp; `zone` is a sign (true for minus), hours and minutes, and
`none` for `Z`. -/
structure Parts where
  year : Nat
  month : Nat
  day : Nat
  hour : Nat
  minute : Nat
  second : Nat
  fraction : List Char
  zone : Option (Bool × Nat × Nat)
  deriving DecidableEq

def isDigit (c : Char) : Bool := '0' ≤ c && c ≤ '9'

/-- `\d{n}`. -/
def digits? (n : Nat) (text : List Char) : Option (Nat × List Char) :=
  if n ≤ text.length ∧ (text.take n).all isDigit = true then
    some (Nat.ofDigitChars 10 (text.take n) 0, text.drop n)
  else none

def char? (c : Char) : List Char → Option (List Char)
  | [] => none
  | d :: rest => if d = c then some rest else none

/-- `(?:\.(\d+))?`. -/
def fraction? : List Char → Option (List Char × List Char)
  | '.' :: rest =>
      let (digits, after) := rest.span isDigit
      if digits = [] then none else some (digits, after)
  | text => some ([], text)

/-- `(?:Z|([+-])(\d{2}):(\d{2}))$`. -/
def zone? : List Char → Option (Option (Bool × Nat × Nat))
  | ['Z'] => some none
  | sign :: rest =>
      if sign = '+' ∨ sign = '-' then do
        let (hours, rest) ← digits? 2 rest
        let rest ← char? ':' rest
        let (minutes, rest) ← digits? 2 rest
        if rest = [] then some (some (sign = '-', hours, minutes)) else none
      else none
  | [] => none

/-- `^(\d{4})-(\d{2})-(\d{2})T(\d{2}):(\d{2}):(\d{2})(?:\.(\d+))?(?:Z|([+-])(\d{2}):(\d{2}))$`. -/
def scan (text : List Char) : Option Parts := do
  let (year, text) ← digits? 4 text
  let text ← char? '-' text
  let (month, text) ← digits? 2 text
  let text ← char? '-' text
  let (day, text) ← digits? 2 text
  let text ← char? 'T' text
  let (hour, text) ← digits? 2 text
  let text ← char? ':' text
  let (minute, text) ← digits? 2 text
  let text ← char? ':' text
  let (second, text) ← digits? 2 text
  let (fraction, text) ← fraction? text
  let zone ← zone? text
  return ⟨year, month, day, hour, minute, second, fraction, zone⟩

theorem fraction?_digits {text digits after : List Char} (scanned : fraction? text = some (digits, after)) :
    ∀ c ∈ digits, isDigit c = true := by
  unfold fraction? at scanned
  split at scanned
  · rename_i rest
    have taken : ∀ c ∈ (rest.span isDigit).1, isDigit c = true := by
      rw [List.span_eq_takeWhile_dropWhile]
      exact fun c => List.mem_takeWhile_imp
    simp only at scanned
    split at scanned
    · cases scanned
    · cases scanned
      exact taken
  · cases scanned
    simp

/-- A number with zeros before it, up to a width. -/
def padded (width n : Nat) : List Char := (Nat.toDigits 10 n).leftpad width '0'

theorem isDigit_eq (c : Char) : isDigit c = c.isDigit := by
  simp only [isDigit, Char.isDigit, Char.le_def, Bool.and_comm]

theorem ofDigitChars_zeros (count : Nat) (digits : List Char) :
    Nat.ofDigitChars 10 (List.replicate count '0' ++ digits) 0 = Nat.ofDigitChars 10 digits 0 := by
  induction count with
  | zero => rfl
  | succ count ih => simpa [List.replicate_succ, Nat.ofDigitChars_cons] using ih

theorem padded_digits (width n : Nat) : ∀ c ∈ padded width n, isDigit c = true := by
  intro c member
  rw [isDigit_eq]
  rw [padded, List.leftpad, List.mem_append] at member
  rcases member with zero | digit
  · rw [List.eq_of_mem_replicate zero]
    decide
  · exact Nat.isDigit_of_mem_toDigits (by decide) (by decide) digit

theorem padded_length {width n : Nat} (fits : n < 10 ^ width) (positive : 0 < width) : (padded width n).length = width := by
  have short := (Nat.length_toDigits_le_iff (by decide) positive).mpr fits
  simp [padded, List.leftpad]
  omega

/-- A padded number is scanned back. -/
theorem digits?_padded {width n : Nat} (fits : n < 10 ^ width) (positive : 0 < width) (rest : List Char) :
    digits? width (padded width n ++ rest) = some (n, rest) := by
  have length := padded_length fits positive
  have taken : (padded width n ++ rest).take width = padded width n := List.take_left' length
  have dropped : (padded width n ++ rest).drop width = rest := List.drop_left' length
  have scanned : (padded width n).all isDigit = true := List.all_eq_true.mpr (padded_digits width n)
  rw [digits?, taken, dropped, if_pos ⟨by simp [length], scanned⟩]
  simp [padded, List.leftpad, ofDigitChars_zeros, Nat.ofDigitChars_ten_toDigits]

/-! The texts that are scanned, written from their parts. -/

def fractionText (fraction : List Char) : List Char := if fraction = [] then [] else '.' :: fraction

def zoneText : Option (Bool × Nat × Nat) → List Char
  | none => ['Z']
  | some (minus, hours, minutes) => (if minus then '-' else '+') :: (padded 2 hours ++ ':' :: padded 2 minutes)

def Parts.text (parts : Parts) : List Char :=
  padded 4 parts.year ++ '-' :: (padded 2 parts.month ++ '-' :: (padded 2 parts.day ++ 'T' ::
    (padded 2 parts.hour ++ ':' :: (padded 2 parts.minute ++ ':' :: (padded 2 parts.second ++
      (fractionText parts.fraction ++ zoneText parts.zone))))))

/-- Each part has the digits its place has room for. -/
structure Parts.Fits (parts : Parts) : Prop where
  year : parts.year < 10 ^ 4
  month : parts.month < 10 ^ 2
  day : parts.day < 10 ^ 2
  hour : parts.hour < 10 ^ 2
  minute : parts.minute < 10 ^ 2
  second : parts.second < 10 ^ 2
  fraction : ∀ c ∈ parts.fraction, isDigit c = true
  zone : ∀ zone ∈ parts.zone, zone.2.1 < 10 ^ 2 ∧ zone.2.2 < 10 ^ 2

theorem digits?_eq_some {width n : Nat} {text rest : List Char} (positive : 0 < width) :
    digits? width text = some (n, rest) ↔ n < 10 ^ width ∧ text = padded width n ++ rest := by
  constructor
  · intro scanned
    unfold digits? at scanned
    split at scanned
    next holds =>
      obtain ⟨rfl, rfl⟩ : _ = n ∧ _ = rest := by simpa using scanned
      have digit : ∀ c ∈ text.take width, c.isDigit = true := fun c member => by
        rw [← isDigit_eq]
        exact List.all_eq_true.mp holds.2 c member
      have length : (text.take width).length = width := by
        rw [List.length_take]
        omega
      have fits : Nat.ofDigitChars 10 (text.take width) 0 < 10 ^ width := by
        have bound := Decimal.ofDigitChars_lt digit
        rwa [length] at bound
      refine ⟨fits, ?_⟩
      have written : padded width (Nat.ofDigitChars 10 (text.take width) 0) = text.take width := by
        apply Decimal.ofDigitChars_inj _ digit
        · rw [padded_length fits positive, length]
        · simp [padded, List.leftpad, ofDigitChars_zeros, Nat.ofDigitChars_ten_toDigits]
        · intro c member
          rw [← isDigit_eq]
          exact padded_digits _ _ c member
      rw [written, List.take_append_drop]
    next => cases scanned
  · rintro ⟨fits, rfl⟩
    exact digits?_padded fits positive rest

theorem char?_eq_some {c : Char} {text rest : List Char} : char? c text = some rest ↔ text = c :: rest := by
  cases text with
  | nil => simp [char?]
  | cons d tail =>
    by_cases same : d = c <;> simp [char?, same]

/-- What is read as a fraction stands at the front. -/
theorem fraction?_text {text digits after : List Char} (scanned : fraction? text = some (digits, after)) :
    text = fractionText digits ++ after := by
  unfold fraction? at scanned
  split at scanned
  next rest =>
    simp only [List.span_eq_takeWhile_dropWhile] at scanned
    split at scanned
    next => cases scanned
    next some =>
      cases scanned
      rw [fractionText, if_neg some, List.cons_append, List.takeWhile_append_dropWhile]
  next =>
    cases scanned
    rfl

theorem fraction?_eq_some {digits after : List Char} (digit : ∀ c ∈ digits, isDigit c = true)
    (ends : after.head?.all fun c => !isDigit c && c ≠ '.') :
    fraction? (fractionText digits ++ after) = some (digits, after) := by
  cases digits with
  | nil =>
    cases after with
    | nil => rfl
    | cons c rest =>
      have other : c ≠ '.' := by
        simp only [List.head?_cons, Option.all_some, Bool.and_eq_true, decide_eq_true_eq] at ends
        exact ends.2
      simp [fractionText, fraction?, other]
  | cons d rest =>
    have stops : after.dropWhile isDigit = after ∧ after.takeWhile isDigit = [] := by
      cases after with
      | nil => exact ⟨rfl, rfl⟩
      | cons c tail =>
        have other : isDigit c = false := by
          simp only [List.head?_cons, Option.all_some, Bool.and_eq_true, Bool.not_eq_true'] at ends
          exact ends.1
        simp [other]
    have all : (d :: rest).takeWhile isDigit = d :: rest := List.takeWhile_eq_self_iff.mpr digit
    have span : ((d :: rest) ++ after).span isDigit = (d :: rest, after) := by
      rw [List.span_eq_takeWhile_dropWhile, List.takeWhile_append_of_pos digit, List.dropWhile_append_of_pos digit, stops.1,
        stops.2, List.append_nil]
    simp only [fractionText, reduceCtorEq, if_false, List.cons_append, fraction?]
    rw [List.cons_append] at span
    rw [span]
    simp

theorem zone?_eq_some {text : List Char} {zone : Option (Bool × Nat × Nat)} :
    zone? text = some zone ↔ (∀ offset ∈ zone, offset.2.1 < 10 ^ 2 ∧ offset.2.2 < 10 ^ 2) ∧ text = zoneText zone := by
  constructor
  · intro scanned
    unfold zone? at scanned
    split at scanned
    next =>
      cases scanned
      simp [zoneText]
    next sign rest _ =>
      split at scanned
      next signed =>
        simp only [bind, Option.bind_eq_some_iff] at scanned
        obtain ⟨⟨hours, afterHours⟩, first, afterColon, colon, ⟨minutes, afterMinutes⟩, second, ended⟩ := scanned
        obtain ⟨hoursFit, rfl⟩ := (digits?_eq_some (by decide)).mp first
        obtain rfl := char?_eq_some.mp colon
        obtain ⟨minutesFit, rfl⟩ := (digits?_eq_some (by decide)).mp second
        split at ended
        next none =>
          obtain rfl : _ = zone := by simpa using ended
          obtain rfl : afterMinutes = [] := none
          refine ⟨by simpa using ⟨hoursFit, minutesFit⟩, ?_⟩
          rcases signed with rfl | rfl <;> simp [zoneText]
        next => cases ended
      next => cases scanned
    next => cases scanned
  · rintro ⟨fits, rfl⟩
    cases zone with
    | none => rfl
    | some offset =>
      obtain ⟨minus, hours, minutes⟩ := offset
      obtain ⟨hoursFit, minutesFit⟩ := fits _ rfl
      have first := digits?_padded hoursFit (by decide) (':' :: (padded 2 minutes))
      have second := digits?_padded minutesFit (by decide) []
      rw [List.append_nil] at second
      cases minus <;> simp [zoneText, zone?, first, second, char?]

/-- A text is scanned exactly where it is the one written from its parts. -/
theorem scan_eq_some {text : List Char} {parts : Parts} : scan text = some parts ↔ parts.Fits ∧ text = parts.text := by
  constructor
  · intro scanned
    obtain ⟨⟨year, _⟩, years, scanned⟩ := Option.bind_eq_some_iff.mp scanned
    obtain ⟨_, dash, scanned⟩ := Option.bind_eq_some_iff.mp scanned
    obtain ⟨⟨month, _⟩, months, scanned⟩ := Option.bind_eq_some_iff.mp scanned
    obtain ⟨_, secondDash, scanned⟩ := Option.bind_eq_some_iff.mp scanned
    obtain ⟨⟨day, _⟩, days, scanned⟩ := Option.bind_eq_some_iff.mp scanned
    obtain ⟨_, letter, scanned⟩ := Option.bind_eq_some_iff.mp scanned
    obtain ⟨⟨hour, _⟩, hours, scanned⟩ := Option.bind_eq_some_iff.mp scanned
    obtain ⟨_, colon, scanned⟩ := Option.bind_eq_some_iff.mp scanned
    obtain ⟨⟨minute, _⟩, minutes, scanned⟩ := Option.bind_eq_some_iff.mp scanned
    obtain ⟨_, secondColon, scanned⟩ := Option.bind_eq_some_iff.mp scanned
    obtain ⟨⟨second, _⟩, seconds, scanned⟩ := Option.bind_eq_some_iff.mp scanned
    obtain ⟨⟨fraction, _⟩, found, scanned⟩ := Option.bind_eq_some_iff.mp scanned
    obtain ⟨zone, zoned, same⟩ := Option.bind_eq_some_iff.mp scanned
    obtain rfl := Option.some.inj same
    have digits := fraction?_digits found
    obtain ⟨yearFits, rfl⟩ := (digits?_eq_some (by decide)).mp years
    obtain rfl := char?_eq_some.mp dash
    obtain ⟨monthFits, rfl⟩ := (digits?_eq_some (by decide)).mp months
    obtain rfl := char?_eq_some.mp secondDash
    obtain ⟨dayFits, rfl⟩ := (digits?_eq_some (by decide)).mp days
    obtain rfl := char?_eq_some.mp letter
    obtain ⟨hourFits, rfl⟩ := (digits?_eq_some (by decide)).mp hours
    obtain rfl := char?_eq_some.mp colon
    obtain ⟨minuteFits, rfl⟩ := (digits?_eq_some (by decide)).mp minutes
    obtain rfl := char?_eq_some.mp secondColon
    obtain ⟨secondFits, rfl⟩ := (digits?_eq_some (by decide)).mp seconds
    obtain rfl := fraction?_text found
    obtain ⟨zoneFits, rfl⟩ := zone?_eq_some.mp zoned
    exact ⟨⟨yearFits, monthFits, dayFits, hourFits, minuteFits, secondFits, digits, zoneFits⟩, rfl⟩
  · rintro ⟨fits, rfl⟩
    have ends : (zoneText parts.zone).head?.all fun c => !isDigit c && c ≠ '.' := by
      cases parts.zone with
      | none => decide
      | some zone =>
        obtain ⟨_ | _, hours, minutes⟩ := zone <;> rfl
    apply Option.bind_eq_some_iff.mpr ⟨_, digits?_padded fits.year (by decide) _, _⟩
    apply Option.bind_eq_some_iff.mpr ⟨_, char?_eq_some.mpr rfl, _⟩
    apply Option.bind_eq_some_iff.mpr ⟨_, digits?_padded fits.month (by decide) _, _⟩
    apply Option.bind_eq_some_iff.mpr ⟨_, char?_eq_some.mpr rfl, _⟩
    apply Option.bind_eq_some_iff.mpr ⟨_, digits?_padded fits.day (by decide) _, _⟩
    apply Option.bind_eq_some_iff.mpr ⟨_, char?_eq_some.mpr rfl, _⟩
    apply Option.bind_eq_some_iff.mpr ⟨_, digits?_padded fits.hour (by decide) _, _⟩
    apply Option.bind_eq_some_iff.mpr ⟨_, char?_eq_some.mpr rfl, _⟩
    apply Option.bind_eq_some_iff.mpr ⟨_, digits?_padded fits.minute (by decide) _, _⟩
    apply Option.bind_eq_some_iff.mpr ⟨_, char?_eq_some.mpr rfl, _⟩
    apply Option.bind_eq_some_iff.mpr ⟨_, digits?_padded fits.second (by decide) _, _⟩
    apply Option.bind_eq_some_iff.mpr ⟨_, fraction?_eq_some fits.fraction ends, _⟩
    apply Option.bind_eq_some_iff.mpr ⟨_, zone?_eq_some.mpr ⟨fits.zone, rfl⟩, _⟩
    rfl

/-- A fraction is made of digits. -/
theorem scan_fraction {text : List Char} {parts : Parts} (scanned : scan text = some parts) :
    ∀ c ∈ parts.fraction, isDigit c = true :=
  (scan_eq_some.mp scanned).1.fraction

end Audr.Timestamp
