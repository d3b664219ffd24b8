import Mathlib.Data.List.Induction
import Mathlib.Tactic.IntervalCases

/-! Numbers written in decimal without leading zeros. -/

namespace Audr.Decimal

theorem nonzero_digit (c : Char) : ('1' ≤ c ∧ c ≤ '9') ↔ c.isDigit = true ∧ c ≠ '0' := by
  simp only [Char.isDigit, Char.le_def, UInt32.le_iff_toNat_le, ne_eq, Char.ext_iff, ← UInt32.toNat_inj, ge_iff_le,
    Bool.and_eq_true, decide_eq_true_eq]
  have zero : '0'.val.toNat = 48 := rfl
  have one : '1'.val.toNat = 49 := rfl
  have nine : '9'.val.toNat = 57 := rfl
  have low : UInt32.toNat 48 = 48 := rfl
  have high : UInt32.toNat 57 = 57 := rfl
  omega

/-- What is read from digits is below a power of ten. -/
theorem ofDigitChars_lt {digits : List Char} (digit : ∀ c ∈ digits, c.isDigit = true) :
    Nat.ofDigitChars 10 digits 0 < 10 ^ digits.length := by
  induction digits using List.reverseRecOn with
  | nil => simp
  | append_singleton init c ih =>
    have before := ih fun d member => digit d (by simp [member])
    have last := digit c (by simp)
    rw [Nat.ofDigitChars_append, Nat.ofDigitChars_cons, Nat.ofDigitChars_nil, List.length_append, List.length_singleton,
      Nat.pow_succ]
    rw [Char.isDigit, Bool.and_eq_true, decide_eq_true_eq, decide_eq_true_eq, ge_iff_le, UInt32.le_iff_toNat_le,
      UInt32.le_iff_toNat_le] at last
    have bounds : 48 ≤ c.toNat ∧ c.toNat ≤ 57 := last
    have zero : '0'.toNat = 48 := rfl
    omega

/-- Digits are found back from their number and what is read from them. -/
theorem ofDigitChars_inj {digits others : List Char} (digit : ∀ c ∈ digits, c.isDigit = true)
    (other : ∀ c ∈ others, c.isDigit = true) (length : digits.length = others.length)
    (same : Nat.ofDigitChars 10 digits 0 = Nat.ofDigitChars 10 others 0) : digits = others := by
  have bounds : ∀ c : Char, c.isDigit = true → 48 ≤ c.toNat ∧ c.toNat ≤ 57 := by
    intro c holds
    rw [Char.isDigit, Bool.and_eq_true, decide_eq_true_eq, decide_eq_true_eq, ge_iff_le, UInt32.le_iff_toNat_le,
      UInt32.le_iff_toNat_le] at holds
    exact holds
  have zero : '0'.toNat = 48 := rfl
  induction digits using List.reverseRecOn generalizing others with
  | nil => exact (List.length_eq_zero_iff.mp length.symm).symm
  | append_singleton init c ih =>
    cases others using List.reverseRecOn with
    | nil => simp at length
    | append_singleton rest d =>
      rw [Nat.ofDigitChars_append, Nat.ofDigitChars_append, Nat.ofDigitChars_cons, Nat.ofDigitChars_cons,
        Nat.ofDigitChars_nil, Nat.ofDigitChars_nil] at same
      have first := bounds c (digit c (by simp))
      have second := bounds d (other d (by simp))
      have last : c = d := Char.toNat_inj.mp (by omega)
      have before := ih (fun e member => digit e (List.mem_append_left _ member))
        (fun e member => other e (List.mem_append_left _ member)) (by simpa using length) (by omega)
      rw [before, last]

/-- The digits of a number are those it was read from. -/
theorem toDigits_ofDigitChars {digits : List Char} (digit : ∀ c ∈ digits, c.isDigit = true) {first : Char}
    (head : digits.head? = some first) (nonzero : first ≠ '0') :
    Nat.toDigits 10 (Nat.ofDigitChars 10 digits 0) = digits := by
  induction digits using List.reverseRecOn with
  | nil => cases head
  | append_singleton init c ih =>
    have last := digit c (by simp)
    rw [Char.isDigit, Bool.and_eq_true, decide_eq_true_eq, decide_eq_true_eq, ge_iff_le, UInt32.le_iff_toNat_le,
      UInt32.le_iff_toNat_le] at last
    have bounds : 48 ≤ c.toNat ∧ c.toNat ≤ 57 := last
    have single : Nat.toDigits 10 (c.toNat - '0'.toNat) = [c] := by
      rw [Nat.toDigits_of_lt_base (by have : '0'.toNat = 48 := rfl; omega)]
      congr 1
      apply Char.toNat_inj.mp
      have zero : '0'.toNat = 48 := rfl
      rw [zero]
      obtain ⟨low, high⟩ := bounds
      generalize c.toNat = n at low high
      interval_cases n <;> rfl
    rw [Nat.ofDigitChars_append, Nat.ofDigitChars_cons, Nat.ofDigitChars_nil]
    cases init with
    | nil => simpa using single
    | cons start rest =>
      have same : start = first := by simpa using head
      have before := ih (fun d member => digit d (List.mem_append_left _ member)) (by simp [same])
      have positive : 0 < Nat.ofDigitChars 10 (start :: rest) 0 := by
        by_contra none
        rw [Nat.eq_zero_of_not_pos none, Nat.toDigits_zero] at before
        exact nonzero (same ▸ (List.cons.inj before).1.symm)
      rw [← Nat.toDigits_append_toDigits (by decide) positive (by have : '0'.toNat = 48 := rfl; omega), before, single]

/-- The digits of a positive number start with another digit than zero. -/
theorem head_toDigits {n : Nat} (positive : 0 < n) : ∃ first ∈ (Nat.toDigits 10 n).head?, first ≠ '0' := by
  induction n using Nat.strong_induction_on with
  | _ n ih =>
    by_cases small : n < 10
    · rw [Nat.toDigits_of_lt_base small]
      refine ⟨n.digitChar, rfl, ?_⟩
      interval_cases n <;> decide
    · obtain ⟨first, head, nonzero⟩ := ih (n / 10) (by omega) (by omega)
      refine ⟨first, ?_, nonzero⟩
      rw [Nat.toDigits_of_base_le (by decide) (by omega)]
      simp [List.head?_append, Option.mem_def.mp head]

end Audr.Decimal
