import Audr.Lib.Double
import Mathlib.Algebra.Order.Ring.Rat

/-! Number literals of JSON texts: what they read back as, and how doubles are written. -/

namespace Audr

/-- A number of a JSON text: only digits, or with a fraction or an exponent. -/
inductive Literal where
  | int (negative : Bool) (magnitude : Nat)
  | decimal (negative : Bool) (magnitude : ℚ≥0)
  deriving DecidableEq

namespace Literal

def negative : Literal → Bool
  | .int sign _ => sign
  | .decimal sign _ => sign

def magnitude : Literal → ℚ≥0
  | .int _ number => number
  | .decimal _ number => number

def value (literal : Literal) : ℚ :=
  if literal.negative then -literal.magnitude else literal.magnitude

/-- The double nearest to a literal, which keeps its sign also where it is rounded to zero. -/
def double (literal : Literal) : Double :=
  if Double.ofRat literal.value = .finite 0 ∧ literal.negative = true then .negativeZero
  else Double.ofRat literal.value

end Literal

/-- A rational that is a double. -/
def Double.Representable (q : ℚ) : Prop := Double.ofRat q = .finite q

instance : DecidablePred Double.Representable := fun q => inferInstanceAs (Decidable (Double.ofRat q = .finite q))

theorem Double.representable_zero : Double.Representable 0 := by
  have positive : (0 : ℚ) < Double.bound := by unfold bound; positivity
  simp [Representable, ofRat, nearest, positive.not_ge]

theorem Literal.double_zero : (Literal.int false 0).double = .finite 0 := by
  have exact : Double.ofRat 0 = .finite 0 := Double.representable_zero
  simp [double, value, negative, magnitude, exact]

/-- How doubles are written: a shortest decimal that is read back as the same double. -/
structure Numerals where
  shortest : ℚ≥0 → ℚ≥0
  reads : ∀ q : ℚ≥0, Double.Representable q → Double.ofRat (shortest q) = .finite q

/-- Exact decimals: every double has one. -/
def Numerals.exact : Numerals where
  shortest := id
  reads := fun _ representable => representable

/-- `Number::toString` of a finite double: integers below `10 ** 21` have digits only. -/
def jsLiteral (numerals : Numerals) (q : ℚ) : Literal :=
  let digits := numerals.shortest ⟨|q|, abs_nonneg q⟩
  if q = 0 then .int false 0
  else if digits.den = 1 ∧ digits < 10 ^ 21 then .int (decide (q < 0)) digits.num
  else .decimal (decide (q < 0)) digits

/-- `float.__repr__` of a finite float, which always has a fraction or an exponent. -/
def pyLiteral (numerals : Numerals) (q : ℚ) : Literal :=
  .decimal (decide (q < 0)) (numerals.shortest ⟨|q|, abs_nonneg q⟩)

variable {numerals : Numerals} {q : ℚ}

theorem jsLiteral_value (positive : 0 < q) :
    (jsLiteral numerals q).value = numerals.shortest ⟨q, positive.le⟩ ∧ (jsLiteral numerals q).negative = false := by
  have sign : decide (q < 0) = false := by simp [positive.le]
  have digits : (⟨|q|, abs_nonneg q⟩ : ℚ≥0) = ⟨q, positive.le⟩ := Subtype.ext (abs_of_pos positive)
  unfold jsLiteral
  rw [sign, digits, if_neg positive.ne']
  split
  next integral =>
    refine ⟨?_, rfl⟩
    have whole := NNRat.num_div_den (numerals.shortest ⟨q, positive.le⟩)
    rw [integral.1, Nat.cast_one, div_one] at whole
    rw [Literal.value, Literal.negative, Literal.magnitude, if_neg (by decide), whole]
  next => exact ⟨by simp [Literal.value, Literal.negative, Literal.magnitude], rfl⟩

theorem jsLiteral_double (nonneg : 0 ≤ q) (representable : Double.Representable q) :
    (jsLiteral numerals q).double = .finite q := by
  rcases nonneg.eq_or_lt with rfl | positive
  · exact Literal.double_zero
  · obtain ⟨value, sign⟩ := @jsLiteral_value numerals q positive
    rw [Literal.double, sign, value, if_neg (by simp)]
    exact numerals.reads ⟨q, nonneg⟩ representable

theorem pyLiteral_double (nonneg : 0 ≤ q) (representable : Double.Representable q) :
    (pyLiteral numerals q).double = .finite q := by
  have sign : decide (q < 0) = false := by simp [nonneg]
  have digits : (⟨|q|, abs_nonneg q⟩ : ℚ≥0) = ⟨q, nonneg⟩ := Subtype.ext (abs_of_nonneg nonneg)
  rw [pyLiteral, sign, digits, Literal.double, Literal.negative, if_neg (by simp)]
  have read := numerals.reads ⟨q, nonneg⟩ representable
  simpa [Literal.value, Literal.negative, Literal.magnitude] using read

end Audr
