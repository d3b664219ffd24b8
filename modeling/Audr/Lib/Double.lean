import Mathlib.Data.Rat.Floor

/-! Doubles, and rounding to the nearest one, ties to even. -/

namespace Audr

/-- A double, as JavaScript numbers and Python floats are. Zero has two signs. -/
inductive Double where
  | finite (value : ℚ)
  | negativeZero
  | infinite (negative : Bool)
  | nan
  deriving DecidableEq

namespace Double

def isFinite : Double → Bool
  | .finite _ => true
  | .negativeZero => true
  | _ => false

/-- The greatest power of two that is not above a positive value. -/
def exponent (q : ℚ) : Int :=
  let guess : Int := Nat.log2 q.num.natAbs - Nat.log2 q.den
  if (2 : ℚ) ^ guess ≤ q then guess else guess - 1

/-- The distance of two neighbouring doubles around a value. -/
def ulp (q : ℚ) : ℚ := 2 ^ (max (exponent |q|) (-1022) - 52)

/-- The nearest integer, the even one of two that are as near. -/
def roundEven (q : ℚ) : Int :=
  if q - ⌊q⌋ < 1 / 2 ∨ (q - ⌊q⌋ = 1 / 2 ∧ ⌊q⌋ % 2 = 0) then ⌊q⌋ else ⌊q⌋ + 1

def nearest (q : ℚ) : ℚ := if q = 0 then 0 else roundEven (q / ulp q) * ulp q

/-- Where rounding overflows. -/
def bound : ℚ := 2 ^ 1024

/-- The double an exact value is rounded to. -/
def ofRat (q : ℚ) : Double :=
  if bound ≤ nearest q then .infinite false
  else if nearest q ≤ -bound then .infinite true
  else .finite (nearest q)

end Double

end Audr
