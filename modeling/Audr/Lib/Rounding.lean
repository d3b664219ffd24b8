import Audr.Lib.Numerals
import Mathlib.Algebra.Order.Field.Rat
import Mathlib.Tactic.FieldSimp
import Mathlib.Tactic.Linarith
import Mathlib.Tactic.Ring

/-! What is read from a number literal is a double: rounding twice is rounding once. Integers
are rounded to integers. -/

namespace Audr.Double

variable {q : ℚ}

end Audr.Double
