import Audr.Json
import Audr.Lib.Double

/-! Python's own kinds of value, as far as records, events and responses have them. -/

namespace Audr.Python

/-- An `int`, of any size, or a `float`. -/
inductive Number where
  | int (value : Int)
  | float (value : Double)
  deriving DecidableEq

/-- What `json.loads` returns, and what an event's `to_dict` does. -/
abbrev Value := Json Number

/-- Only lists and mappings cannot be looked for in a set. -/
def hashable : Value → Bool
  | .arr _ => false
  | .obj _ => false
  | _ => true

/-- The exceptions the modelled code can let through. -/
inductive Exception where
  | typeError
  | valueError
  | overflowError
  | recursionError
  deriving DecidableEq, Repr

end Audr.Python
