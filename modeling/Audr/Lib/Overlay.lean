import Mathlib.Data.List.DropRight

/-! Settings of nested scopes. A scope's own setting comes before those of the scopes around it.
Scopes are listed from the outermost to the innermost. -/

namespace Audr.Overlay

variable {S A V K : Type*} {path : List A} {scope : A} {setting : A → Option V}

/-- The setting of the innermost scope that has one. -/
def innermost (setting : A → Option V) (path : List A) : Option V := path.reverse.findSome? setting

/-- The scopes at the inner end that share the key of the innermost. -/
def innerGroup [DecidableEq K] (key : A → K) (path : List A) : List A :=
  match path.getLast? with
  | none => []
  | some last => path.rtakeWhile fun scope => key scope = key last

end Audr.Overlay
