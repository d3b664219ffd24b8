import Mathlib.Data.List.Lex
import Mathlib.Data.List.Sort

/-! The order JavaScript compares strings in: that of their UTF-16 code units. -/

namespace Audr

/-- The UTF-16 code units of a character: itself, or a surrogate pair. -/
def charUnits (c : Char) : List Nat :=
  if c.toNat < 0x10000 then [c.toNat]
  else [0xD800 + (c.toNat - 0x10000) / 0x400, 0xDC00 + (c.toNat - 0x10000) % 0x400]

def codeUnits (s : String) : List Nat := s.toList.flatMap charUnits

/-- `a <= b` on strings. -/
def unitsLe (a b : String) : Prop := codeUnits a ≤ codeUnits b

instance : DecidableRel unitsLe := fun a b => inferInstanceAs (Decidable (codeUnits a ≤ codeUnits b))

/-- The code points of a string, whose order Python compares strings in. -/
def codePoints (s : String) : List Nat := s.toList.map Char.toNat

def pointsLe (a b : String) : Prop := codePoints a ≤ codePoints b

/-- Whether a string is of ASCII characters only. -/
def ascii (s : String) : Bool := s.toList.all fun c => decide (c.toNat < 128)

theorem codePoints_injective : Function.Injective codePoints := by
  intro a b same
  apply String.toList_inj.mp
  have injective : Function.Injective Char.toNat := fun c d equal => Char.ext (UInt32.toNat_inj.mp equal)
  exact injective.list_map same

/-- Both orders are one on ASCII strings. -/
theorem codeUnits_ascii {s : String} (plain : ascii s = true) : codeUnits s = codePoints s := by
  have single : ∀ c ∈ s.toList, charUnits c = [c.toNat] := by
    intro c member
    have small : c.toNat < 128 := by simpa using List.all_eq_true.mp plain c member
    rw [charUnits, if_pos (by omega)]
  rw [codeUnits, codePoints, List.flatMap_congr single, List.map_eq_flatMap]

theorem unitsLe_antisymm {a b : String} (left : ascii a = true) (right : ascii b = true) (le : unitsLe a b)
    (ge : unitsLe b a) : a = b := by
  apply codePoints_injective
  rw [← codeUnits_ascii left, ← codeUnits_ascii right]
  exact le_antisymm le ge

/-- `Array.prototype.sort` on strings. -/
def sortUnits (names : List String) : List String := names.insertionSort unitsLe

end Audr
