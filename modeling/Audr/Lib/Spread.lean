import Audr.Lib.Properties

/-! `{...a, ...b}`: the properties of two objects in one, those of the second over those of the
first. -/

namespace Audr.Properties

variable {V : Type*} {entries more object : List (String × V)} {name : String} {value : V}

/-- The value of a property. -/
def read (name : String) (entries : List (String × V)) : Option V := (entries.find? fun entry => entry.1 = name).map Prod.snd

/-- Own properties, each of a name of its own. -/
structure Object (V : Type*) where
  entries : List (String × V)
  distinct : (entries.map Prod.fst).Nodup

theorem assign_names : (assign entries name value).map Prod.fst =
    if name ∈ entries.map Prod.fst then entries.map Prod.fst else entries.map Prod.fst ++ [name] := by
  unfold assign
  split_ifs with present
  · rw [List.map_map]
    apply List.map_congr_left
    intro entry _
    by_cases same : entry.1 = name <;> simp [same]
  · simp

theorem assign_nodup (distinct : (entries.map Prod.fst).Nodup) : ((assign entries name value).map Prod.fst).Nodup := by
  rw [assign_names]
  split_ifs with present
  · exact distinct
  · rw [← List.concat_eq_append]
    exact distinct.concat present

theorem foldl_assign_nodup (distinct : (object.map Prod.fst).Nodup) :
    ((entries.foldl (fun object entry => assign object entry.1 entry.2) object).map Prod.fst).Nodup := by
  induction entries generalizing object with
  | nil => exact distinct
  | cons entry rest ih => exact ih (assign_nodup distinct)

namespace Object

/-- The object without properties. -/
def empty : Object V := ⟨[], List.nodup_nil⟩

def get (name : String) (object : Object V) : Option V := read name object.entries

/-- `{...base, ...override}`. -/
def spread (base override : Object V) : Object V where
  entries := fromEntries (base.entries ++ override.entries)
  distinct := ((enumerate_perm _).map Prod.fst).nodup_iff.mpr (foldl_assign_nodup List.nodup_nil)

end Object

end Audr.Properties
