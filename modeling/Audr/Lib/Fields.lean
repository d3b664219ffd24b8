import Audr.Lib.Properties
import Mathlib.Data.List.Perm.Subperm

/-! Named values, some of which are left out. -/

namespace Audr.Fields

open Properties (mapValues)

variable {V W : Type} {fields more : List (String × Option V)} {name : String} {value : V}

/-- The values that are there, with their names. -/
def present (fields : List (String × Option V)) : List (String × V) :=
  fields.filterMap fun field => field.2.map fun value => (field.1, value)

@[simp] theorem present_nil : present ([] : List (String × Option V)) = [] := rfl

@[simp] theorem present_some : present ((name, some value) :: fields) = (name, value) :: present fields := rfl

@[simp] theorem present_none : present ((name, none) :: fields) = present fields := rfl

theorem mem_present : (name, value) ∈ present fields ↔ (name, some value) ∈ fields := by
  rw [present, List.mem_filterMap]
  constructor
  · intro found
    obtain ⟨⟨other, held⟩, member, same⟩ := found
    obtain ⟨x, rfl, pair⟩ := Option.map_eq_some_iff.mp same
    cases pair
    exact member
  · intro member
    exact ⟨(name, some value), member, rfl⟩

/-- What is there stands in the order of the fields. -/
theorem names_sublist (fields : List (String × Option V)) : ((present fields).map Prod.fst).Sublist (fields.map Prod.fst) := by
  induction fields with
  | nil => exact List.Sublist.slnil
  | cons field rest ih =>
    obtain ⟨name, held⟩ := field
    cases held with
    | none => exact ih.cons _
    | some value => exact ih.cons_cons _

theorem present_nodup (distinct : (fields.map Prod.fst).Nodup) : ((present fields).map Prod.fst).Nodup :=
  distinct.sublist (names_sublist fields)

theorem mem_names : name ∈ (present fields).map Prod.fst ↔ ∃ value, (name, some value) ∈ fields := by
  constructor
  · intro listed
    obtain ⟨⟨_, value⟩, member, rfl⟩ := List.mem_map.mp listed
    exact ⟨value, mem_present.mp member⟩
  · intro found
    obtain ⟨value, member⟩ := found
    exact List.mem_map.mpr ⟨(name, value), mem_present.mpr member, rfl⟩

/-- Entries that have all of others, and only their names, are the same in another order. -/
theorem perm_of_names {entries other : List (String × V)} (names : (entries.map Prod.fst).Perm (other.map Prod.fst))
    (distinct : (other.map Prod.fst).Nodup) (all : ∀ entry ∈ other, entry ∈ entries) : entries.Perm other := by
  have once : other.Nodup := List.Nodup.of_map _ distinct
  have length : entries.length ≤ other.length := by simpa using names.length_eq.le
  exact ((List.subperm_of_subset once all).perm_of_length_le length).symm

/-- What is a reordering of images is the image of a reordering. -/
theorem exists_map_of_perm {W : Type} {f : V → W} {values : List W} {sources : List V} (same : values.Perm (sources.map f)) :
    ∃ found : List V, found.Perm sources ∧ values = found.map f := by
  have composed : Relation.Comp (fun xs ys => xs = ys.map f) List.Perm values sources := by
    rw [List.eq_map_comp_perm]
    exact same
  obtain ⟨found, image, order⟩ := composed
  exact ⟨found, order, image⟩

end Audr.Fields
