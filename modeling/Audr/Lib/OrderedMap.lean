import Mathlib.Data.List.Nodup

/-! A map that keeps its entries in the order they were last set, and forgets the oldest
when it grows past a bound. -/

namespace Audr.OrderedMap

variable {K V : Type*} [DecidableEq K]

def keys (entries : List (K × V)) : List K := entries.map Prod.fst

def get? (entries : List (K × V)) (key : K) : Option V :=
  (entries.find? fun entry => entry.1 = key).map Prod.snd

def erase (entries : List (K × V)) (key : K) : List (K × V) := entries.filter fun entry => entry.1 ≠ key

/-- Set a key and move it to the end. -/
def set (entries : List (K × V)) (key : K) (value : V) : List (K × V) := erase entries key ++ [(key, value)]

/-- Drop the oldest entries until at most `limit` are left. -/
def trim {α : Type*} (limit : Nat) : List α → List α
  | [] => []
  | entry :: rest => if limit < rest.length + 1 then trim limit rest else entry :: rest

variable {entries : List (K × V)} {key other : K} {value : V}

theorem mem_of_get? (found : get? entries key = some value) : (key, value) ∈ entries := by
  obtain ⟨entry, searched, rfl⟩ := Option.map_eq_some_iff.mp found
  have same : entry.1 = key := by simpa using List.find?_some searched
  rw [← same]
  exact List.mem_of_find?_eq_some searched

theorem get?_isSome : (get? entries key).isSome = true ↔ key ∈ keys entries := by
  simp [get?, keys]

theorem mem_erase {entry : K × V} : entry ∈ erase entries key ↔ entry ∈ entries ∧ entry.1 ≠ key := by
  simp [erase]

theorem mem_set {entry : K × V} :
    entry ∈ set entries key value ↔ (entry ∈ entries ∧ entry.1 ≠ key) ∨ entry = (key, value) := by
  simp [set, erase]

theorem keys_erase : keys (erase entries key) = (keys entries).filter (· ≠ key) := by
  rw [keys, keys, erase, List.filter_map]
  rfl

theorem erase_nodup (distinct : (keys entries).Nodup) : (keys (erase entries key)).Nodup := by
  rw [keys_erase]
  exact distinct.filter _

theorem not_mem_erase : key ∉ keys (erase entries key) := by
  simp [keys_erase]

theorem set_nodup (distinct : (keys entries).Nodup) : (keys (set entries key value)).Nodup := by
  have last : keys (set entries key value) = keys (erase entries key) ++ [key] := by simp [set, keys]
  rw [last]
  refine List.nodup_append.mpr ⟨erase_nodup distinct, List.nodup_singleton _, ?_⟩
  rintro kept member _ new rfl
  rw [List.mem_singleton.mp new] at member
  exact not_mem_erase member

theorem trim_length {α : Type*} (limit : Nat) (entries : List α) : (trim limit entries).length ≤ limit := by
  induction entries with
  | nil => exact Nat.zero_le _
  | cons entry rest ih =>
    unfold trim
    split
    · exact ih
    next fits => exact Nat.le_of_not_lt fits

end Audr.OrderedMap
