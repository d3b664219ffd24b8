import Mathlib.Data.List.Basic
import Mathlib.Data.List.Nodup

/-! JSON values as the two languages hold them once a text is parsed: an object has its
members in order, each name once. What a number is differs, so it is a parameter. -/

namespace Audr

inductive Json (N : Type) where
  | null
  | bool (value : Bool)
  | num (value : N)
  | str (value : String)
  | arr (items : List (Json N))
  | obj (members : List (String × Json N))

namespace Json

variable {N : Type}

mutual

/-- Equality of JSON values can be decided when that of numbers can. -/
def decEq [DecidableEq N] : (a b : Json N) → Decidable (a = b)
  | .null, .null => .isTrue rfl
  | .bool a, .bool b => decidable_of_iff (a = b) (by simp)
  | .num a, .num b => decidable_of_iff (a = b) (by simp)
  | .str a, .str b => decidable_of_iff (a = b) (by simp)
  | .arr a, .arr b =>
      match decEqItems a b with
      | .isTrue same => .isTrue (by rw [same])
      | .isFalse other => .isFalse (by simpa using other)
  | .obj a, .obj b =>
      match decEqMembers a b with
      | .isTrue same => .isTrue (by rw [same])
      | .isFalse other => .isFalse (by simpa using other)
  | .null, .bool _ | .null, .num _ | .null, .str _ | .null, .arr _ | .null, .obj _ => .isFalse nofun
  | .bool _, .null | .bool _, .num _ | .bool _, .str _ | .bool _, .arr _ | .bool _, .obj _ => .isFalse nofun
  | .num _, .null | .num _, .bool _ | .num _, .str _ | .num _, .arr _ | .num _, .obj _ => .isFalse nofun
  | .str _, .null | .str _, .bool _ | .str _, .num _ | .str _, .arr _ | .str _, .obj _ => .isFalse nofun
  | .arr _, .null | .arr _, .bool _ | .arr _, .num _ | .arr _, .str _ | .arr _, .obj _ => .isFalse nofun
  | .obj _, .null | .obj _, .bool _ | .obj _, .num _ | .obj _, .str _ | .obj _, .arr _ => .isFalse nofun

def decEqItems [DecidableEq N] : (a b : List (Json N)) → Decidable (a = b)
  | [], [] => .isTrue rfl
  | a :: as, b :: bs =>
      match decEq a b, decEqItems as bs with
      | .isTrue head, .isTrue tail => .isTrue (by rw [head, tail])
      | .isFalse head, _ => .isFalse (by simp [head])
      | _, .isFalse tail => .isFalse (by simp [tail])
  | [], _ :: _ | _ :: _, [] => .isFalse nofun

def decEqMembers [DecidableEq N] : (a b : List (String × Json N)) → Decidable (a = b)
  | [], [] => .isTrue rfl
  | (name, a) :: as, (name', b) :: bs =>
      match decEq a b, decEqMembers as bs with
      | .isTrue head, .isTrue tail => decidable_of_iff (name = name') (by simp [head, tail])
      | .isFalse head, _ => .isFalse (by simp [head])
      | _, .isFalse tail => .isFalse (by simp [tail])
  | [], _ :: _ | _ :: _, [] => .isFalse nofun

end

instance [DecidableEq N] : DecidableEq (Json N) := decEq

/-- The value of a member, by its name. -/
def get? (name : String) (members : List (String × Json N)) : Option (Json N) :=
  (members.find? fun entry => entry.1 = name).map Prod.snd

/-- An object has each of its names once, at every depth. -/
inductive Proper : Json N → Prop
  | null : Proper .null
  | bool (value : Bool) : Proper (.bool value)
  | num (value : N) : Proper (.num value)
  | str (value : String) : Proper (.str value)
  | arr {items : List (Json N)} (each : ∀ item ∈ items, Proper item) : Proper (.arr items)
  | obj {members : List (String × Json N)} (distinct : (members.map Prod.fst).Nodup)
      (each : ∀ entry ∈ members, Proper entry.2) : Proper (.obj members)

/-- Each name leads to its member. -/
theorem get?_eq_some {name : String} {members : List (String × Json N)} {value : Json N}
    (distinct : (members.map Prod.fst).Nodup) : get? name members = some value ↔ (name, value) ∈ members := by
  constructor
  · intro found
    obtain ⟨entry, searched, rfl⟩ := Option.map_eq_some_iff.mp found
    have same : entry.1 = name := by simpa using List.find?_some searched
    rw [← same]
    exact List.mem_of_find?_eq_some searched
  · intro member
    have present : (members.find? fun entry => entry.1 = name).isSome = true :=
      List.find?_isSome.mpr ⟨_, member, by simp⟩
    obtain ⟨entry, searched⟩ := Option.isSome_iff_exists.mp present
    have same : entry.1 = name := by simpa using List.find?_some searched
    have unique := List.inj_on_of_nodup_map distinct (List.mem_of_find?_eq_some searched) member same
    simp [get?, searched, unique]

variable {M : Type}

mutual

/-- The same value with its numbers held another way. -/
def map (f : N → M) : Json N → Json M
  | .null => .null
  | .bool value => .bool value
  | .num value => .num (f value)
  | .str value => .str value
  | .arr items => .arr (mapItems f items)
  | .obj members => .obj (mapMembers f members)

def mapItems (f : N → M) : List (Json N) → List (Json M)
  | [] => []
  | item :: rest => map f item :: mapItems f rest

def mapMembers (f : N → M) : List (String × Json N) → List (String × Json M)
  | [] => []
  | (name, value) :: rest => (name, map f value) :: mapMembers f rest

end

theorem get?_mapMembers (f : N → M) (name : String) (members : List (String × Json N)) :
    get? name (mapMembers f members) = (get? name members).map (map f) := by
  induction members with
  | nil => rfl
  | cons member rest ih =>
    obtain ⟨key, value⟩ := member
    simp only [get?] at ih
    by_cases same : key = name <;> simp [get?, mapMembers, same, ih]

end Json

end Audr
