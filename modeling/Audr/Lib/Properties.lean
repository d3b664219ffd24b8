import Mathlib.Algebra.GroupWithZero.Nat
import Audr.Lib.CodeUnits
import Mathlib.Data.List.Pairwise
import Mathlib.Data.List.Perm.Basic

/-! The own properties of a JavaScript object, in the order it lists them: array indices by
number, then the other names as they were first set. -/

namespace Audr.Properties

variable {V W : Type*}

/-- The number of a name that is an array index: a canonical decimal below `2 ^ 32 - 1`. -/
def arrayIndex? (name : String) : Option Nat :=
  let number := Nat.ofDigitChars 10 name.toList 0
  if Nat.toDigits 10 number = name.toList ∧ number < 2 ^ 32 - 1 then some number else none

def isIndex (name : String) : Bool := (arrayIndex? name).isSome

/-- Ascending array indices. -/
def indexLe (a b : String × V) : Prop := (arrayIndex? a.1).getD 0 ≤ (arrayIndex? b.1).getD 0

instance : DecidableRel (indexLe (V := V)) := fun _ _ => Nat.decLe _ _

/-- The order in which an object lists properties that were set in the order given. -/
def enumerate (entries : List (String × V)) : List (String × V) :=
  (entries.filter fun entry => isIndex entry.1).insertionSort indexLe ++
    entries.filter fun entry => !isIndex entry.1

/-- Set a property, in its place if there is one of that name. -/
def assign (entries : List (String × V)) (name : String) (value : V) : List (String × V) :=
  if name ∈ entries.map Prod.fst then
    entries.map fun entry => if entry.1 = name then (name, value) else entry
  else entries ++ [(name, value)]

/-- `object[name] = value`, on an object literal and for a value that is no object: `__proto__`
would set its prototype, and is not set. -/
def put (entries : List (String × V)) (name : String) (value : V) : List (String × V) :=
  if name = "__proto__" then entries else assign entries name value

/-- `Object.fromEntries`. -/
def fromEntries (entries : List (String × V)) : List (String × V) :=
  enumerate (entries.foldl (fun object entry => assign object entry.1 entry.2) [])

def keyLe (a b : String × V) : Prop := unitsLe a.1 b.1

instance : DecidableRel (keyLe (V := V)) := fun a b => inferInstanceAs (Decidable (unitsLe a.1 b.1))

/-- `entries.sort(([a], [b]) => (a < b ? -1 : 1))`, for distinct names. -/
def sortEntries (entries : List (String × V)) : List (String × V) := entries.insertionSort keyLe

/-- The members with another value under each name. -/
def mapValues (f : V → W) (entries : List (String × V)) : List (String × W) :=
  entries.map fun entry => (entry.1, f entry.2)

variable {entries other : List (String × V)} {name : String}

@[simp] theorem map_fst_mapValues (f : V → W) : (mapValues f entries).map Prod.fst = entries.map Prod.fst := by
  simp [mapValues]

@[simp] theorem mapValues_cons (f : V → W) (entry : String × V) (rest : List (String × V)) :
    mapValues f (entry :: rest) = (entry.1, f entry.2) :: mapValues f rest := rfl

theorem arrayIndex?_inj {a b : String} {n : Nat} (first : arrayIndex? a = some n) (second : arrayIndex? b = some n) :
    a = b := by
  simp only [arrayIndex?, Option.ite_none_right_eq_some, Option.some.injEq] at first second
  apply String.toList_inj.mp
  rw [← first.1.1, ← second.1.1, first.2, second.2]

/-- A name that has a character other than a digit is no array index. -/
theorem not_isIndex {c : Char} (member : c ∈ name.toList) (letter : c.isDigit = false) : isIndex name = false := by
  have absent : arrayIndex? name = none := by
    simp only [arrayIndex?, ite_eq_right_iff, reduceCtorEq, imp_false, not_and]
    intro canonical
    rw [← canonical] at member
    rw [Nat.isDigit_of_mem_toDigits (by decide) (by decide) member] at letter
    contradiction
  simp [isIndex, absent]

theorem enumerate_perm (entries : List (String × V)) : (enumerate entries).Perm entries := by
  have sorted := List.perm_insertionSort indexLe (entries.filter fun entry => isIndex entry.1)
  exact (sorted.append_right _).trans (List.filter_append_perm _ _)

theorem assign_of_notMem {value : V} (absent : name ∉ entries.map Prod.fst) :
    assign entries name value = entries ++ [(name, value)] := by
  rw [assign, if_neg absent]

theorem foldl_assign (object : List (String × V)) (distinct : ((object ++ entries).map Prod.fst).Nodup) :
    entries.foldl (fun object entry => assign object entry.1 entry.2) object = object ++ entries := by
  induction entries generalizing object with
  | nil => simp
  | cons entry rest ih =>
    have absent : entry.1 ∉ object.map Prod.fst := by
      intro present
      rw [List.map_append, List.map_cons, List.nodup_append] at distinct
      exact distinct.2.2 _ present _ List.mem_cons_self rfl
    rw [List.foldl_cons, assign_of_notMem absent, ih _ (by simpa using distinct)]
    simp

theorem assign_mapValues (f : V → W) (value : V) :
    mapValues f (assign entries name value) = assign (mapValues f entries) name (f value) := by
  unfold assign
  rw [map_fst_mapValues]
  split
  · simp only [mapValues, List.map_map]
    refine List.map_congr_left fun entry _ => ?_
    by_cases same : entry.1 = name <;> simp [same]
  · simp [mapValues]

theorem put_mapValues (f : V → W) (value : V) :
    mapValues f (put entries name value) = put (mapValues f entries) name (f value) := by
  unfold put
  split
  · rfl
  · exact assign_mapValues f value

/-- Properties of distinct names are set one after the other. -/
theorem foldl_put (distinct : (entries.map Prod.fst).Nodup) (ordinary : ∀ entry ∈ entries, entry.1 ≠ "__proto__") :
    entries.foldl (fun object entry => put object entry.1 entry.2) [] = entries := by
  have assigned := foldl_assign [] (by simpa using distinct)
  rw [List.nil_append] at assigned
  refine Eq.trans ?_ assigned
  exact List.foldl_ext _ _ _ fun object entry member => if_neg (ordinary entry member)

theorem fromEntries_eq (distinct : (entries.map Prod.fst).Nodup) : fromEntries entries = enumerate entries := by
  rw [fromEntries, foldl_assign [] (by simpa using distinct), List.nil_append]

theorem fromEntries_perm (distinct : (entries.map Prod.fst).Nodup) : (fromEntries entries).Perm entries := by
  rw [fromEntries_eq distinct]
  exact enumerate_perm entries

theorem keyLe_total (a b : String × V) : keyLe a b ∨ keyLe b a := le_total (codeUnits a.1) (codeUnits b.1)

theorem keyLe_trans {a b c : String × V} (first : keyLe a b) (second : keyLe b c) : keyLe a c :=
  le_trans (show codeUnits a.1 ≤ codeUnits b.1 from first) second

theorem sortEntries_perm (entries : List (String × V)) : (sortEntries entries).Perm entries :=
  List.perm_insertionSort keyLe entries

theorem sortEntries_sorted (entries : List (String × V)) : (sortEntries entries).Pairwise keyLe := by
  have : Std.Total (keyLe (V := V)) := ⟨keyLe_total⟩
  have : IsTrans (String × V) keyLe := ⟨fun _ _ _ => keyLe_trans⟩
  exact List.pairwise_insertionSort keyLe entries

/-- Sorting forgets the order the entries came in. -/
theorem sortEntries_congr (same : entries.Perm other) (distinct : (entries.map Prod.fst).Nodup)
    (plain : ∀ entry ∈ entries, ascii entry.1 = true) : sortEntries entries = sortEntries other := by
  refine List.Perm.eq_of_pairwise ?_ (sortEntries_sorted entries) (sortEntries_sorted other)
    ((sortEntries_perm entries).trans (same.trans (sortEntries_perm other).symm))
  intro a b first second le ge
  have first := (sortEntries_perm entries).mem_iff.mp first
  have second := same.mem_iff.mpr ((sortEntries_perm other).mem_iff.mp second)
  have named := unitsLe_antisymm (plain a first) (plain b second) le ge
  exact List.inj_on_of_nodup_map distinct first second named

theorem sortEntries_mapValues (f : V → W) : sortEntries (mapValues f entries) = mapValues f (sortEntries entries) :=
  (List.map_insertionSort keyLe keyLe (fun entry : String × V => (entry.1, f entry.2)) entries
    fun _ _ _ _ => Iff.rfl).symm

theorem enumerate_mapValues (f : V → W) : enumerate (mapValues f entries) = mapValues f (enumerate entries) := by
  have sorted := List.map_insertionSort indexLe indexLe (fun entry : String × V => (entry.1, f entry.2))
    (entries.filter fun entry => isIndex entry.1) fun _ _ _ _ => Iff.rfl
  simp only [enumerate, mapValues, List.map_append, List.filter_map, sorted]
  rfl

theorem foldl_assign_mapValues (f : V → W) (object : List (String × V)) :
    (mapValues f entries).foldl (fun object entry => assign object entry.1 entry.2) (mapValues f object) =
      mapValues f (entries.foldl (fun object entry => assign object entry.1 entry.2) object) := by
  induction entries generalizing object with
  | nil => rfl
  | cons entry rest ih => rw [mapValues_cons, List.foldl_cons, List.foldl_cons, ← assign_mapValues, ih]

theorem fromEntries_mapValues (f : V → W) : fromEntries (mapValues f entries) = mapValues f (fromEntries entries) := by
  rw [fromEntries, fromEntries, ← enumerate_mapValues, ← foldl_assign_mapValues]
  rfl

theorem mem_assign {entry : String × V} {value : V} (member : entry ∈ assign entries name value) :
    entry ∈ entries ∨ entry = (name, value) := by
  unfold assign at member
  split at member
  · obtain ⟨source, listed, same⟩ := List.mem_map.mp member
    split at same
    · exact .inr same.symm
    · exact .inl (same ▸ listed)
  · simpa using member

theorem mem_foldl_assign {entry : String × V} (object : List (String × V))
    (member : entry ∈ entries.foldl (fun object entry => assign object entry.1 entry.2) object) :
    entry ∈ object ∨ entry ∈ entries := by
  induction entries generalizing object with
  | nil => exact .inl member
  | cons first rest ih =>
    rcases ih _ member with before | later
    · rcases mem_assign before with before | rfl
      · exact .inl before
      · exact .inr List.mem_cons_self
    · exact .inr (List.mem_cons_of_mem _ later)

theorem mem_fromEntries {entry : String × V} (member : entry ∈ fromEntries entries) : entry ∈ entries :=
  (mem_foldl_assign [] ((enumerate_perm _).mem_iff.mp member)).resolve_left List.not_mem_nil

theorem mem_mapValues {f : V → W} {entry : String × W} :
    entry ∈ mapValues f entries ↔ ∃ source ∈ entries, entry = (source.1, f source.2) := by
  simp [mapValues, eq_comm]

theorem mapValues_mapValues {X : Type*} (f : V → W) (g : W → X) :
    mapValues g (mapValues f entries) = mapValues (fun value => g (f value)) entries := by
  simp [mapValues]

/-! Where the order an object lists its names in is that of their code units. -/

/-- No array index sorts after a name that is listed later: one that is no array index, or
one of a greater number. -/
def ListedSorted (names : List String) : Prop :=
  ∀ a ∈ names, ∀ n, arrayIndex? a = some n → ∀ b ∈ names, (∀ m, arrayIndex? b = some m → n < m) → unitsLe a b

theorem listedSorted_of_names {names : List String} (none : ∀ name ∈ names, isIndex name = false) :
    ListedSorted names := by
  intro a member n index
  have absent := none a member
  rw [isIndex, index] at absent
  contradiction

theorem ListedSorted.perm {names more : List String} (listed : ListedSorted names) (same : names.Perm more) :
    ListedSorted more :=
  fun a member n index b later => listed a (same.mem_iff.mpr member) n index b (same.mem_iff.mpr later)

theorem insertionSort_indexLe (entries : List (String × V)) : (entries.insertionSort indexLe).Pairwise indexLe := by
  have : Std.Total (indexLe (V := V)) := ⟨fun _ _ => Nat.le_total _ _⟩
  have : IsTrans (String × V) indexLe := ⟨fun _ _ _ => Nat.le_trans⟩
  exact List.pairwise_insertionSort indexLe entries

theorem sorted_of_enumerate (sorted : (enumerate entries).Pairwise keyLe) :
    ListedSorted (entries.map Prod.fst) := by
  rintro _ named n index _ named' later
  obtain ⟨a, first, rfl⟩ := List.mem_map.mp named
  obtain ⟨b, second, rfl⟩ := List.mem_map.mp named'
  rw [enumerate, List.pairwise_append] at sorted
  obtain ⟨indices, -, across⟩ := sorted
  have low : a ∈ (entries.filter fun entry => isIndex entry.1).insertionSort indexLe := by
    simp [List.mem_insertionSort, first, isIndex, index]
  cases high : arrayIndex? b.1 with
  | none => exact across a low b (by simp [second, isIndex, high])
  | some m =>
    have high' : b ∈ (entries.filter fun entry => isIndex entry.1).insertionSort indexLe := by
      simp [List.mem_insertionSort, second, isIndex, high]
    have ordered := insertionSort_indexLe (entries.filter fun entry => isIndex entry.1)
    let Agree (x y : String × V) : Prop := (¬ indexLe y x → keyLe x y) ∧ (¬ indexLe x y → keyLe y x)
    have agree := (indices.and ordered).imp (S := Agree) fun {x y} both =>
      ⟨fun _ => both.1, fun less => absurd both.2 less⟩
    have different : a ≠ b := by
      rintro rfl
      exact Nat.lt_irrefl _ (later n index)
    have : Std.Symm Agree := ⟨fun x y both => ⟨both.2, both.1⟩⟩
    have related := agree.forall low high' different
    apply related.1
    simpa [indexLe, index, high] using later m high

theorem enumerate_sorted (sorted : entries.Pairwise keyLe) (listed : ListedSorted (entries.map Prod.fst)) :
    (enumerate entries).Pairwise keyLe := by
  have member : ∀ {entry : String × V}, entry ∈ entries → entry.1 ∈ entries.map Prod.fst :=
    fun inside => List.mem_map_of_mem inside
  rw [enumerate, List.pairwise_append]
  refine ⟨?_, sorted.filter _, ?_⟩
  · have ordered := insertionSort_indexLe (entries.filter fun entry => isIndex entry.1)
    refine ordered.imp_of_mem ?_
    intro a b first second le
    rw [List.mem_insertionSort, List.mem_filter] at first second
    obtain ⟨n, index⟩ := Option.isSome_iff_exists.mp first.2
    obtain ⟨m, index'⟩ := Option.isSome_iff_exists.mp second.2
    have le : n ≤ m := by simpa [indexLe, index, index'] using le
    rcases Nat.eq_or_lt_of_le le with same | less
    · have named : a.1 = b.1 := arrayIndex?_inj index (same ▸ index')
      rw [keyLe, named]
      exact le_refl (codeUnits b.1)
    · refine listed _ (member first.1) n index _ (member second.1) fun k found => ?_
      rw [index'] at found
      exact Option.some.inj found ▸ less
  · intro a first b second
    rw [List.mem_insertionSort, List.mem_filter] at first
    obtain ⟨n, index⟩ := Option.isSome_iff_exists.mp first.2
    rw [List.mem_filter] at second
    refine listed _ (member first.1) n index _ (member second.1) fun k found => ?_
    simp [isIndex, found] at second

end Audr.Properties
