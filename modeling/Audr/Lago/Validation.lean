import Audr.Lago.Response
import Audr.Lib.Decimal
import Mathlib.Data.List.Forall2
import Mathlib.Data.List.Sort

/-! Which `422` bodies are trusted, and what a trusted one says of the events of its request. -/

namespace Audr.Lago

open Decimal

/-- A key is a position where it is the position's decimal. -/
theorem position_iff {key : String} {index : Nat} : position key = some index ↔ key = toString index := by
  have spelled : key = toString index ↔ key.toList = Nat.toDigits 10 index := by
    rw [← String.toList_inj, ← Nat.toList_repr]
    rfl
  have value : ∀ digits : List Char,
      digits.foldl (fun value digit => 10 * value + (digit.toNat - '0'.toNat)) 0 = Nat.ofDigitChars 10 digits 0 := by
    intro digits
    rw [Nat.ofDigitChars_eq_foldl]
  rw [spelled]
  unfold position
  split
  next zero =>
    rw [zero, Option.some.injEq]
    constructor
    · rintro rfl
      rfl
    · intro digits
      by_contra other
      obtain ⟨first, head, nonzero⟩ := head_toDigits (Nat.pos_of_ne_zero fun same => other same.symm)
      rw [← digits] at head
      exact nonzero (by simpa using head.symm)
  next first rest others listed =>
    rw [listed, value]
    split
    next digits =>
      have leading := (nonzero_digit first).mp ⟨digits.1, digits.2.1⟩
      have all : ∀ c ∈ first :: rest, c.isDigit = true :=
        List.forall_mem_cons.mpr ⟨leading.1, List.all_eq_true.mp digits.2.2⟩
      have back := toDigits_ofDigitChars all rfl leading.2
      rw [Option.some.injEq]
      constructor
      · rintro rfl
        exact back.symm
      · intro same
        rw [same, Nat.ofDigitChars_ten_toDigits]
    next bad =>
      simp only [reduceCtorEq, false_iff]
      intro same
      have all : ∀ c ∈ first :: rest, c.isDigit = true := by
        intro c member
        rw [same] at member
        exact Nat.isDigit_of_mem_toDigits (by decide) (by decide) member
      have positive : 0 < index := by
        apply Nat.pos_of_ne_zero
        rintro rfl
        rw [Nat.toDigits_zero] at same
        exact others (List.cons.inj same).1 (List.cons.inj same).2
      obtain ⟨start, head, nonzero⟩ := head_toDigits positive
      rw [← same] at head
      have start_eq : first = start := by simpa using head
      have leading := (nonzero_digit first).mpr ⟨all first (by simp), start_eq ▸ nonzero⟩
      exact bad ⟨leading.1, leading.2, List.all_eq_true.mpr fun c member => all c (by simp [member])⟩
  next empty =>
    rw [empty]
    simp [Nat.toDigits_ne_nil.symm]

variable {details : List (String × Json Double)} {entry value : Json Double} {eventCount : Nat}

/-- An error code an entry lists under a field. -/
def Lists (entry : Json Double) (field code : String) : Prop :=
  ∃ errors listed, entry = .obj errors ∧ (field, .arr listed) ∈ errors ∧ .str code ∈ listed

/-- An entry that can be read: a message, or at least one field with at least one code each. -/
def Readable (entry : Json Double) : Prop :=
  (∃ message, entry = .str message) ∨ ∃ errors, entry = .obj errors ∧ errors ≠ [] ∧
    ∀ error ∈ errors, ∃ listed : List String, listed ≠ [] ∧ error.2 = .arr (listed.map .str)

/-- Every error of an entry says that the event is held already. -/
def AlreadyHeld (entry : Json Double) : Prop :=
  (∃ errors, entry = .obj errors) ∧
    ∀ field code, Lists entry field code → field = duplicateField ∧ code = duplicateCode

/-- What `error_details` has to be to be acted on. -/
structure Trusted (eventCount : Nat) (details : List (String × Json Double)) : Prop where
  nonempty : details ≠ []
  positions : ∀ entry ∈ details, ∃ index < eventCount, entry.1 = toString index
  readable : ∀ entry ∈ details, Readable entry.2

/-- All details there are. -/
def knownDetails : List String :=
  expressionFailure :: (fields ++ ["event"]).flatMap fun field =>
    (codes ++ ["validation_error"]).map fun code => field ++ ":" ++ code

/-- A verdict that says of each position named what its entry says. -/
structure Exact (details : List (String × Json Double)) (verdict : ValidationVerdict) : Prop where
  duplicatesSorted : verdict.duplicates.Pairwise (· < ·)
  invalidSorted : (verdict.invalid.map Prod.fst).Pairwise (· < ·)
  apart : ∀ index ∈ verdict.duplicates, index ∉ verdict.invalid.map Prod.fst
  named : ∀ index, index ∈ verdict.duplicates ∨ index ∈ verdict.invalid.map Prod.fst ↔
    toString index ∈ details.map Prod.fst
  held : ∀ index entry, (toString index, entry) ∈ details → (index ∈ verdict.duplicates ↔ AlreadyHeld entry)
  known : ∀ refusal ∈ verdict.invalid, refusal.2 ∈ knownDetails

/-! One entry. -/

theorem mapM_eq_some {A B : Type} {f : A → Option B} {items : List A} {results : List B} :
    items.mapM f = some results ↔ List.Forall₂ (fun item result => f item = some result) items results := by
  induction items generalizing results with
  | nil => cases results <;> simp
  | cons item rest ih =>
    rw [List.mapM_cons, List.forall₂_cons_left_iff]
    simp only [bind, Option.bind_eq_some_iff, pure, Option.some.injEq]
    constructor
    · rintro ⟨result, found, later, read, rfl⟩
      exact ⟨result, later, found, ih.mp read, rfl⟩
    · rintro ⟨result, later, found, read, rfl⟩
      exact ⟨result, found, later, ih.mpr read, rfl⟩

/-- Items read one by one, each spelled in one way. -/
theorem mapM_eq_map {A B : Type} {f : A → Option B} {spell : B → A} (reads : ∀ item read, f item = some read ↔ item = spell read)
    {items : List A} {results : List B} : items.mapM f = some results ↔ items = results.map spell := by
  rw [mapM_eq_some]
  induction items generalizing results with
  | nil => cases results <;> simp
  | cons item rest ih =>
    cases results with
    | nil => simp
    | cons read later => rw [List.forall₂_cons, ih, List.map_cons, List.cons.injEq, reads]

theorem fieldCodes_eq_some {found : Option (Json Double)} {listed : List String} :
    fieldCodes found = some listed ↔ listed ≠ [] ∧ found = some (.arr (listed.map .str)) := by
  unfold fieldCodes
  split
  next first rest =>
    refine (@mapM_eq_map _ _ _ Json.str ?_ _ _).trans ?_
    · intro item text
      cases item <;> simp
    rw [Option.some.injEq, Json.arr.injEq]
    constructor
    · intro same
      refine ⟨?_, same⟩
      rintro rfl
      cases same
    · exact And.right
  next other =>
    simp only [reduceCtorEq, false_iff, not_and]
    rintro nonempty rfl
    cases listed with
    | nil => exact nonempty rfl
    | cons code later => exact other _ _ rfl

theorem mem_mapM {A B : Type} {f : A → Option B} {items : List A} {results : List B}
    (mapped : items.mapM f = some results) {result : B} :
    result ∈ results ↔ ∃ item ∈ items, f item = some result := by
  have pairs := mapM_eq_some.mp mapped
  clear mapped
  induction pairs with
  | nil => simp
  | cons pair _ ih =>
    simp only [List.mem_cons, exists_eq_or_imp, pair, Option.some.injEq]
    exact or_congr eq_comm ih

theorem mapM_isSome {A B : Type} {f : A → Option B} {items : List A} :
    (items.mapM f).isSome = true ↔ ∀ item ∈ items, (f item).isSome = true := by
  induction items with
  | nil => simp
  | cons item rest ih =>
    rw [List.forall_mem_cons, ← ih, List.mapM_cons]
    cases f item <;> cases rest.mapM f <;> simp

/-- The errors under one field of an entry. -/
def fieldPairs (errors : List (String × Json Double)) (field : String) : Option (List (String × String)) := do
  let found ← fieldCodes (Json.get? field errors)
  return found.map fun code => (field, code)

theorem fieldPairs_eq_some {errors : List (String × Json Double)} (distinct : (errors.map Prod.fst).Nodup)
    {field : String} {pairs : List (String × String)} :
    fieldPairs errors field = some pairs ↔ ∃ listed : List String, listed ≠ [] ∧
      (field, .arr (listed.map .str)) ∈ errors ∧ pairs = listed.map fun code => (field, code) := by
  simp only [fieldPairs, bind, pure, Option.bind_eq_some_iff, fieldCodes_eq_some, Json.get?_eq_some distinct,
    Option.some.injEq, and_assoc]
  refine exists_congr fun listed => and_congr_right fun _ => and_congr_right fun _ => ?_
  exact eq_comm

theorem errorPairs_obj {errors : List (String × Json Double)} {pairs : List (String × String)} :
    errorPairs (.obj errors) = some pairs ↔ ∃ groups, (sortUnits (errors.map Prod.fst)).mapM (fieldPairs errors) = some groups ∧
      groups.flatten ≠ [] ∧ pairs = groups.flatten := by
  simp only [errorPairs, bind, Option.bind_eq_some_iff]
  refine exists_congr fun groups => and_congr Iff.rfl ?_
  cases groups.flatten <;> simp [eq_comm]

theorem mem_names {errors : List (String × Json Double)} {field : String} :
    field ∈ sortUnits (errors.map Prod.fst) ↔ ∃ value, (field, value) ∈ errors := by
  simp [sortUnits]

/-- The pairs of an entry are the errors it lists, and every field has some. -/
theorem errorPairs_eq_some {errors : List (String × Json Double)} (distinct : (errors.map Prod.fst).Nodup)
    {pairs : List (String × String)} (read : errorPairs (.obj errors) = some pairs) :
    Readable (.obj errors) ∧ ∀ field code, (field, code) ∈ pairs ↔ Lists (.obj errors) field code := by
  obtain ⟨groups, mapped, filled, rfl⟩ := errorPairs_obj.mp read
  have each : ∀ error ∈ errors, ∃ listed : List String, listed ≠ [] ∧ error.2 = .arr (listed.map .str) := by
    intro error member
    have some := mapM_isSome.mp (Option.isSome_iff_exists.mpr ⟨_, mapped⟩) error.1 (mem_names.mpr ⟨_, member⟩)
    obtain ⟨group, found⟩ := Option.isSome_iff_exists.mp some
    obtain ⟨listed, nonempty, held, -⟩ := (fieldPairs_eq_some distinct).mp found
    have same := List.inj_on_of_nodup_map distinct held member rfl
    exact ⟨listed, nonempty, (congrArg Prod.snd same).symm⟩
  refine ⟨.inr ⟨errors, rfl, ?_, each⟩, fun field code => ?_⟩
  · rintro rfl
    cases mapped
    exact filled rfl
  · rw [List.mem_flatten]
    constructor
    · rintro ⟨group, member, listed⟩
      obtain ⟨name, -, found⟩ := (mem_mapM mapped).mp member
      obtain ⟨codes, -, held, rfl⟩ := (fieldPairs_eq_some distinct).mp found
      obtain ⟨code, coded, same⟩ := List.mem_map.mp listed
      cases same
      exact ⟨errors, _, rfl, held, List.mem_map_of_mem coded⟩
    · rintro ⟨_, items, same, held, coded⟩
      cases same
      obtain ⟨listed, nonempty, spelled⟩ := each _ held
      cases spelled
      obtain ⟨text, member, same⟩ := List.mem_map.mp coded
      cases same
      exact ⟨listed.map fun code => (field, code), (mem_mapM mapped).mpr ⟨field, mem_names.mpr ⟨_, held⟩,
        (fieldPairs_eq_some distinct).mpr ⟨listed, nonempty, held, rfl⟩⟩, List.mem_map_of_mem member⟩

theorem errorPairs_isSome {errors : List (String × Json Double)} (distinct : (errors.map Prod.fst).Nodup)
    (nonempty : errors ≠ [])
    (each : ∀ error ∈ errors, ∃ listed : List String, listed ≠ [] ∧ error.2 = .arr (listed.map .str)) :
    ∃ pairs, errorPairs (.obj errors) = some pairs := by
  have read : ∀ error ∈ errors, ∃ group, group ≠ [] ∧ fieldPairs errors error.1 = some group := by
    intro error member
    obtain ⟨listed, filled, held⟩ := each error member
    exact ⟨_, by simpa using filled, (fieldPairs_eq_some distinct).mpr ⟨listed, filled, held ▸ member, rfl⟩⟩
  have mapped : ((sortUnits (errors.map Prod.fst)).mapM (fieldPairs errors)).isSome = true := by
    refine mapM_isSome.mpr fun field named => ?_
    obtain ⟨value, member⟩ := mem_names.mp named
    obtain ⟨group, -, found⟩ := read _ member
    rw [found, Option.isSome_some]
  obtain ⟨groups, mapped⟩ := Option.isSome_iff_exists.mp mapped
  refine ⟨_, errorPairs_obj.mpr ⟨groups, mapped, ?_, rfl⟩⟩
  obtain ⟨error, member⟩ := List.exists_mem_of_ne_nil errors nonempty
  obtain ⟨group, filled, found⟩ := read error member
  have inside := (mem_mapM mapped).mpr ⟨error.1, mem_names.mpr ⟨_, member⟩, found⟩
  intro empty
  exact filled (List.flatten_eq_nil_iff.mp empty group inside)

/-- An error that is no duplicate. -/
def refuses (pair : String × String) : Bool := pair.1 ≠ duplicateField || pair.2 ≠ duplicateCode

def refusalDetail (refusal : String × String) : String :=
  allowed fields refusal.1 "event" ++ ":" ++ allowed codes refusal.2 "validation_error"

theorem entryVerdict_obj (errors : List (String × Json Double)) :
    entryVerdict (.obj errors) = (errorPairs (.obj errors)).map fun pairs => (pairs.find? refuses).map refusalDetail := by
  unfold entryVerdict
  simp only [bind]
  cases errorPairs (.obj errors) with
  | none => rfl
  | some pairs =>
    have same : (fun pair : String × String => decide (pair.1 ≠ duplicateField) || decide (pair.2 ≠ duplicateCode)) = refuses :=
      rfl
    simp only [Option.bind_some, Option.map_some]
    split
    next found => rw [show pairs.find? refuses = none from found, Option.map_none]
    next refusal found => rw [show pairs.find? refuses = some refusal from found, Option.map_some, refusalDetail]

/-- The entries something is read of. -/
theorem entryVerdict_isSome (proper : entry.Proper) : (entryVerdict entry).isSome = true ↔ Readable entry := by
  cases proper with
  | str message => simp [entryVerdict, Readable]
  | @obj errors distinct each =>
    rw [entryVerdict_obj, Option.isSome_map]
    constructor
    · intro some
      obtain ⟨pairs, read⟩ := Option.isSome_iff_exists.mp some
      exact (errorPairs_eq_some distinct read).1
    · rintro (⟨message, same⟩ | ⟨_, same, nonempty, listed⟩)
      · cases same
      · cases same
        exact Option.isSome_iff_exists.mpr (errorPairs_isSome distinct nonempty listed)
  | _ => simp [entryVerdict, errorPairs, Readable]

/-- The entries of events that are held already. -/
theorem entryVerdict_held (proper : entry.Proper) (readable : Readable entry) :
    entryVerdict entry = some none ↔ AlreadyHeld entry := by
  rcases readable with ⟨message, rfl⟩ | ⟨errors, rfl, nonempty, each⟩
  · simp [entryVerdict, AlreadyHeld]
  · obtain - | - | - | - | - | ⟨distinct, -⟩ := proper
    obtain ⟨pairs, read⟩ := errorPairs_isSome distinct nonempty each
    have listed := (errorPairs_eq_some distinct read).2
    simp only [entryVerdict_obj, read, Option.map_some, Option.some.injEq, Option.map_eq_none_iff, List.find?_eq_none,
      AlreadyHeld, Json.obj.injEq, exists_eq', true_and]
    simp only [← listed, Prod.forall]
    refine forall₂_congr fun field code => imp_congr_right fun _ => ?_
    simp [refuses]

theorem allowed_mem (names : List String) (name fallback : String) : allowed names name fallback ∈ names ++ [fallback] := by
  unfold allowed
  split <;> simp [*]

/-- Nothing of a body but the names known reaches a detail. -/
theorem entryVerdict_known {detail : String} (read : entryVerdict entry = some (some detail)) : detail ∈ knownDetails := by
  have built : ∀ refusal, refusalDetail refusal ∈ knownDetails := by
    intro refusal
    refine List.mem_cons_of_mem _ (List.mem_flatMap.mpr ⟨_, allowed_mem fields refusal.1 "event", ?_⟩)
    exact List.mem_map.mpr ⟨_, allowed_mem codes refusal.2 "validation_error", rfl⟩
  cases entry with
  | str message =>
    cases read
    exact List.mem_cons_self
  | obj errors =>
    rw [entryVerdict_obj] at read
    obtain ⟨pairs, -, found⟩ := Option.map_eq_some_iff.mp read
    obtain ⟨refusal, -, rfl⟩ := Option.map_eq_some_iff.mp found
    exact built refusal
  | _ => cases read

/-! All entries. -/

/-- What the entries say in their order, before it is sorted. -/
structure Reads (eventCount : Nat) (details : List (String × Json Double)) (verdict : ValidationVerdict) : Prop where
  each : ∀ entry ∈ details, ∃ index < eventCount, position entry.1 = some index ∧ (entryVerdict entry.2).isSome = true
  names : (details.map Prod.fst).Perm ((verdict.duplicates ++ verdict.invalid.map Prod.fst).map toString)
  duplicates : ∀ index ∈ verdict.duplicates, ∃ entry, (toString index, entry) ∈ details ∧ entryVerdict entry = some none
  invalid : ∀ refusal ∈ verdict.invalid, ∃ entry, (toString refusal.1, entry) ∈ details ∧
    entryVerdict entry = some (some refusal.2)

theorem readEntries_reads {verdict : ValidationVerdict} (read : readEntries eventCount details = some verdict) :
    Reads eventCount details verdict := by
  induction details generalizing verdict with
  | nil =>
    cases read
    constructor <;> simp
  | cons first rest ih =>
    obtain ⟨key, errors⟩ := first
    simp only [readEntries, bind, Option.bind_eq_some_iff] at read
    obtain ⟨index, placed, read⟩ := read
    split at read
    · simp at read
    next inside =>
      simp only [Option.bind_eq_some_iff] at read
      obtain ⟨said, found, later, more, read⟩ := read
      have reads := ih more
      have key_eq := position_iff.mp placed
      have head : ∃ index < eventCount, position key = some index ∧ (entryVerdict errors).isSome = true :=
        ⟨index, Nat.lt_of_not_le inside, placed, by rw [found, Option.isSome_some]⟩
      cases said with
      | none =>
        cases read
        refine ⟨List.forall_mem_cons.mpr ⟨head, reads.each⟩, ?_, ?_, ?_⟩
        · simpa [key_eq] using reads.names
        · refine List.forall_mem_cons.mpr ⟨⟨errors, by simp [key_eq], found⟩, fun index member => ?_⟩
          obtain ⟨entry, listed, held⟩ := reads.duplicates index member
          exact ⟨entry, List.mem_cons_of_mem _ listed, held⟩
        · intro refusal member
          obtain ⟨entry, listed, refused⟩ := reads.invalid refusal member
          exact ⟨entry, List.mem_cons_of_mem _ listed, refused⟩
      | some detail =>
        cases read
        refine ⟨List.forall_mem_cons.mpr ⟨head, reads.each⟩, ?_, ?_, ?_⟩
        · have names := reads.names.cons key
          rw [List.map_append] at names
          simpa [key_eq] using names.trans List.perm_middle.symm
        · intro index member
          obtain ⟨entry, listed, held⟩ := reads.duplicates index member
          exact ⟨entry, List.mem_cons_of_mem _ listed, held⟩
        · refine List.forall_mem_cons.mpr ⟨⟨errors, by simp [key_eq], found⟩, fun refusal member => ?_⟩
          obtain ⟨entry, listed, refused⟩ := reads.invalid refusal member
          exact ⟨entry, List.mem_cons_of_mem _ listed, refused⟩

theorem readEntries_isSome (each : ∀ entry ∈ details, ∃ index < eventCount, position entry.1 = some index ∧
    (entryVerdict entry.2).isSome = true) : (readEntries eventCount details).isSome = true := by
  induction details with
  | nil => rfl
  | cons first rest ih =>
    obtain ⟨⟨index, inside, placed, some⟩, others⟩ := List.forall_mem_cons.mp each
    obtain ⟨later, more⟩ := Option.isSome_iff_exists.mp (ih others)
    obtain ⟨said, found⟩ := Option.isSome_iff_exists.mp some
    have within : ¬eventCount ≤ index := Nat.not_le_of_lt inside
    obtain ⟨key, errors⟩ := first
    simp only [readEntries, placed, found, more, bind, Option.bind_some, within, if_false]
    cases said <;> rfl

theorem strictly_sorted {A : Type} {f : A → Nat} {items : List A}
    (sorted : items.Pairwise fun a b => f a ≤ f b) (distinct : (items.map f).Nodup) :
    (items.map f).Pairwise (· < ·) := by
  have both := (List.pairwise_map.mpr sorted).and distinct
  exact both.imp fun pair => lt_of_le_of_ne pair.1 pair.2

theorem toString_injective {a b : Nat} (same : toString a = toString b) : a = b :=
  Option.some.inj ((position_iff.mpr rfl).symm.trans (same ▸ position_iff.mpr rfl))

/-- A verdict says of each position named what its entry says. -/
theorem Reads.exact {verdict : ValidationVerdict} (reads : Reads eventCount details verdict)
    (distinct : (details.map Prod.fst).Nodup) (proper : ∀ entry ∈ details, entry.2.Proper) :
    Exact details ⟨verdict.duplicates.insertionSort (· ≤ ·), verdict.invalid.insertionSort fun a b => a.1 ≤ b.1⟩ := by
  have heldPerm := List.perm_insertionSort (· ≤ ·) verdict.duplicates
  have refusedPerm := List.perm_insertionSort (fun a b : Nat × String => a.1 ≤ b.1) verdict.invalid
  have apart : (verdict.duplicates ++ verdict.invalid.map Prod.fst).Nodup :=
    ((reads.names.nodup_iff).mp distinct).of_map _
  obtain ⟨one, other, disjoint⟩ := List.nodup_append.mp apart
  have heldSorted : (verdict.duplicates.insertionSort (· ≤ ·)).Pairwise (· ≤ ·) := List.pairwise_insertionSort _ _
  have refusedSorted : (verdict.invalid.insertionSort fun a b => a.1 ≤ b.1).Pairwise fun a b => a.1 ≤ b.1 := by
    have : Std.Total (fun a b : Nat × String => a.1 ≤ b.1) := ⟨fun a b => le_total a.1 b.1⟩
    have : IsTrans (Nat × String) (fun a b => a.1 ≤ b.1) := ⟨fun _ _ _ => le_trans⟩
    exact List.pairwise_insertionSort _ _
  have unique : ∀ {index : Nat} {a b}, (toString index, a) ∈ details → (toString index, b) ∈ details → a = b :=
    fun first second => congrArg Prod.snd (List.inj_on_of_nodup_map distinct first second rfl)
  constructor
  · simpa using strictly_sorted (f := id) heldSorted (by simpa using (heldPerm.nodup_iff).mpr one)
  · exact strictly_sorted refusedSorted (((refusedPerm.map Prod.fst).nodup_iff).mpr other)
  · intro index member refused
    exact disjoint index (heldPerm.mem_iff.mp member) index ((refusedPerm.map Prod.fst).mem_iff.mp refused) rfl
  · intro index
    rw [heldPerm.mem_iff, (refusedPerm.map Prod.fst).mem_iff, ← List.mem_append, reads.names.mem_iff]
    constructor
    · exact List.mem_map_of_mem
    · intro named
      obtain ⟨other, member, same⟩ := List.mem_map.mp named
      rwa [← toString_injective same]
  · intro index entry member
    obtain ⟨_, -, -, some⟩ := reads.each _ member
    have proper := proper _ member
    rw [heldPerm.mem_iff, ← entryVerdict_held proper ((entryVerdict_isSome proper).mp some)]
    constructor
    · intro held
      obtain ⟨entry, listed, said⟩ := reads.duplicates index held
      rwa [unique member listed]
    · intro said
      have named := (reads.names.mem_iff).mp (List.mem_map_of_mem member)
      obtain ⟨other, found, same⟩ := List.mem_map.mp named
      obtain rfl := toString_injective same
      rcases List.mem_append.mp found with held | refused
      · exact held
      · obtain ⟨refusal, listed, rfl⟩ := List.mem_map.mp refused
        obtain ⟨entry, named, refused⟩ := reads.invalid refusal listed
        rw [unique member named, refused] at said
        cases said
  · intro refusal member
    obtain ⟨entry, -, said⟩ := reads.invalid refusal (refusedPerm.mem_iff.mp member)
    exact entryVerdict_known said

theorem errorDetails_eq_some {body : Option (Json Double)} (proper : ∀ value ∈ body, value.Proper) :
    errorDetails body = some details ↔
      ∃ members, body = some (.obj members) ∧ ("error_details", .obj details) ∈ members := by
  unfold errorDetails
  cases body with
  | none => simp
  | some value =>
    cases proper value rfl with
    | @obj members distinct _ =>
      simp only [Option.bind_some, member, Option.some.injEq, Json.obj.injEq, exists_eq_left', ← Json.get?_eq_some distinct]
      split
      next held => simp [held]
      next other =>
        simp only [reduceCtorEq, false_iff]
        exact other details
    | _ => simp [member]

theorem parse_eq_some {body : Option (Json Double)} {verdict : ValidationVerdict} :
    parseValidationErrors body eventCount = some verdict ↔ ∃ details read,
      errorDetails body = some details ∧ details ≠ [] ∧ readEntries eventCount details = some read ∧
        (⟨read.duplicates.insertionSort (· ≤ ·), read.invalid.insertionSort fun a b => a.1 ≤ b.1⟩ : ValidationVerdict) =
          verdict := by
  unfold parseValidationErrors
  cases errorDetails body with
  | none => simp
  | some details =>
    cases details with
    | nil => simp
    | cons first rest => cases read : readEntries eventCount (first :: rest) <;> simp [read]

/-- A `422` body is acted on exactly where each of its entries can be trusted, and its verdict
then says of each event named what its entry says, in words of a fixed list. -/
theorem parseValidationErrors_exact (body : Option (Json Double)) (eventCount : Nat)
    (proper : ∀ value ∈ body, value.Proper) :
    ((parseValidationErrors body eventCount).isSome = true ↔ ∃ members details,
      body = some (.obj members) ∧ ("error_details", .obj details) ∈ members ∧ Trusted eventCount details) ∧
    ∀ verdict ∈ parseValidationErrors body eventCount, ∀ members details,
      body = some (.obj members) → ("error_details", .obj details) ∈ members → Exact details verdict := by
  have inner : ∀ members details, body = some (.obj members) → ("error_details", .obj details) ∈ members →
      (details.map Prod.fst).Nodup ∧ ∀ entry ∈ details, entry.2.Proper := by
    intro members details found held
    obtain - | - | - | - | - | ⟨-, each⟩ := proper _ found
    obtain - | - | - | - | - | ⟨distinct, deeper⟩ := each _ held
    exact ⟨distinct, deeper⟩
  refine ⟨?_, ?_⟩
  · rw [Option.isSome_iff_exists]
    constructor
    · rintro ⟨verdict, acted⟩
      obtain ⟨details, read, found, nonempty, entries, -⟩ := parse_eq_some.mp acted
      obtain ⟨members, spelled, held⟩ := (errorDetails_eq_some proper).mp found
      have reads := readEntries_reads entries
      refine ⟨members, details, spelled, held, nonempty, fun entry member => ?_, fun entry member => ?_⟩
      · obtain ⟨index, inside, placed, -⟩ := reads.each entry member
        exact ⟨index, inside, position_iff.mp placed⟩
      · obtain ⟨_, -, -, some⟩ := reads.each entry member
        exact (entryVerdict_isSome ((inner members details spelled held).2 entry member)).mp some
    · rintro ⟨members, details, spelled, held, trusted⟩
      have each : ∀ entry ∈ details, ∃ index < eventCount, position entry.1 = some index ∧
          (entryVerdict entry.2).isSome = true := by
        intro entry member
        obtain ⟨index, inside, key⟩ := trusted.positions entry member
        have proper := (inner members details spelled held).2 entry member
        exact ⟨index, inside, position_iff.mpr key, (entryVerdict_isSome proper).mpr (trusted.readable entry member)⟩
      obtain ⟨read, entries⟩ := Option.isSome_iff_exists.mp (readEntries_isSome each)
      exact ⟨_, parse_eq_some.mpr ⟨details, read, (errorDetails_eq_some proper).mpr ⟨members, spelled, held⟩,
        trusted.nonempty, entries, rfl⟩⟩
  · intro verdict acted members details spelled held
    obtain ⟨same, read, found, -, entries, rfl⟩ := parse_eq_some.mp acted
    have located := (errorDetails_eq_some proper).mpr ⟨members, spelled, held⟩
    rw [located] at found
    cases found
    obtain ⟨distinct, deeper⟩ := inner members details spelled held
    exact (readEntries_reads entries).exact distinct deeper

/-- A body that names an event already held and one with a field Lago refuses. -/
theorem parseValidationErrors_exact_mixed :
    ((parseValidationErrors (some (.obj [("error_details",
        .obj [("1", .obj [("transaction_id", .arr [.str "value_already_exist"])]), ("0", .str "secret")])])) 2).isSome = true) := by
  have held : Json.Proper (.obj [("transaction_id", .arr [.str "value_already_exist"])] : Json Double) := by
    refine .obj (by simp) fun entry member => ?_
    rw [List.mem_singleton.mp member]
    exact .arr fun item member => List.mem_singleton.mp member ▸ .str _
  have details : Json.Proper (.obj [("1", .obj [("transaction_id", .arr [.str "value_already_exist"])]), ("0", .str "secret")] :
      Json Double) := by
    refine .obj (by decide) (List.forall_mem_cons.mpr ⟨held, fun entry member => ?_⟩)
    rw [List.mem_singleton.mp member]
    exact .str _
  refine ((parseValidationErrors_exact _ 2 fun value member => ?_).1).mpr ⟨_, _, rfl, List.mem_singleton.mpr rfl, ?_⟩
  · cases member
    refine .obj (by simp) fun entry member => ?_
    rw [List.mem_singleton.mp member]
    exact details
  · refine ⟨by simp, ?_, ?_⟩
    · exact List.forall_mem_cons.mpr ⟨⟨1, by decide, rfl⟩, by simpa using ⟨0, by decide, rfl⟩⟩
    · refine List.forall_mem_cons.mpr ⟨.inr ⟨_, rfl, by simp, fun error member => ?_⟩, ?_⟩
      · rw [List.mem_singleton.mp member]
        exact ⟨["value_already_exist"], by simp, rfl⟩
      · intro entry member
        rw [List.mem_singleton.mp member]
        exact .inl ⟨_, rfl⟩

end Audr.Lago
