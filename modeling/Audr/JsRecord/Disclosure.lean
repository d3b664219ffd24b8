import Audr.JsRecord.Undisclosed

/-! The path `encodeRecord` reports: where it shows a name from beneath `labels`. -/

namespace Audr.JsRecord

open Properties

variable {path : List String} {value x y : Value} {members : List (String × Value)} {plain : Bool} {rule : NameRule}
  {place : Place}

/-! Where `sortKeys` stops. -/

/-- The members `sortKeys` goes through, in its order. -/
def sortedMembers (members : List (String × Value)) : List (String × Value) :=
  sortEntries (members.filter fun entry => entry.2.isDefined)

mutual

/-- The names that lead to the first value `sortKeys` refuses. -/
def offence : Value → Option (List String)
  | .number number => if number.isFinite then none else some []
  | .array _ => some []
  | .object plain members =>
      if plain then (sortEntries (offences members)).findSome? fun entry => entry.2.map (entry.1 :: ·) else some []
  | _ => none

def offences : List (String × Value) → List (String × Option (List String))
  | [] => []
  | (name, value) :: rest => if value.isDefined then (name, offence value) :: offences rest else offences rest

end

/-- Whether `sortKeys` refuses a value. -/
def refused (value : Value) : Bool := (offence value).isSome

theorem offences_eq : offences members = mapValues offence (members.filter fun entry => entry.2.isDefined) := by
  induction members with
  | nil => rfl
  | cons entry rest ih =>
    obtain ⟨name, value⟩ := entry
    rw [offences, ih]
    by_cases defined : value.isDefined = true <;> simp [defined, mapValues]

theorem offence_object :
    offence (.object true members) =
      (sortedMembers members).findSome? fun entry => (offence entry.2).map (entry.1 :: ·) := by
  rw [offence, if_pos rfl, offences_eq, sortEntries_mapValues, mapValues, List.findSome?_map]
  rfl

theorem sortEntries_map {V W : Type} (f : String × V → W) (entries : List (String × V)) :
    sortEntries (entries.map fun entry => (entry.1, f entry)) = (sortEntries entries).map fun entry => (entry.1, f entry) :=
  (List.map_insertionSort keyLe keyLe (fun entry : String × V => (entry.1, f entry)) entries fun _ _ _ _ => Iff.rfl).symm

theorem sequence_error {E A : Type} {f : String × Value → Except E A} {issue : String × Value → Option E}
    (entries : List (String × Value))
    (each : ∀ entry ∈ entries, (∀ found, issue entry = some found → f entry = .error found) ∧
      (issue entry = none → ∃ result, f entry = .ok result)) :
    (∀ found, entries.findSome? issue = some found → sequence (entries.map fun entry => (entry.1, f entry)) = .error found) ∧
      (entries.findSome? issue = none → ∃ results, sequence (entries.map fun entry => (entry.1, f entry)) = .ok results) := by
  induction entries with
  | nil => exact ⟨nofun, fun _ => ⟨[], rfl⟩⟩
  | cons entry rest ih =>
    rw [List.forall_mem_cons] at each
    obtain ⟨failed, passed⟩ := each.1
    obtain ⟨later, through⟩ := ih each.2
    rw [List.map_cons, List.findSome?_cons]
    cases told : issue entry with
    | some first =>
      refine ⟨fun found same => ?_, nofun⟩
      rw [sequence, failed first told, ← Option.some.inj same]
      rfl
    | none =>
      obtain ⟨result, done⟩ := passed told
      refine ⟨fun found same => ?_, fun none => ?_⟩
      · rw [sequence, done, later found same]
        rfl
      · obtain ⟨results, rest⟩ := through none
        rw [sequence, done, rest]
        exact ⟨_, rfl⟩

/-- `sortKeys` reports the first offence, or none. -/
theorem sortKeys_offence : ∀ path, (∀ names, offence value = some names →
      sortKeys path value = .error ⟨.invalidType, pointer (path ++ names)⟩) ∧
    (offence value = none → ∃ sorted, sortKeys path value = .ok sorted) := by
  induction value using Value.induct with
  | object plain members ih =>
    intro path
    cases plain with
    | false =>
      refine ⟨fun names found => ?_, nofun⟩
      cases found
      rw [List.append_nil]
      rfl
    | true =>
      have inside : ∀ entry ∈ sortedMembers members, entry ∈ members := fun entry listed =>
        List.mem_of_mem_filter ((sortEntries_perm _).mem_iff.mp listed)
      have results : sortEntries (sortMembers path members) =
          (sortedMembers members).map fun entry => (entry.1, sortKeys (path ++ [entry.1]) entry.2) := by
        rw [sortMembers_eq]
        exact sortEntries_map (fun entry => sortKeys (path ++ [entry.1]) entry.2) _
      let issue (entry : String × Value) : Option Issue :=
        (offence entry.2).map fun names => ⟨.invalidType, pointer (path ++ entry.1 :: names)⟩
      have each : ∀ entry ∈ sortedMembers members,
          (∀ found, issue entry = some found → sortKeys (path ++ [entry.1]) entry.2 = .error found) ∧
            (issue entry = none → ∃ result, sortKeys (path ++ [entry.1]) entry.2 = .ok result) := by
        intro entry listed
        obtain ⟨failed, passed⟩ := ih entry (inside entry listed) (path ++ [entry.1])
        refine ⟨fun found told => ?_, fun none => passed (Option.map_eq_none_iff.mp none)⟩
        obtain ⟨names, stops, rfl⟩ := Option.map_eq_some_iff.mp told
        rw [failed names stops, List.append_assoc]
        rfl
      have first : (sortedMembers members).findSome? issue =
          (offence (.object true members)).map fun names => ⟨.invalidType, pointer (path ++ names)⟩ := by
        rw [offence_object, List.map_findSome?]
        congr 1
        funext entry
        rw [Function.comp_apply, Option.map_map]
        rfl
      obtain ⟨failed, passed⟩ := sequence_error (sortedMembers members) each
      rw [first] at failed passed
      rw [sortKeys, if_pos rfl, results]
      refine ⟨fun names found => ?_, fun none => ?_⟩
      · rw [failed ⟨.invalidType, pointer (path ++ names)⟩ (by rw [found]; rfl)]
      · obtain ⟨results, done⟩ := passed (by rw [none]; rfl)
        rw [done]
        exact ⟨_, rfl⟩
  | number number =>
    intro path
    by_cases finite : number.isFinite = true
    · exact ⟨fun names found => by simp [offence, finite] at found, fun _ => ⟨_, by rw [sortKeys, if_pos finite]⟩⟩
    · refine ⟨fun names found => ?_, fun none => by simp [offence, finite] at none⟩
      have here : names = [] := by simpa [offence, finite, eq_comm] using found
      rw [sortKeys, if_neg finite, here, List.append_nil]
  | array items =>
    intro path
    refine ⟨fun names found => ?_, nofun⟩
    cases found
    rw [List.append_nil]
    rfl
  | _ => exact fun path => ⟨nofun, fun _ => ⟨_, rfl⟩⟩

/-- The paths `encodeRecord` reports. -/
def encodePaths (numerals : Numerals) (record : Value) : List String :=
  match encodeRecord numerals record with
  | .error (.invalid issue) => [issue.path]
  | _ => []

theorem encodePaths_eq (numerals : Numerals) : encodePaths numerals value = ((offence value).map pointer).toList := by
  obtain ⟨failed, passed⟩ := @sortKeys_offence value []
  cases found : offence value with
  | none =>
    obtain ⟨sorted, done⟩ := passed found
    rw [encodePaths, encodeRecord, done]
    dsimp only
    split_ifs <;> rfl
  | some names =>
    rw [encodePaths, encodeRecord, failed names found]
    rfl

/-! How deep an offence lies does not depend on the names on the way. -/

/-- Whether a value is refused, and whether for itself. -/
def shape (value : Value) : Option Bool := (offence value).map List.isEmpty

theorem refused_eq : refused value = (shape value).isSome := (Option.isSome_map).symm

theorem refused_isDefined (stops : refused value = true) : value.isDefined = true := by
  cases value <;> first | rfl | contradiction

theorem shape_object :
    shape (.object true members) = if members.any fun entry => refused entry.2 then some false else none := by
  rw [shape, offence_object, List.map_findSome?]
  by_cases found : (members.any fun entry => refused entry.2) = true
  · rw [if_pos found]
    obtain ⟨entry, listed, stops⟩ := List.any_eq_true.mp found
    have sorted : entry ∈ sortedMembers members :=
      (sortEntries_perm _).mem_iff.mpr (List.mem_filter.mpr ⟨listed, refused_isDefined stops⟩)
    obtain ⟨names, there⟩ := Option.isSome_iff_exists.mp stops
    cases first : (sortedMembers members).findSome? (Option.map List.isEmpty ∘ fun entry => (offence entry.2).map (entry.1 :: ·)) with
    | none =>
      have none := List.findSome?_eq_none_iff.mp first entry sorted
      simp [there] at none
    | some empty =>
      obtain ⟨entry, -, told⟩ := List.exists_of_findSome?_eq_some first
      obtain ⟨names, stops, rfl⟩ := Option.map_eq_some_iff.mp told
      obtain ⟨rest, -, rfl⟩ := Option.map_eq_some_iff.mp stops
      rfl
  · rw [if_neg found]
    apply List.findSome?_eq_none_iff.mpr
    intro entry sorted
    have listed := List.mem_of_mem_filter ((sortEntries_perm _).mem_iff.mp sorted)
    have passes : offence entry.2 = none := by
      rw [List.any_eq_true] at found
      by_contra stops
      exact found ⟨entry, listed, Option.isSome_iff_ne_none.mpr stops⟩
    rw [Function.comp_apply, passes]
    rfl

theorem any_congr {A : Type} {items : List A} {p q : A → Bool} (same : ∀ item ∈ items, p item = q item) :
    items.any p = items.any q := by
  rw [Bool.eq_iff_iff, List.any_eq_true, List.any_eq_true]
  exact exists_congr fun item => and_congr_right fun member => by rw [same item member]

theorem Beneath.shape (beneath : Beneath rule x y) : shape x = shape y := by
  induction beneath with
  | refl => rfl
  | array => rfl
  | object rule plain pairs names each distinct fresh order ih =>
    cases plain with
    | false => rfl
    | true =>
      rw [shape_object, shape_object, order.any_eq, List.any_map, List.any_map]
      have same : pairs.any ((fun entry => refused entry.2) ∘ Pair.before) =
          pairs.any ((fun entry => refused entry.2) ∘ Pair.after) := by
        apply any_congr
        intro pair member
        exact (refused_eq.trans (congrArg Option.isSome (ih pair member))).trans refused_eq.symm
      rw [same]

theorem Beneath.refused (beneath : Beneath rule x y) : refused x = refused y := by
  rw [refused_eq, refused_eq, beneath.shape]

theorem Renamed.refused (renamed : Renamed rule place x y) : refused x = refused y := by
  induction renamed with
  | refl => rfl
  | array => rfl
  | object place plain members each labels ih =>
    cases plain with
    | false => rfl
    | true =>
      rw [refused_eq, refused_eq, shape_object, shape_object, mapValues, mapValues, List.any_map, List.any_map]
      have same : members.any ((fun entry => JsRecord.refused entry.2) ∘ fun member => (member.1, member.2.1)) =
          members.any ((fun entry => JsRecord.refused entry.2) ∘ fun member => (member.1, member.2.2)) := by
        apply any_congr
        intro member listed
        by_cases named : member.1 = "labels"
        · exact (labels member listed named).refused
        · exact ih member listed named
      rw [same]

/-- The first member `sortKeys` stops in. -/
def firstRefused (members : List (String × Value)) : Option (String × Value) :=
  (sortedMembers members).find? fun entry => refused entry.2

/-- Members of the same names that are refused alike: `sortKeys` stops in both at one name. -/
theorem firstRefused_pairs {pairs : List (String × (Value × Value))}
    (defined : ∀ pair ∈ pairs, pair.2.1.isDefined = pair.2.2.isDefined)
    (alike : ∀ pair ∈ pairs, refused pair.2.1 = refused pair.2.2) :
    (firstRefused (mapValues Prod.fst pairs) = none ∧ offence (.object true (mapValues Prod.fst pairs)) = none ∧
        offence (.object true (mapValues Prod.snd pairs)) = none) ∨
      ∃ pair ∈ pairs, firstRefused (mapValues Prod.fst pairs) = some (pair.1, pair.2.1) ∧
        offence (.object true (mapValues Prod.fst pairs)) = (offence pair.2.1).map (pair.1 :: ·) ∧
        offence (.object true (mapValues Prod.snd pairs)) = (offence pair.2.2).map (pair.1 :: ·) := by
  let sorted := sortEntries (pairs.filter fun pair => pair.2.1.isDefined)
  have inside : ∀ pair ∈ sorted, pair ∈ pairs := fun pair listed =>
    List.mem_of_mem_filter ((sortEntries_perm _).mem_iff.mp listed)
  have left : sortedMembers (mapValues Prod.fst pairs) = mapValues Prod.fst sorted := by
    rw [sortedMembers, ← sortEntries_mapValues, mapValues, mapValues, List.filter_map]
    rfl
  have right : sortedMembers (mapValues Prod.snd pairs) = mapValues Prod.snd sorted := by
    have same : pairs.filter (fun pair => pair.2.2.isDefined) = pairs.filter fun pair => pair.2.1.isDefined := by
      apply List.filter_congr
      intro pair member
      rw [defined pair member]
    rw [sortedMembers, ← sortEntries_mapValues, mapValues, mapValues, List.filter_map]
    exact congrArg (fun list => sortEntries (List.map _ list)) same
  rw [offence_object, offence_object, firstRefused, left, right]
  simp only [mapValues, List.findSome?_map, List.find?_map]
  have all := fun pair listed => alike pair (inside pair listed)
  clear_value sorted
  clear left right
  induction sorted with
  | nil => exact .inl ⟨rfl, rfl, rfl⟩
  | cons pair rest ih =>
    rw [List.findSome?_cons, List.findSome?_cons, List.find?_cons]
    simp only [Function.comp_apply]
    have same := all pair List.mem_cons_self
    cases ours : offence pair.2.1 with
    | none =>
      have passes : refused pair.2.1 = false := by rw [refused, ours]; rfl
      have theirs : offence pair.2.2 = none := by
        rw [same, refused, Option.isSome_eq_false_iff, Option.isNone_iff_eq_none] at passes
        exact passes
      rw [passes, theirs]
      exact ih (fun pair listed => inside pair (List.mem_cons_of_mem _ listed))
        fun pair listed => all pair (List.mem_cons_of_mem _ listed)
    | some names =>
      have stops : refused pair.2.1 = true := by rw [refused, ours]; rfl
      obtain ⟨others, theirs⟩ := Option.isSome_iff_exists.mp (same.symm.trans stops)
      rw [stops, theirs]
      exact .inr ⟨pair, inside pair List.mem_cons_self, rfl, by rw [ours]; rfl, by rw [theirs]; rfl⟩

/-! The condition. -/

/-- An object with an offence that lies two names or more beneath it. -/
def Deep (value : Value) : Prop := ∃ members, value = .object true members ∧ ∃ entry ∈ members, shape entry.2 = some false

/-- `sortKeys` stops in labels, and a label there, not always the one it stops at, has an offence
beneath a name of its own. -/
inductive Discloses : Value → Prop
  | labels {members : List (String × Value)} {labels : Value} (first : firstRefused members = some ("labels", labels))
      (deep : Deep labels) : Discloses (.object true members)
  | member {members : List (String × Value)} {name : String} {value : Value}
      (first : firstRefused members = some (name, value)) (ordinary : name ≠ "labels") (inner : Discloses value) :
      Discloses (.object true members)

/-- Without a deep offence, one name at most follows. -/
theorem offence_shallow {names : List String} (shallow : ¬Deep value) (stops : offence value = some names) :
    names = [] ∨ ∃ name, names = [name] := by
  cases value with
  | object plain members =>
    cases plain with
    | false =>
      cases stops
      exact .inl rfl
    | true =>
      rw [offence_object] at stops
      obtain ⟨entry, sorted, told⟩ := List.exists_of_findSome?_eq_some stops
      obtain ⟨rest, there, rfl⟩ := Option.map_eq_some_iff.mp told
      have listed := List.mem_of_mem_filter ((sortEntries_perm _).mem_iff.mp sorted)
      right
      refine ⟨entry.1, ?_⟩
      cases rest with
      | nil => rfl
      | cons name more => exact absurd ⟨members, rfl, entry, listed, by rw [shape, there]; rfl⟩ shallow
  | number number =>
    by_cases finite : number.isFinite = true
    · simp [offence, finite] at stops
    · exact .inl (by simpa [offence, finite, eq_comm] using stops)
  | array items =>
    cases stops
    exact .inl rfl
  | _ => cases stops

theorem Beneath.deep (beneath : Beneath rule x y) (deep : Deep y) : Deep x := by
  cases beneath with
  | refl => exact deep
  | array =>
    obtain ⟨members, same, -⟩ := deep
    cases same
  | object _ plain pairs names each distinct fresh order =>
    obtain ⟨members, same, entry, listed, far⟩ := deep
    cases same
    obtain ⟨pair, member, rfl⟩ := List.mem_map.mp (order.mem_iff.mp listed)
    exact ⟨_, rfl, pair.before, List.mem_map_of_mem member, (each pair member).shape.trans far⟩

/-! The pointer. -/

theorem segments_append (names more : List String) : ∀ previous,
    segments previous (names ++ more) = segments previous names ++ segments (names.getLast?.or previous) more := by
  induction names with
  | nil => exact fun previous => rfl
  | cons name rest ih =>
    intro previous
    rw [List.cons_append, segments, segments, ih, List.cons_append]
    congr 3
    cases rest <;> simp [List.getLast?_cons]

theorem segments_of_label {previous : Option String} (labels : previous = some "labels") (name : String)
    (rest : List String) : segments previous (name :: rest) = "*" :: segments (some name) rest := by
  rw [segments, if_pos labels]

/-- A label's own name is not shown. -/
theorem pointer_of_label (path : List String) (name renamed : String) :
    pointer (path ++ ["labels"] ++ [name]) = pointer (path ++ ["labels"] ++ [renamed]) := by
  have shown : ∀ name, segments none (path ++ ["labels"] ++ [name]) = segments none (path ++ ["labels"]) ++ ["*"] := by
    intro name
    rw [segments_append, segments_of_label (by simp)]
    rfl
  rw [pointer, pointer, if_neg (by simp), if_neg (by simp), shown, shown]

/-- Renamed values are refused under one path, unless the names beneath a label decide it. -/
theorem Renamed.undisclosed (renamed : Renamed rule place x y) (quiet : ¬Discloses x) : ∀ path,
    ((offence x).map fun names => pointer (path ++ names)) = (offence y).map fun names => pointer (path ++ names) := by
  induction renamed with
  | refl => exact fun path => rfl
  | array => exact fun path => rfl
  | object place plain members each labels ih =>
    intro path
    cases plain with
    | false => rfl
    | true =>
      have defined : ∀ member ∈ members, member.2.1.isDefined = member.2.2.isDefined := by
        intro member listed
        by_cases named : member.1 = "labels"
        · exact (labels member listed named).isDefined
        · exact (each member listed named).isDefined
      have alike : ∀ member ∈ members, JsRecord.refused member.2.1 = JsRecord.refused member.2.2 := by
        intro member listed
        by_cases named : member.1 = "labels"
        · exact (labels member listed named).refused
        · exact (each member listed named).refused
      obtain ⟨-, ours, theirs⟩ | ⟨member, listed, first, ours, theirs⟩ := firstRefused_pairs defined alike
      · rw [ours, theirs]
      · rw [ours, theirs, Option.map_map, Option.map_map]
        by_cases named : member.1 = "labels"
        · have shallow : ¬Deep member.2.1 := by
            intro deep
            rw [named] at first
            exact quiet (.labels first deep)
          have beneath := labels member listed named
          have shallow' : ¬Deep member.2.2 := fun deep => shallow (beneath.deep deep)
          have same := beneath.shape
          rw [named]
          cases there : offence member.2.1 with
          | none =>
            rw [JsRecord.shape, there] at same
            rw [Option.map_eq_none_iff.mp same.symm]
          | some names =>
            rw [JsRecord.shape, there] at same
            obtain ⟨others, there', empty⟩ := Option.map_eq_some_iff.mp same.symm
            rw [there']
            rcases offence_shallow shallow there with rfl | ⟨name, rfl⟩
            · rw [List.isEmpty_nil, List.isEmpty_iff] at empty
              rw [empty]
            · rcases offence_shallow shallow' there' with rfl | ⟨renamed, rfl⟩
              · contradiction
              · have shown := pointer_of_label path name renamed
                simpa using shown
        · have inner : ¬Discloses member.2.1 := fun inner => quiet (.member first named inner)
          have shown := ih member listed named inner (path ++ [member.1])
          simpa [Function.comp_def] using shown

/-! Where they do decide it, new names show. -/

theorem codeUnits_append (a b : String) : codeUnits (a ++ b) = codeUnits a ++ codeUnits b := by
  rw [codeUnits, codeUnits, codeUnits, String.toList_append, List.flatMap_append]

/-- A name that comes before all that start with a `z`. -/
def Early (name : String) : Prop := ∀ rest, ¬unitsLe ("z" ++ rest) name

theorem early_empty : Early "" := by
  intro rest le
  rw [unitsLe, codeUnits_append] at le
  exact absurd le (by simp [codeUnits, charUnits])

theorem early_char {c : Char} (small : c.toNat < 'z'.toNat) : Early (String.ofList [c]) := by
  intro rest le
  rw [unitsLe, codeUnits_append] at le
  have units : codeUnits (String.ofList [c]) = [c.toNat] := by
    have plain : c.toNat < 0x10000 := small.trans (by decide)
    simp [codeUnits, charUnits, plain]
  have z : codeUnits "z" = ['z'.toNat] := by decide
  rw [units, z, List.singleton_append] at le
  exact absurd le (not_le.mpr (List.Lex.rel small))

/-- The name of a member moved to the front: the others start with a `z`. -/
def moved (target new name : String) : String := if name = target then new else "z" ++ name

theorem moved_injective {target new : String} (early : Early new) : Function.Injective (moved target new) := by
  have apart : ∀ name, new ≠ "z" ++ name := fun name same => early name (by rw [← same]; exact le_refl _)
  intro a b same
  unfold moved at same
  split_ifs at same with first second second
  · exact first.trans second.symm
  · exact absurd same (apart b)
  · exact absurd same.symm (apart a)
  · exact (String.append_right_inj "z").mp same

theorem sortedMembers_first {entry : String × Value} (listed : entry ∈ members) (defined : entry.2.isDefined = true)
    (first : ∀ other ∈ members, other ≠ entry → ¬keyLe other entry) : ∃ rest, sortedMembers members = entry :: rest := by
  have sorted := sortEntries_sorted (members.filter fun entry => entry.2.isDefined)
  have within : entry ∈ sortedMembers members :=
    (sortEntries_perm _).mem_iff.mpr (List.mem_filter.mpr ⟨listed, defined⟩)
  have inside : ∀ other ∈ sortedMembers members, other ∈ members := fun other held =>
    List.mem_of_mem_filter ((sortEntries_perm _).mem_iff.mp held)
  rw [← sortedMembers] at sorted
  cases list : sortedMembers members with
  | nil => simp [list] at within
  | cons head rest =>
    rw [list] at sorted within inside
    rcases List.mem_cons.mp within with rfl | later
    · exact ⟨rest, rfl⟩
    · by_cases same : head = entry
      · exact ⟨rest, by rw [same]⟩
      · exact absurd (List.rel_of_pairwise_cons sorted later) (first head (inside head List.mem_cons_self) same)

/-- A refused member comes first under an early name. -/
theorem Beneath.lead {entry : String × Value} {instead : Value} {new : String} (distinct : (members.map Prod.fst).Nodup)
    (listed : entry ∈ members) (beneath : Beneath AnyName entry.2 instead) (stops : JsRecord.refused entry.2 = true)
    (early : Early new) :
    ∃ y, Beneath AnyName (.object true members) y ∧ offence y = (offence instead).map (new :: ·) := by
  let pairs : List Pair := members.map fun member =>
    ⟨member.1, moved entry.1 new member.1, member.2, if member.1 = entry.1 then instead else member.2⟩
  have before : pairs.map Pair.before = members := by
    rw [List.map_map]
    exact List.map_id members
  have target : ∀ member ∈ members, member.1 = entry.1 → member = entry := fun member held same =>
    List.inj_on_of_nodup_map distinct held listed same
  have inner : ∀ pair ∈ pairs, Beneath AnyName pair.value pair.other := by
    intro pair listed
    obtain ⟨member, held, rfl⟩ := List.mem_map.mp listed
    dsimp only
    split_ifs with same
    · rw [target member held same]
      exact beneath
    · exact .refl _ _
  have fresh : (pairs.map Pair.renamed).Nodup := by
    rw [List.map_map]
    have names := distinct.map (moved_injective early : Function.Injective (moved entry.1 new))
    rwa [List.map_map] at names
  refine ⟨.object true (pairs.map Pair.after), ?_, ?_⟩
  · have whole := Beneath.object AnyName true pairs (fun pair _ => trivial) inner (by rwa [List.map_map])
      fresh (List.Perm.refl _)
    rwa [before] at whole
  · have held : (new, instead) ∈ pairs.map Pair.after := by
      refine List.mem_map.mpr ⟨_, List.mem_map_of_mem listed, ?_⟩
      simp [Pair.after, moved]
    have stopped : JsRecord.refused instead = true := beneath.refused ▸ stops
    have first : ∀ member ∈ pairs.map Pair.after, member ≠ (new, instead) → ¬keyLe member (new, instead) := by
      intro member within different
      obtain ⟨pair, source, rfl⟩ := List.mem_map.mp within
      obtain ⟨member, held, rfl⟩ := List.mem_map.mp source
      by_cases same : member.1 = entry.1
      · simp [Pair.after, moved, same] at different
      · simp only [Pair.after, moved, if_neg same]
        exact early member.1
    obtain ⟨rest, sorted⟩ := sortedMembers_first held (refused_isDefined stopped) first
    obtain ⟨names, there⟩ := Option.isSome_iff_exists.mp stopped
    rw [offence_object, sorted, List.findSome?_cons, there]
    rfl

/-- Labels with a deep offence can be renamed so that it is reported first, under any early name. -/
theorem Deep.shown {labels : Value} (deep : Deep labels) (formed : labels.WellFormed) :
    ∃ rest, ∀ new, Early new → ∃ y, Beneath AnyName labels y ∧ offence y = some ("" :: new :: rest) := by
  obtain ⟨members, rfl, entry, listed, far⟩ := deep
  cases formed with
  | object distinct each =>
    have within := each entry listed
    have stops : refused entry.2 = true := by rw [refused_eq, far]; rfl
    obtain ⟨label, value⟩ := entry
    cases value with
    | object plain inner =>
      cases plain with
      | false => cases far
      | true =>
        rw [shape_object] at far
        split_ifs at far with found
        obtain ⟨cause, held, faulty⟩ := List.any_eq_true.mp found
        obtain ⟨rest, there⟩ := Option.isSome_iff_exists.mp faulty
        cases within with
        | object names =>
          refine ⟨rest, fun new early => ?_⟩
          obtain ⟨middle, beneath, stopped⟩ := Beneath.lead names held (.refl _ _) faulty early
          obtain ⟨y, whole, shown⟩ := Beneath.lead distinct listed beneath stops early_empty
          refine ⟨y, whole, ?_⟩
          rw [shown, stopped, there]
          rfl
    | number number =>
      by_cases finite : number.isFinite = true <;> simp [shape, offence, finite] at far
    | _ => cases far

theorem Place.rule_any (place : Place) : place.rule AnyName = AnyName := by
  unfold Place.rule
  split_ifs <;> rfl

/-- One member is renamed, the others stay. -/
theorem offence_member {name : String} {value instead : Value} (distinct : (members.map Prod.fst).Nodup)
    (first : firstRefused members = some (name, value)) (defined : value.isDefined = instead.isDefined)
    (alike : refused value = refused instead) :
    ∃ pairs : List (String × (Value × Value)), mapValues Prod.fst pairs = members ∧
      (∀ pair ∈ pairs, (pair.1 = name ∧ pair.2.1 = value ∧ pair.2.2 = instead) ∨ (pair.1 ≠ name ∧ pair.2.1 = pair.2.2)) ∧
      offence (.object true (mapValues Prod.snd pairs)) = (offence instead).map (name :: ·) := by
  let pairs := members.map fun member => (member.1, (member.2, if member.1 = name then instead else member.2))
  have before : mapValues Prod.fst pairs = members := by
    rw [mapValues, List.map_map]
    exact List.map_id members
  have held : (name, value) ∈ members :=
    List.mem_of_mem_filter ((sortEntries_perm _).mem_iff.mp (List.mem_of_find?_eq_some first))
  have kind : ∀ pair ∈ pairs,
      (pair.1 = name ∧ pair.2.1 = value ∧ pair.2.2 = instead) ∨ (pair.1 ≠ name ∧ pair.2.1 = pair.2.2) := by
    intro pair listed
    obtain ⟨member, within, rfl⟩ := List.mem_map.mp listed
    by_cases same : member.1 = name
    · left
      have whole : member = (name, value) := List.inj_on_of_nodup_map distinct within held same
      rw [whole]
      exact ⟨rfl, rfl, if_pos rfl⟩
    · exact .inr ⟨same, (if_neg same).symm⟩
  refine ⟨pairs, before, kind, ?_⟩
  have both : ∀ pair ∈ pairs, pair.2.1.isDefined = pair.2.2.isDefined ∧ refused pair.2.1 = refused pair.2.2 := by
    intro pair listed
    rcases kind pair listed with ⟨-, left, right⟩ | ⟨-, same⟩
    · rw [left, right]
      exact ⟨defined, alike⟩
    · rw [same]
      exact ⟨rfl, rfl⟩
  obtain ⟨none, -, -⟩ | ⟨pair, listed, stops, -, theirs⟩ :=
    firstRefused_pairs (fun pair listed => (both pair listed).1) fun pair listed => (both pair listed).2
  · rw [before, first] at none
    cases none
  · rw [before, first] at stops
    have named : pair.1 = name := congrArg Prod.fst (Option.some.inj stops).symm
    rcases kind pair listed with ⟨-, -, right⟩ | ⟨ordinary, -⟩
    · rw [theirs, named, right]
    · exact absurd named ordinary

/-- A value that discloses names can be renamed so that an early name shows. -/
theorem Discloses.shown (discloses : Discloses x) : ∀ place : Place, x.WellFormed →
    ∃ front rest, ∀ new, Early new →
      ∃ y, Renamed AnyName place x y ∧ offence y = some (front ++ "labels" :: "" :: new :: rest) := by
  induction discloses with
  | @labels members labels first deep =>
    intro place formed
    obtain - | - | - | - | - | - | - | ⟨distinct, each⟩ := formed
    have held := List.mem_of_mem_filter ((sortEntries_perm _).mem_iff.mp (List.mem_of_find?_eq_some first))
    obtain ⟨rest, shown⟩ := deep.shown (each _ held)
    refine ⟨[], rest, fun new early => ?_⟩
    obtain ⟨instead, beneath, stops⟩ := shown new early
    obtain ⟨pairs, before, kind, there⟩ := offence_member distinct first beneath.isDefined beneath.refused
    refine ⟨_, before ▸ Renamed.object place true pairs ?_ ?_, by rw [there, stops]; rfl⟩
    · intro pair listed ordinary
      rcases kind pair listed with ⟨named, -⟩ | ⟨-, same⟩
      · exact absurd named ordinary
      · rw [same]
        exact .refl _ _
    · intro pair listed named
      rw [place.rule_any]
      rcases kind pair listed with ⟨-, left, right⟩ | ⟨ordinary, -⟩
      · rw [left, right]
        exact beneath
      · exact absurd named ordinary
  | @member members name value first ordinary inner ih =>
    intro place formed
    obtain - | - | - | - | - | - | - | ⟨distinct, each⟩ := formed
    have held := List.mem_of_mem_filter ((sortEntries_perm _).mem_iff.mp (List.mem_of_find?_eq_some first))
    obtain ⟨front, rest, shown⟩ := ih (place.enter name) (each _ held)
    refine ⟨name :: front, rest, fun new early => ?_⟩
    obtain ⟨instead, renamed, stops⟩ := shown new early
    obtain ⟨pairs, before, kind, there⟩ := offence_member distinct first renamed.isDefined renamed.refused
    refine ⟨_, before ▸ Renamed.object place true pairs ?_ ?_, by rw [there, stops]; rfl⟩
    · intro pair listed instead
      rcases kind pair listed with ⟨named, left, right⟩ | ⟨-, same⟩
      · rw [named, left, right]
        exact renamed
      · rw [same]
        exact .refl _ _
    · intro pair listed named
      rcases kind pair listed with ⟨same, -⟩ | ⟨-, same⟩
      · exact absurd (same.symm.trans named) ordinary
      · rw [same]
        exact .refl _ _

theorem segments_of_member {previous : Option String} (ordinary : previous ≠ some "labels") (name : String)
    (rest : List String) : segments previous (name :: rest) = escapeSegment name :: segments (some name) rest := by
  rw [segments, if_neg ordinary]

/-- The name after that of a label is shown. -/
theorem pointer_shows (front rest : List String) :
    pointer (front ++ "labels" :: "" :: "a" :: rest) ≠ pointer (front ++ "labels" :: "" :: "b" :: rest) := by
  have shown : ∀ name, segments none (front ++ "labels" :: "" :: name :: rest) =
      segments none (front ++ ["labels"]) ++ "*" :: escapeSegment name :: segments (some name) rest := by
    intro name
    have split : front ++ "labels" :: "" :: name :: rest = front ++ ["labels"] ++ "" :: name :: rest := by simp
    rw [split, segments_append, segments_of_label (by simp), segments_of_member (by decide)]
  rw [pointer, pointer, if_neg (by simp), if_neg (by simp), shown, shown, List.map_append, List.map_append]
  simp only [List.map_cons, String.join_append, String.join_cons]
  intro same
  have after := String.append_right_inj _ |>.mp same
  have front := congrArg String.toList after
  simp [escapeSegment] at front

/-- The path `encodeRecord` reports says nothing of the names beneath `labels` exactly unless
`sortKeys` stops in labels of which one has a refused value beneath a name of its own: the walk
need not stop at that label, since labels with other names come in another order. -/
theorem encode_undisclosed_iff (numerals : Numerals) (record : Value) (formed : record.WellFormed) :
    (∀ renamed, Renamed AnyName .record record renamed → encodePaths numerals record = encodePaths numerals renamed) ↔
      ¬Discloses record := by
  constructor
  · intro blind discloses
    obtain ⟨front, rest, shown⟩ := discloses.shown .record formed
    obtain ⟨first, renamed, stops⟩ := shown "a" (early_char (c := 'a') (by decide))
    obtain ⟨second, renamed', stops'⟩ := shown "b" (early_char (c := 'b') (by decide))
    have same := (blind first renamed).symm.trans (blind second renamed')
    rw [encodePaths_eq, encodePaths_eq, stops, stops'] at same
    exact pointer_shows front rest (List.singleton_injective same)
  · intro quiet renamed related
    rw [encodePaths_eq, encodePaths_eq]
    exact congrArg Option.toList (related.undisclosed quiet [])

/-- A number in a label that is an object: its name is reported. -/
theorem encode_undisclosed_iff_number :
    ¬∀ renamed, Renamed AnyName .record (labelled "team" (.object true [("secret", .number .nan)])) renamed →
      encodePaths .exact (labelled "team" (.object true [("secret", .number .nan)])) = encodePaths .exact renamed := by
  have formed : (labelled "team" (.object true [("secret", .number .nan)])).WellFormed := by
    have inner : (Value.object true [("secret", .number .nan)]).WellFormed :=
      .object (by simp) fun entry listed => by
        rw [List.mem_singleton.mp listed]
        exact .special fun q same => by cases same
    have around : ∀ (name : String) (value : Value), value.WellFormed → (Value.object true [(name, value)]).WellFormed :=
      fun name value formed => .object (by simp) fun entry listed => by
        rw [List.mem_singleton.mp listed]
        exact formed
    exact around _ _ (around _ _ (around _ _ inner))
  rw [encode_undisclosed_iff .exact _ formed, not_not]
  have labels : Discloses (.object true [("labels", .object true [("team", .object true [("secret", .number .nan)])])]) :=
    .labels (by rfl) ⟨_, rfl, _, List.mem_cons_self, by rfl⟩
  exact .member (by rfl) (by decide) labels

end Audr.JsRecord
