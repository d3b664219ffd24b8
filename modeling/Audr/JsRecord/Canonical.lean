import Audr.JsRecord.Built

/-! The text `encodeRecord` writes of an accepted record, and what is read back from it. -/

namespace Audr.JsRecord

open Properties

variable {path : List String} {value data : Value} {members : List (String × Value)} {plain : Bool}
  {names : List String → Prop} {numerals : Numerals}

mutual

/-- The value `sortKeys` makes of JSON data. -/
def canon : Value → Value
  | .object plain members => .object plain (fromEntries (sortEntries (canonMembers members)))
  | value => value

def canonMembers : List (String × Value) → List (String × Value)
  | [] => []
  | (name, value) :: rest => (name, canon value) :: canonMembers rest

end

mutual

/-- The text of JSON data, with the members of each object as they are listed once sorted. -/
def textOf (numerals : Numerals) : Value → Text
  | .bool value => .bool value
  | .number (.finite q) => .num (jsLiteral numerals q)
  | .number .negativeZero => .num (.int false 0)
  | .string text => .str text
  | .object _ members => .obj (enumerate (sortEntries (textMembers numerals members)))
  | _ => .null

def textMembers (numerals : Numerals) : List (String × Value) → List (String × Text)
  | [] => []
  | (name, value) :: rest => (name, textOf numerals value) :: textMembers numerals rest

end

theorem canonMembers_eq : canonMembers members = mapValues canon members := by
  induction members with
  | nil => rfl
  | cons entry rest ih =>
    obtain ⟨name, value⟩ := entry
    rw [canonMembers, ih]
    rfl

theorem textMembers_eq : textMembers numerals members = mapValues (textOf numerals) members := by
  induction members with
  | nil => rfl
  | cons entry rest ih =>
    obtain ⟨name, value⟩ := entry
    rw [textMembers, ih]
    rfl

theorem textOf_object : textOf numerals (.object plain members) =
    .obj (mapValues (textOf numerals) (enumerate (sortEntries members))) := by
  rw [textOf, textMembers_eq, sortEntries_mapValues, enumerate_mapValues]

/-- Members that are listed once sorted are the members. -/
theorem listed_perm (members : List (String × Value)) : (enumerate (sortEntries members)).Perm members :=
  (enumerate_perm _).trans (sortEntries_perm _)

theorem listed_names (members : List (String × Value)) :
    ((enumerate (sortEntries members)).map Prod.fst).Perm (members.map Prod.fst) :=
  (listed_perm members).map Prod.fst

abbrev AsciiNames : List String → Prop := Names fun name => ascii name = true

/-- Without undefined labels, `asJson` only removes undefined members. -/
theorem asJson_eq_strip (formed : value.WellFormed) (flat : value.Plain) :
    ∀ key, Built names (asJson key value) → asJson key value = value.strip := by
  induction value using Value.induct with
  | object plain members ih =>
    intro key built
    obtain - | - | - | - | - | - | - | ⟨distinct, formed⟩ := formed
    obtain - | - | - | - | - | - | flat := flat
    rw [asJson] at built
    obtain - | - | ⟨-, each⟩ := built
    rw [asJson, Value.strip]
    congr 2
    rw [asJsonMembers_eq, stripMembers_eq, mapValues]
    have inside : ∀ entry ∈ members, (decide (key = some "labels") || entry.2.isDefined) = true →
        Built names (asJson (some entry.1) entry.2) := by
      intro entry member kept
      refine each (entry.1, asJson (some entry.1) entry.2) ?_
      refine (fromEntries_perm (asJsonMembers_nodup distinct)).mem_iff.mpr ?_
      rw [asJsonMembers_eq]
      exact List.mem_map.mpr ⟨entry, List.mem_filter.mpr ⟨member, kept⟩, rfl⟩
    have same : (members.filter fun entry => decide (key = some "labels") || entry.2.isDefined) =
        members.filter fun entry => entry.2.isDefined := by
      refine List.filter_congr fun entry member => ?_
      by_cases kept : (decide (key = some "labels") || entry.2.isDefined) = true
      · have defined := (inside entry member kept).isDefined
        rw [asJson_isDefined] at defined
        rw [kept, defined]
      · simp only [Bool.or_eq_true, not_or, Bool.not_eq_true] at kept
        simp [kept]
    rw [same]
    refine List.map_congr_left fun entry member => ?_
    obtain ⟨listed, defined⟩ := List.mem_filter.mp member
    rw [ih entry listed (formed entry listed) (flat entry listed) _ (inside entry listed (by simp [defined]))]
  | _ => exact fun key _ => rfl

theorem sequence_ok {E A B : Type} (f : A → B) (entries : List (String × A)) :
    sequence (mapValues (fun value => (.ok (f value) : Except E B)) entries) = .ok (mapValues f entries) := by
  induction entries with
  | nil => rfl
  | cons entry rest ih =>
    rw [mapValues_cons, sequence, ih]
    rfl

theorem stripMembers_nodup (distinct : (members.map Prod.fst).Nodup) :
    ((Value.stripMembers members).map Prod.fst).Nodup := by
  rw [stripMembers_eq, map_fst_mapValues]
  exact distinct.sublist (List.filter_sublist.map Prod.fst)

/-- `sortKeys` of a record that is made of JSON data. -/
theorem sortKeys_ok (formed : value.WellFormed) (flat : value.Plain) :
    Built AsciiNames value.strip → ∀ path, sortKeys path value = .ok (canon value.strip) := by
  induction value using Value.induct with
  | object plain members ih =>
    intro built path
    obtain - | - | - | - | - | - | - | ⟨distinct, formed⟩ := formed
    obtain - | - | - | - | - | - | flat := flat
    rw [Value.strip] at built
    obtain - | - | ⟨named, each⟩ := built
    have perm := fromEntries_perm (stripMembers_nodup distinct)
    have results : sortMembers path members =
        mapValues (fun value => .ok (canon value.strip)) (members.filter fun entry => entry.2.isDefined) := by
      rw [sortMembers_eq, mapValues]
      refine List.map_congr_left fun entry member => ?_
      have listed := (List.mem_filter.mp member).1
      have built : Built AsciiNames entry.2.strip := by
        refine each (entry.1, entry.2.strip) (perm.mem_iff.mpr ?_)
        rw [stripMembers_eq]
        exact mem_mapValues.mpr ⟨entry, member, rfl⟩
      rw [ih entry listed (formed entry listed) (flat entry listed) built]
    have same : sortEntries (fromEntries (Value.stripMembers members)) = sortEntries (Value.stripMembers members) := by
      refine sortEntries_congr perm named.1 fun entry member => ?_
      exact named.2 entry.1 (List.mem_map_of_mem member)
    rw [sortKeys, if_pos rfl, results, sortEntries_mapValues, sequence_ok, Value.strip, canon, canonMembers_eq,
      sortEntries_mapValues, same, stripMembers_eq, sortEntries_mapValues, mapValues_mapValues]
  | number value =>
    intro built path
    obtain - | ⟨finite, -, -⟩ | - := built
    have known : value.isFinite = true := by
      cases value <;> simp_all [finiteValue, Double.isFinite]
    rw [sortKeys, if_pos known, Value.strip, canon] <;> simp
  | string text => exact fun _ path => rfl
  | _ => exact fun built => nomatch built

theorem stringifyMembers_ok (entries : List (String × Value))
    (each : ∀ entry ∈ entries, stringify numerals (canon entry.2) = some (textOf numerals entry.2)) :
    stringifyMembers numerals (mapValues canon entries) = mapValues (textOf numerals) entries := by
  induction entries with
  | nil => rfl
  | cons entry rest ih =>
    rw [mapValues_cons, stringifyMembers, each entry List.mem_cons_self, ih fun entry member => each entry (List.mem_cons_of_mem _ member)]
    rfl

/-- What is listed of sorted members. -/
theorem fromEntries_sorted (distinct : (members.map Prod.fst).Nodup) :
    fromEntries (sortEntries (mapValues canon members)) = mapValues canon (enumerate (sortEntries members)) := by
  have sorted : ((sortEntries (mapValues canon members)).map Prod.fst).Nodup := by
    rw [((sortEntries_perm (mapValues canon members)).map Prod.fst).nodup_iff, map_fst_mapValues]
    exact distinct
  rw [fromEntries_eq sorted, sortEntries_mapValues, enumerate_mapValues]

theorem stringify_canon (built : Built AsciiNames data) :
    stringify numerals (canon data) = some (textOf numerals data) := by
  induction built with
  | string text => rfl
  | number finite nonneg representable =>
    rename_i number q
    cases number with
    | finite q => rfl
    | negativeZero => rfl
    | _ => contradiction
  | object named each ih =>
    rw [canon, canonMembers_eq, fromEntries_sorted named.1, stringify, textOf_object, stringifyMembers_ok]
    exact fun entry member => ih entry ((listed_perm _).mem_iff.mp member)

theorem serializableMembers_eq : serializableMembers members = members.all fun entry => serializable entry.2 := by
  induction members with
  | nil => rfl
  | cons entry rest ih =>
    obtain ⟨name, value⟩ := entry
    rw [serializableMembers, ih, List.all_cons]

theorem serializable_canon (built : Built AsciiNames data) : serializable (canon data) = true := by
  induction built with
  | string text => rfl
  | number finite nonneg representable => rfl
  | object named each ih =>
    rw [canon, canonMembers_eq, fromEntries_sorted named.1, serializable, serializableMembers_eq]
    apply List.all_eq_true.mpr
    intro entry member
    obtain ⟨inner, listed, rfl⟩ := mem_mapValues.mp member
    exact ih inner ((listed_perm _).mem_iff.mp listed)

/-- What `encodeRecord` writes. -/
theorem encodeRecord_ok (formed : value.WellFormed) (flat : value.Plain) (built : Built AsciiNames value.strip) :
    encodeRecord numerals value = .ok (some (textOf numerals value.strip)) := by
  rw [encodeRecord, sortKeys_ok formed flat built]
  dsimp only
  rw [if_pos (serializable_canon built), stringify_canon built]

/-- The members read back from the text of an object. -/
theorem parse_textOf_object (distinct : (members.map Prod.fst).Nodup) :
    ∃ listed, parse (textOf numerals (.object plain members)) = .object true listed ∧
      listed.Perm (mapValues (fun value => parse (textOf numerals value)) members) := by
  rw [textOf_object, parse, parseMembers_eq, mapValues_mapValues]
  have distinct : ((mapValues (fun value => parse (textOf numerals value)) (enumerate (sortEntries members))).map
      Prod.fst).Nodup := by
    rw [map_fst_mapValues, (listed_names members).nodup_iff]
    exact distinct
  exact ⟨_, rfl, (fromEntries_perm distinct).trans ((listed_perm members).map _)⟩

/-- A text is read back as what was written. -/
theorem parse_textOf (built : Built names data) (distinct : ∀ list, names list → list.Nodup) :
    Value.DeepEqual data (parse (textOf numerals data)) := by
  induction built with
  | string text => exact .string text
  | number finite nonneg representable =>
    rename_i number q
    cases number with
    | finite r =>
      obtain rfl := Option.some.inj finite
      rw [textOf, parse, jsLiteral_double nonneg representable]
      exact .number (.inl rfl)
    | negativeZero =>
      rw [textOf, parse, Literal.double_zero]
      exact .number (.inr ⟨.inr rfl, .inl rfl⟩)
    | _ => contradiction
  | object named each ih =>
    rename_i members
    obtain ⟨listed, parsed, perm⟩ := @parse_textOf_object members true numerals (distinct _ named)
    rw [parsed]
    refine .object ?_ ?_
    · have names := perm.map Prod.fst
      rw [map_fst_mapValues] at names
      exact names.symm
    · intro name x y first second
      obtain ⟨source, member, same⟩ := mem_mapValues.mp (perm.mem_iff.mp second)
      obtain ⟨rfl, rfl⟩ := Prod.mk.inj same
      have held := List.inj_on_of_nodup_map (distinct _ named) first member rfl
      rw [← held]
      exact ih _ first

/-- What is read back is JSON data again. -/
theorem built_parse (built : Built AsciiNames data) : Built AsciiNames (parse (textOf numerals data)) := by
  induction built with
  | string text => exact .string text
  | number finite nonneg representable =>
    rename_i number q
    cases number with
    | finite r =>
      obtain rfl := Option.some.inj finite
      rw [textOf, parse, jsLiteral_double nonneg representable]
      exact .number rfl nonneg representable
    | negativeZero =>
      rw [textOf, parse, Literal.double_zero]
      exact .number rfl le_rfl Double.representable_zero
    | _ => contradiction
  | object named each ih =>
    rename_i members
    obtain ⟨listed, parsed, perm⟩ := @parse_textOf_object members true numerals named.1
    have names := perm.map Prod.fst
    rw [map_fst_mapValues] at names
    rw [parsed]
    refine .object ⟨names.nodup_iff.mpr named.1, fun name member => named.2 name (names.mem_iff.mp member)⟩ ?_
    intro entry member
    obtain ⟨source, listed, rfl⟩ := mem_mapValues.mp (perm.mem_iff.mp member)
    exact ih source listed

end Audr.JsRecord
