import Audr.JsRecord.Canonical
import Audr.JsRecord.Equality

/-! The canonical encoding of accepted records, and the label names for which its keys are not
sorted. -/

namespace Audr.JsRecord

open Properties

variable {path : List String} {value data record : Value} {members : List (String × Value)} {plain : Bool}
  {names : List String → Prop} {numerals : Numerals} {now later : Int}

/-- Every object of a text has names that are as wanted. -/
inductive Every (names : List String → Prop) : Text → Prop
  | null : Every names .null
  | bool (value : Bool) : Every names (.bool value)
  | num (literal : Literal) : Every names (.num literal)
  | str (text : String) : Every names (.str text)
  | arr {items : List Text} (each : ∀ item ∈ items, Every names item) : Every names (.arr items)
  | obj {members : List (String × Text)} (named : names (members.map Prod.fst))
      (each : ∀ entry ∈ members, Every names entry.2) : Every names (.obj members)

/-- Each object lists its keys in ascending code-unit order. -/
def Ascending (text : Text) : Prop := Every (fun names => names.Pairwise unitsLe) text

/-- Each object lists its keys as `json.dumps(..., sort_keys=True)` does, by code points. -/
def PySorted (text : Text) : Prop := Every (fun names => names.Pairwise pointsLe) text

/-- What the encoding of a record is for: it is read back as the record, its keys are sorted
at every level, as Python sorts them, and the order of insertion does not show. -/
def CanonicalEncoding (numerals : Numerals) (later : Int) (record : Value) : Prop :=
  ∃ text, encodeRecord numerals record = .ok (some text) ∧
    (∃ back, decodeRecord later (some text) = .ok back ∧ back.DeepEqual record.strip) ∧
    Ascending text ∧ PySorted text ∧
    ∀ same : Value, same.WellFormed → same.Plain → same.strip.DeepEqual record.strip →
      encodeRecord numerals same = .ok (some text)

/-- ASCII names whose listing is sorted. -/
abbrev SortedNames (list : List String) : Prop := AsciiNames list ∧ ListedSorted list

theorem Every.mono {more : List String → Prop} {text : Text} (every : Every names text)
    (weaker : ∀ list, names list → more list) : Every more text := by
  induction every with
  | null => exact .null
  | bool value => exact .bool value
  | num literal => exact .num literal
  | str text => exact .str text
  | arr _ ih => exact .arr ih
  | obj named _ ih => exact .obj (weaker _ named) ih

theorem every_textOf (built : Built SortedNames data) :
    Every (fun list => list.Pairwise unitsLe ∧ list.Pairwise pointsLe) (textOf numerals data) := by
  induction built with
  | string text => exact .str text
  | number finite nonneg representable =>
    rename_i number q
    cases number with
    | finite q => exact .num _
    | negativeZero => exact .num _
    | _ => contradiction
  | object named each ih =>
    rename_i members
    rw [textOf_object]
    refine .obj ?_ ?_
    · rw [map_fst_mapValues]
      have listed := named.2.perm ((sortEntries_perm members).map Prod.fst).symm
      have units : ((enumerate (sortEntries members)).map Prod.fst).Pairwise unitsLe :=
        List.pairwise_map.mpr (enumerate_sorted (sortEntries_sorted members) listed)
      refine ⟨units, units.imp_of_mem fun {a b} first second le => ?_⟩
      have first := named.1.2 a ((listed_names members).mem_iff.mp first)
      have second := named.1.2 b ((listed_names members).mem_iff.mp second)
      rw [pointsLe, ← codeUnits_ascii first, ← codeUnits_ascii second]
      exact le
    · intro entry member
      obtain ⟨source, listed, rfl⟩ := mem_mapValues.mp member
      exact ih source ((listed_perm members).mem_iff.mp listed)

theorem sorted_of_ascending (built : Built AsciiNames data) :
    Ascending (textOf numerals data) → Built SortedNames data := by
  induction built with
  | string text => exact fun _ => .string text
  | number finite nonneg representable => exact fun _ => .number finite nonneg representable
  | object named each ih =>
    rename_i members
    intro ascending
    rw [Ascending, textOf_object] at ascending
    obtain - | - | - | - | - | ⟨sorted, inside⟩ := ascending
    rw [map_fst_mapValues, List.pairwise_map] at sorted
    refine .object ⟨named, ?_⟩ ?_
    · exact (sorted_of_enumerate sorted).perm ((sortEntries_perm members).map Prod.fst)
    · intro entry member
      refine ih entry member (inside (entry.1, textOf numerals entry.2) ?_)
      exact mem_mapValues.mpr ⟨entry, (listed_perm members).mem_iff.mpr member, rfl⟩

/-- Members by their names. -/
theorem mapValues_names {W : Type} (f : Value → W) (distinct : (members.map Prod.fst).Nodup) :
    mapValues f members = (members.map Prod.fst).map fun name => (name, f (Value.field name members)) := by
  rw [mapValues, List.map_map]
  refine List.map_congr_left fun entry member => ?_
  rw [Function.comp_apply, field_of_mem distinct member]

/-- Equal data have one text. -/
theorem textOf_equal (equal : value.DeepEqual data) (left : Built AsciiNames value) (right : Built AsciiNames data) :
    textOf numerals value = textOf numerals data := by
  induction equal with
  | null => rfl
  | bool value => rfl
  | number same =>
    have zero : jsLiteral numerals 0 = .int false 0 := by simp [jsLiteral]
    rcases same with rfl | ⟨first, second⟩
    · rfl
    · rcases first with rfl | rfl <;> rcases second with rfl | rfl <;> simp [textOf, zero]
  | string text => rfl
  | @object plain a b names each ih =>
    obtain - | - | ⟨named, formed⟩ := left
    obtain - | - | ⟨named', formed'⟩ := right
    have values : ∀ name ∈ a.map Prod.fst,
        (name, textOf numerals (Value.field name a)) = (name, textOf numerals (Value.field name b)) := by
      intro name listed
      obtain ⟨⟨_, x⟩, first, rfl⟩ := List.mem_map.mp listed
      obtain ⟨⟨other, y⟩, second, same⟩ := List.mem_map.mp (names.mem_iff.mp listed)
      dsimp only at same
      subst same
      rw [field_of_mem named.1 first, field_of_mem named'.1 second,
        ih other x y first second (formed _ first) (formed' _ second)]
    have same : (mapValues (textOf numerals) a).Perm (mapValues (textOf numerals) b) := by
      rw [mapValues_names _ named.1, mapValues_names _ named'.1, List.map_congr_left values]
      exact names.map _
    have sorted := sortEntries_congr same (by simpa using named.1) fun entry member =>
      named.2 entry.1 (by simpa using List.mem_map_of_mem (f := Prod.fst) member)
    rw [textOf, textOf, textMembers_eq, textMembers_eq, sorted]

/-! Reading back. -/

theorem clone_built (built : Built names data) : cloneable data = true ∧ clone data = data := by
  induction built with
  | string text => exact ⟨rfl, rfl⟩
  | number finite nonneg representable => exact ⟨rfl, rfl⟩
  | object named each ih =>
    rename_i members
    constructor
    · rw [cloneable, cloneableMembers_eq]
      exact List.all_eq_true.mpr fun entry member => (ih entry member).1
    · rw [clone, cloneMembers_eq, mapValues]
      congr 1
      calc members.map (fun entry => (entry.1, clone entry.2)) = members.map id :=
            List.map_congr_left fun entry member => Prod.ext rfl (ih entry member).2
        _ = members := List.map_id members

theorem Built.wellFormed (built : Built AsciiNames data) : data.WellFormed := by
  induction built with
  | string text => exact .string text
  | number finite nonneg representable =>
    rename_i number q
    cases number with
    | finite r =>
      obtain rfl := Option.some.inj finite
      exact .number representable
    | _ => exact .special (by simp)
  | object named each ih => exact .object named.1 ih

theorem Built.flat (built : Built names data) : data.Plain := by
  induction built with
  | string text => exact .string text
  | number finite nonneg representable => exact .number _
  | object named each ih => exact .object ih

/-- `asJson` changes nothing of JSON data but the order of members. -/
theorem asJson_built (built : Built AsciiNames data) : ∀ key, data.DeepEqual (asJson key data) := by
  induction built with
  | string text => exact fun key => .string text
  | number finite nonneg representable => exact fun key => .number (.inl rfl)
  | object named each ih =>
    rename_i members
    intro key
    have all : asJsonMembers (key = some "labels") members =
        members.map fun entry => (entry.1, asJson (some entry.1) entry.2) := by
      rw [asJsonMembers_eq, List.filter_eq_self.mpr]
      exact fun entry member => by simp [(each entry member).isDefined]
    have perm := fromEntries_perm (@asJsonMembers_nodup members (key = some "labels") named.1)
    rw [asJson]
    refine .object ?_ fun name x y first second => ?_
    · have names : (asJsonMembers (key = some "labels") members).map Prod.fst = members.map Prod.fst := by
        rw [all, List.map_map]
        rfl
      exact names ▸ (perm.map Prod.fst).symm
    · have second := perm.mem_iff.mp second
      rw [all] at second
      obtain ⟨source, member, same⟩ := List.mem_map.mp second
      obtain ⟨rfl, rfl⟩ := Prod.mk.inj same
      have held := List.inj_on_of_nodup_map named.1 first member rfl
      rw [← held]
      exact ih _ first _

/-! Which accepted records are written with sorted keys. -/

/-- What acceptance says of the record `validate` has checked. -/
theorem built_of_accepted (formed : record.WellFormed) (flat : record.Plain) (accepted : validate now record = []) :
    Built AsciiNames record.strip ∧ asJson none record = record.strip := by
  have clean := (inspect_nil.mp accepted).1
  have object := (List.append_eq_nil_iff.mp clean).2
  have built := reads_record [] _ (asJson_wellFormed formed none) (asJson_plain formed flat none)
    (asJson_settled formed none (by decide)) object
  have same := asJson_eq_strip formed flat none built
  exact ⟨same ▸ built, same⟩

theorem version_of_accepted (accepted : inspect now data = []) : versionIssue data = none := by
  have object := (List.append_eq_nil_iff.mp (inspect_nil.mp accepted).1).2
  obtain ⟨plain, members, rfl, -, required, -, fields, -⟩ := objectSchema_nil.mp object
  have clean : matching versionPattern ["spec_version"] (Value.field "spec_version" members) = [] :=
    fields ("spec_version", matching versionPattern) (by simp [recordProperties]) (required "spec_version" (by simp))
  unfold matching at clean
  obtain ⟨text, held, -, -, admitted⟩ := stringSchema_nil.mp clean
  have admitted : versionPattern text = true := admitted _ rfl
  simp [versionIssue, held, admitted]

theorem versionIssue_same (left : value.WellFormed) (right : data.WellFormed) (equal : value.DeepEqual data) :
    versionIssue value = versionIssue data := by
  cases equal with
  | object names each =>
    have alike := alike_field left right (.object names each) "spec_version"
    unfold versionIssue
    dsimp only
    generalize Value.field "spec_version" _ = x at *
    generalize Value.field "spec_version" _ = y at *
    rcases alike with ⟨rfl, rfl⟩ | equal
    · rfl
    · cases equal <;> rfl
  | _ => rfl

theorem parseRecord_ok (built : Built names data) (version : versionIssue data = none)
    (valid : validate now data = []) : parseRecord now data = .ok data := by
  obtain ⟨cloneable, cloned⟩ := clone_built built
  rw [parseRecord, cloneInput, if_pos cloneable, cloned]
  dsimp only [bind, Except.bind]
  rw [version]
  simp [valid]

/-- A text of an accepted record is decoded, also later. -/
theorem decode_textOf (passed : now ≤ later) (built : Built AsciiNames data) (accepted : inspect now data = []) :
    ∃ back, decodeRecord later (some (textOf numerals data)) = .ok back ∧ data.DeepEqual back := by
  have equal := @parse_textOf data _ numerals built fun _ named => named.1
  have again := @built_parse data numerals built
  have valid : validate later (parse (textOf numerals data)) = [] :=
    inspect_equal passed built.wellFormed (asJson_wellFormed again.wellFormed none)
      (equal.trans (asJson_built again none)) accepted
  have version : versionIssue (parse (textOf numerals data)) = none := by
    rw [← versionIssue_same built.wellFormed again.wellFormed equal]
    exact version_of_accepted accepted
  exact ⟨_, parseRecord_ok again version valid, equal⟩

/-- JSON data of known properties. -/
theorem built_object {least : Nat} {required : List String} {properties : List (String × Schema)}
    (distinct : (members.map Prod.fst).Nodup) (named : names (members.map Prod.fst))
    (clean : objectSchema least required properties none path (.object true members) = [])
    (defined : ∀ entry ∈ members, entry.2.isDefined = true)
    (each : ∀ property ∈ properties, (property.1, Value.field property.1 members) ∈ members →
      property.2 (path ++ [property.1]) (Value.field property.1 members) = [] →
      Built names (Value.field property.1 members)) :
    Built names (.object true members) := by
  obtain ⟨plain, members, same, -, -, known, fields, -⟩ := objectSchema_nil.mp clean
  obtain ⟨rfl, rfl⟩ := Value.object.inj same
  refine .object named fun entry member => ?_
  obtain ⟨property, listed, same⟩ := List.mem_map.mp ((known entry member).resolve_right (by simp))
  have held : Value.field property.1 members = entry.2 := field_of_mem distinct (same ▸ member)
  rw [← held]
  refine each property listed (by rw [held, same]; exact member) (fields property listed ?_)
  rw [held]
  exact defined entry member

/-- The names of the schema and of extensions are never array indices. -/
def Fixed (name : String) : Prop := isIndex name = false ∧ ascii name = true

theorem sorted_of_fixed {list : List String} (fixed : Names Fixed list) : SortedNames list :=
  ⟨⟨fixed.1, fun name member => (fixed.2 name member).2⟩, listedSorted_of_names fun name member => (fixed.2 name member).1⟩

theorem names_fixed {least : Nat} {required : List String} {properties : List (String × Schema)}
    (distinct : (members.map Prod.fst).Nodup)
    (fixed : (properties.map Prod.fst).all (fun name => !isIndex name && ascii name) = true)
    (clean : objectSchema least required properties none path (.object plain members) = []) :
    Names Fixed (members.map Prod.fst) := by
  obtain ⟨plain, members, same, -, -, known, -⟩ := objectSchema_nil.mp clean
  obtain ⟨rfl, rfl⟩ := Value.object.inj same
  refine ⟨distinct, fun name listed => ?_⟩
  obtain ⟨entry, member, rfl⟩ := List.mem_map.mp listed
  have both := List.all_eq_true.mp fixed entry.1 ((known entry member).resolve_right (by simp))
  simpa only [Fixed, Bool.and_eq_true, Bool.not_eq_true'] using both

theorem sorted_labels (formed : value.WellFormed) (flat : value.Plain) (clean : labelsSchema path value = [])
    (sorted : ∀ plain members, value = .object plain members → ListedSorted (members.map Prod.fst)) :
    Built SortedNames value := by
  have built := reads_labels (fun _ => labelPattern_ascii) path value formed flat clean
  obtain ⟨plain, members, rfl, -, -, texts⟩ := labelsSchema_nil.mp clean
  obtain - | - | ⟨named, -⟩ := built
  refine .object ⟨named, sorted _ _ rfl⟩ fun entry member => ?_
  obtain ⟨text, held, -⟩ := texts entry member
  rw [held]
  exact .string text

theorem sorted_attribution (formed : value.WellFormed) (flat : value.Plain) (settled : Settled value)
    (clean : attributionSchema path value = [])
    (sorted : ∀ plain members, valueAt value ["labels"] = .object plain members →
      ListedSorted (members.map Prod.fst)) : Built SortedNames value := by
  have clean := (List.append_eq_nil_iff.mp clean).2
  obtain ⟨plain, members, rfl, -⟩ := objectSchema_nil.mp clean
  obtain - | - | - | - | - | - | - | ⟨distinct, formed⟩ := formed
  obtain - | - | - | - | - | - | flat := flat
  obtain ⟨leaf⟩ | ⟨defined, settled⟩ := settled
  · exact absurd rfl (leaf true members)
  refine built_object distinct (sorted_of_fixed (names_fixed distinct (by decide +kernel) clean)) clean defined ?_
  intro property listed member clean
  by_cases labels : property.1 = "labels"
  · have labels : property = ("labels", labelsSchema) := by
      revert property
      simp
    subst labels
    exact sorted_labels (formed _ member) (flat _ member) clean sorted
  · have reads : Reads Fixed property.2 := by
      revert property
      simp [reads_enum, anyText, someText, reads_string]
    exact (reads _ _ (formed _ member) (flat _ member) clean).mono fun _ => sorted_of_fixed

/-- The keys of an accepted record are sorted where its labels are. -/
theorem sorted_record (formed : data.WellFormed) (flat : data.Plain) (settled : Settled data)
    (clean : recordObject [] data = []) (sorted : ListedSorted (labelNames data)) : Built SortedNames data := by
  obtain ⟨plain, members, rfl, -⟩ := objectSchema_nil.mp clean
  obtain - | - | - | - | - | - | - | ⟨distinct, formed⟩ := formed
  obtain - | - | - | - | - | - | flat := flat
  obtain ⟨leaf⟩ | ⟨defined, settled⟩ := settled
  · exact absurd rfl (leaf true members)
  refine built_object distinct (sorted_of_fixed (names_fixed distinct (by decide +kernel) clean)) clean defined ?_
  intro property listed member clean
  by_cases attribution : property.1 = "attribution"
  · have attribution : property = ("attribution", attributionSchema) := by
      revert property
      simp [recordProperties]
    subst attribution
    refine sorted_attribution (formed _ member) (flat _ member) (settled _ member (by simp)) clean ?_
    intro plain labels held
    have named : labelNames (.object true members) = labels.map Prod.fst := by rw [labelNames, valueAt, held]
    exact named ▸ sorted
  · have known : ∀ name, isIndex name = false → ascii name = true → Fixed name := fun _ index plain => ⟨index, plain⟩
    rcases reads_properties known property listed attribution with reads | ⟨other, reads⟩
    · exact (reads _ _ (formed _ member) (flat _ member) clean).mono fun _ => sorted_of_fixed
    · exact (reads _ _ (formed _ member) (flat _ member) (settled _ member other) clean).mono fun _ => sorted_of_fixed

theorem built_valueAt (names' : List String) :
    ∀ {data : Value}, Built names data → (valueAt data names').isDefined = true → Built names (valueAt data names') := by
  induction names' with
  | nil => exact fun built _ => built
  | cons name rest ih =>
    intro data built defined
    cases built with
    | @object members named each =>
      rw [valueAt] at defined ⊢
      have present : (Value.field name members).isDefined = true := by
        by_contra absent
        cases held : Value.field name members <;> simp_all [Value.isDefined]
        cases rest <;> simp_all [valueAt]
      exact ih (each _ (mem_of_field present)) defined
    | _ => contradiction

/-! The labels of a record, before and after `asJson`. -/

theorem field_asJson {all : Bool} (distinct : (members.map Prod.fst).Nodup) (name : String) :
    Value.field name (fromEntries (asJsonMembers all members)) = asJson (some name) (Value.field name members) := by
  have perm := fromEntries_perm (@asJsonMembers_nodup members all distinct)
  by_cases defined : (Value.field name members).isDefined = true
  · refine field_of_mem (asJson_names distinct) (perm.mem_iff.mpr ?_)
    rw [asJsonMembers_eq]
    exact List.mem_map.mpr ⟨_, List.mem_filter.mpr ⟨mem_of_field defined, by simp [defined]⟩, rfl⟩
  · have absent : Value.field name members = .undefined := by
      cases held : Value.field name members <;> simp_all [Value.isDefined]
    by_contra other
    have present : (Value.field name (fromEntries (asJsonMembers all members))).isDefined = true := by
      rw [absent] at other
      cases held : Value.field name (fromEntries (asJsonMembers all members)) <;> simp_all [Value.isDefined, asJson]
    obtain ⟨source, member, -, same⟩ := mem_asJson distinct (mem_of_field present)
    obtain ⟨rfl, same⟩ := Prod.mk.inj same
    rw [same, ← field_of_mem distinct member, absent] at present
    contradiction

theorem valueAt_asJson (names : List String) : ∀ {value : Value} {key : Option String}, value.WellFormed → names ≠ [] →
    valueAt (asJson key value) names = asJson names.getLast? (valueAt value names) := by
  induction names with
  | nil => exact fun _ some => absurd rfl some
  | cons name rest ih =>
    intro value key formed _
    cases value with
    | object plain members =>
      have inside := wellFormed_field formed name
      obtain - | - | - | - | - | - | - | ⟨distinct, formed⟩ := formed
      rw [asJson, valueAt, valueAt, field_asJson distinct]
      cases rest with
      | nil => rfl
      | cons next rest => exact ih inside (by simp)
    | _ => rfl

theorem valueAt_wellFormed (names : List String) : ∀ {value : Value}, value.WellFormed →
    (valueAt value names).WellFormed := by
  induction names with
  | nil => exact fun formed => formed
  | cons name rest ih =>
    intro value formed
    cases value with
    | object plain members => exact ih (wellFormed_field formed name)
    | _ => exact .undefined

theorem labelNames_asJson (formed : record.WellFormed) : (labelNames (asJson none record)).Perm (labelNames record) := by
  have labels := @valueAt_asJson ["attribution", "labels"] record none formed (by simp)
  rw [labelNames, labels, labelNames]
  have formed := valueAt_wellFormed ["attribution", "labels"] formed
  generalize valueAt record ["attribution", "labels"] = value at *
  cases value with
  | object plain members =>
    obtain - | - | - | - | - | - | - | ⟨distinct, -⟩ := formed
    have perm := (fromEntries_perm (@asJsonMembers_nodup members true distinct)).map Prod.fst
    have all : asJsonMembers true members = members.map fun entry => (entry.1, asJson (some entry.1) entry.2) := by
      rw [asJsonMembers_eq, List.filter_eq_self.mpr]
      simp
    have names : (asJsonMembers true members).map Prod.fst = members.map Prod.fst := by
      rw [all, List.map_map]
      rfl
    have last : asJson (["attribution", "labels"].getLast?) (.object plain members) =
        .object true (fromEntries (asJsonMembers true members)) := by simp [asJson]
    rw [last]
    exact perm.trans (.of_eq names)
  | _ => exact List.Perm.refl _

/-- The keys of a record are only sorted where its labels are. -/
theorem labels_of_sorted (built : Built SortedNames data) : ListedSorted (labelNames data) := by
  unfold labelNames
  split
  next plain members held =>
    have labels := built_valueAt ["attribution", "labels"] built (by rw [held]; rfl)
    rw [held] at labels
    obtain - | - | ⟨named, -⟩ := labels
    exact named.2
  next => exact listedSorted_of_names (by simp)

/-! Other records of the same data. -/

theorem mem_strip (distinct : (members.map Prod.fst).Nodup) {entry : String × Value}
    (member : entry ∈ fromEntries (Value.stripMembers members)) :
    ∃ source ∈ members, entry = (source.1, source.2.strip) := by
  have member := (fromEntries_perm (stripMembers_nodup distinct)).mem_iff.mp member
  rw [stripMembers_eq] at member
  obtain ⟨source, kept, same⟩ := mem_mapValues.mp member
  exact ⟨source, (List.mem_filter.mp kept).1, same⟩

theorem strip_wellFormed (formed : value.WellFormed) : value.strip.WellFormed := by
  induction value using Value.induct with
  | object plain members ih =>
    obtain - | - | - | - | - | - | - | ⟨distinct, formed⟩ := formed
    rw [Value.strip]
    refine .object ?_ fun entry member => ?_
    · exact ((fromEntries_perm (stripMembers_nodup distinct)).map Prod.fst).nodup_iff.mpr (stripMembers_nodup distinct)
    · obtain ⟨source, listed, rfl⟩ := mem_strip distinct member
      exact ih source listed (formed source listed)
  | _ => exact formed

theorem strip_plain (formed : value.WellFormed) (flat : value.Plain) : value.strip.Plain := by
  induction value using Value.induct with
  | object plain members ih =>
    obtain - | - | - | - | - | - | - | ⟨distinct, formed⟩ := formed
    obtain - | - | - | - | - | - | flat := flat
    rw [Value.strip]
    refine .object fun entry member => ?_
    obtain ⟨source, listed, rfl⟩ := mem_strip distinct member
    exact ih source listed (formed source listed) (flat source listed)
  | _ => exact flat

/-- What equals JSON data is JSON data. -/
theorem built_of_equal (equal : value.DeepEqual data) (built : Built AsciiNames data) (formed : value.WellFormed)
    (flat : value.Plain) : Built AsciiNames value := by
  induction equal with
  | null => exact built
  | bool value => exact built
  | string text => exact .string text
  | @number x y same =>
    obtain - | ⟨finite, nonneg, representable⟩ | - := built
    exact .number (finiteValue_same same ▸ finite) nonneg representable
  | @object plain a b names each ih =>
    obtain - | - | ⟨named, inside⟩ := built
    obtain - | - | - | - | - | - | - | ⟨distinct, formed⟩ := formed
    obtain - | - | - | - | - | - | flat := flat
    refine .object ⟨distinct, fun name member => named.2 name (names.mem_iff.mp member)⟩ fun entry member => ?_
    obtain ⟨⟨_, y⟩, second, rfl⟩ := List.mem_map.mp (names.mem_iff.mp (List.mem_map_of_mem (f := Prod.fst) member))
    exact ih entry.1 entry.2 y member second (inside _ second) (formed entry member) (flat entry member)

theorem encoding_of_sorted (formed : record.WellFormed) (flat : record.Plain) (accepted : validate now record = [])
    (passed : now ≤ later) (sorted : ListedSorted (labelNames record)) : CanonicalEncoding numerals later record := by
  obtain ⟨built, same⟩ := built_of_accepted formed flat accepted
  have valid : inspect now record.strip = [] := same ▸ accepted
  obtain ⟨back, decoded, equal⟩ := @decode_textOf record.strip numerals now later passed built valid
  have clean := (List.append_eq_nil_iff.mp (inspect_nil.mp valid).1).2
  have settled : Settled record.strip := same ▸ asJson_settled formed none (by decide)
  have labels := sorted.perm (labelNames_asJson formed).symm
  rw [same] at labels
  have ordered := @every_textOf record.strip numerals (sorted_record built.wellFormed built.flat settled clean labels)
  refine ⟨_, encodeRecord_ok formed flat built, ⟨back, decoded, equal.symm⟩, ordered.mono fun _ both => both.1,
    ordered.mono fun _ both => both.2, fun again formed' flat' equal => ?_⟩
  have built' := built_of_equal equal built (strip_wellFormed formed') (strip_plain formed' flat')
  rw [encodeRecord_ok formed' flat' built', textOf_equal equal built' built]

theorem sorted_of_encoding (formed : record.WellFormed) (flat : record.Plain) (accepted : validate now record = [])
    (canonical : CanonicalEncoding numerals later record) : ListedSorted (labelNames record) := by
  obtain ⟨built, same⟩ := built_of_accepted formed flat accepted
  obtain ⟨text, encoded, -, ascending, -⟩ := canonical
  rw [encodeRecord_ok formed flat built] at encoded
  obtain rfl := Option.some.inj (Except.ok.inj encoded)
  have labels := labels_of_sorted (sorted_of_ascending built ascending)
  rw [← same] at labels
  exact labels.perm (labelNames_asJson formed)

/-- An accepted record is encoded canonically exactly where its labels have no array index
among their names that sorts after one the engine lists later. -/
theorem encode_canonical (numerals : Numerals) (record : Value) (now later : Int) (formed : record.WellFormed)
    (flat : record.Plain) (accepted : validate now record = []) (passed : now ≤ later) :
    CanonicalEncoding numerals later record ↔ ListedSorted (labelNames record) :=
  ⟨sorted_of_encoding formed flat accepted, encoding_of_sorted formed flat accepted passed⟩

/-- Labels that are no array indices are sorted. -/
theorem encode_canonical_team :
    CanonicalEncoding .exact 1735689600000 (labelledRecord ["team", "10th"]) :=
  (encode_canonical .exact (labelledRecord ["team", "10th"]) 1735689600000 1735689600000
    (labelledRecord_formed (by decide)).1 (labelledRecord_formed (by decide)).2 (by decide +kernel) le_rfl).mpr
    (listedSorted_of_names (by decide +kernel))

/-- The engine lists the label `9` before the label `10`, which sorts before it. -/
theorem index_labels_unsorted :
    ¬ ∀ (numerals : Numerals) (record : Value) (now later : Int), record.WellFormed → record.Plain →
      validate now record = [] → now ≤ later → CanonicalEncoding numerals later record := by
  intro claim
  obtain ⟨formed, flat⟩ := @labelledRecord_formed ["10", "9"] (by decide)
  have accepted : validate 1735689600000 (labelledRecord ["10", "9"]) = [] := by decide +kernel
  have canonical := claim .exact (labelledRecord ["10", "9"]) 1735689600000 1735689600000 formed flat accepted le_rfl
  have sorted := sorted_of_encoding formed flat accepted canonical
  have before := sorted "9" (by decide +kernel) 9 (by decide +kernel) "10" (by decide +kernel) (by
    intro m found
    have ten : arrayIndex? "10" = some 10 := by decide +kernel
    rw [ten] at found
    obtain rfl := Option.some.inj found
    decide)
  revert before
  decide +kernel

end Audr.JsRecord
