import Audr.JsRecord.Acceptance

/-! What an accepted value is made of: strings, finite numbers, and plain objects. -/

namespace Audr.JsRecord

open Properties (fromEntries mapValues isIndex fromEntries_perm)

variable {path : List String} {value data : Value} {members : List (String × Value)} {plain : Bool}
  {names more : List String → Prop} {good : String → Prop}

/-! The functions on values, as what they do to the members of an object. -/

theorem asJsonMembers_eq (all : Bool) :
    asJsonMembers all members =
      (members.filter fun entry => all || entry.2.isDefined).map fun entry => (entry.1, asJson (some entry.1) entry.2) := by
  induction members with
  | nil => rfl
  | cons entry rest ih =>
    obtain ⟨name, value⟩ := entry
    rw [asJsonMembers, ih]
    by_cases kept : (all || value.isDefined) = true <;> simp [kept]

theorem stripMembers_eq :
    Value.stripMembers members = mapValues Value.strip (members.filter fun entry => entry.2.isDefined) := by
  induction members with
  | nil => rfl
  | cons entry rest ih =>
    obtain ⟨name, value⟩ := entry
    rw [Value.stripMembers, ih]
    by_cases kept : value.isDefined = true <;> simp [kept, mapValues]

theorem sortMembers_eq :
    sortMembers path members = (members.filter fun entry => entry.2.isDefined).map fun entry =>
      (entry.1, sortKeys (path ++ [entry.1]) entry.2) := by
  induction members with
  | nil => rfl
  | cons entry rest ih =>
    obtain ⟨name, value⟩ := entry
    rw [sortMembers, ih]
    by_cases kept : value.isDefined = true <;> simp [kept]

theorem parseMembers_eq (members : List (String × Text)) : parseMembers members = mapValues parse members := by
  induction members with
  | nil => rfl
  | cons entry rest ih =>
    obtain ⟨name, value⟩ := entry
    rw [parseMembers, ih]
    rfl

theorem cloneMembers_eq : cloneMembers members = mapValues clone members := by
  induction members with
  | nil => rfl
  | cons entry rest ih =>
    obtain ⟨name, value⟩ := entry
    rw [cloneMembers, ih]
    rfl

theorem cloneableMembers_eq : cloneableMembers members = members.all fun entry => cloneable entry.2 := by
  induction members with
  | nil => rfl
  | cons entry rest ih =>
    obtain ⟨name, value⟩ := entry
    rw [cloneableMembers, ih]
    rfl

/-! A member by its name. -/

theorem field_of_mem {name : String} (distinct : (members.map Prod.fst).Nodup) (member : (name, value) ∈ members) :
    Value.field name members = value := by
  have found : (members.find? fun entry => entry.1 = name) = some (name, value) := by
    induction members with
    | nil => contradiction
    | cons entry rest ih =>
      rcases List.mem_cons.mp member with rfl | later
      · simp
      · have other : entry.1 ≠ name := by
          rintro rfl
          exact (List.nodup_cons.mp distinct).1 (List.mem_map.mpr ⟨_, later, rfl⟩)
        rw [List.find?_cons_of_neg (by simpa using other)]
        exact ih (List.nodup_cons.mp distinct).2 later
  simp [Value.field, found]

theorem field_of_notMem {name : String} (absent : name ∉ members.map Prod.fst) :
    Value.field name members = .undefined := by
  have found : (members.find? fun entry => entry.1 = name) = none := by
    rw [List.find?_eq_none]
    intro entry member same
    exact absent (List.mem_map.mpr ⟨entry, member, by simpa using same⟩)
  simp [Value.field, found]

theorem mem_of_field {name : String} (defined : (Value.field name members).isDefined = true) :
    (name, Value.field name members) ∈ members := by
  unfold Value.field at *
  cases found : members.find? fun entry => entry.1 = name with
  | none => simp [found, Value.isDefined] at defined
  | some entry =>
    have same : entry.1 = name := by simpa using List.find?_some found
    have member := List.mem_of_find?_eq_some found
    simpa [← same] using member

/-! Values without anything that is no JSON data. -/

/-- Strings, doubles that are finite and not negative, and plain objects of names that are
as wanted. -/
inductive Built (names : List String → Prop) : Value → Prop
  | string (text : String) : Built names (.string text)
  | number {number : Double} {q : ℚ} (finite : finiteValue number = some q) (nonneg : 0 ≤ q)
      (representable : Double.Representable q) : Built names (.number number)
  | object {members : List (String × Value)} (named : names (members.map Prod.fst))
      (each : ∀ entry ∈ members, Built names entry.2) : Built names (.object true members)

theorem Built.isDefined (built : Built names value) : value.isDefined = true := by
  cases built <;> rfl

theorem Built.mono (built : Built names value) (weaker : ∀ list, names list → more list) : Built more value := by
  induction built with
  | string text => exact .string text
  | number finite nonneg representable => exact .number finite nonneg representable
  | object named _ ih => exact .object (weaker _ named) ih

/-- Distinct names, each of a kind. -/
def Names (good : String → Prop) (list : List String) : Prop := list.Nodup ∧ ∀ name ∈ list, good name

/-- No member is undefined, but among labels. -/
inductive Settled : Value → Prop
  | leaf {value : Value} (leaf : ∀ plain members, value ≠ .object plain members) : Settled value
  | object {plain : Bool} {members : List (String × Value)}
      (defined : ∀ entry ∈ members, entry.2.isDefined = true)
      (each : ∀ entry ∈ members, entry.1 ≠ "labels" → Settled entry.2) : Settled (.object plain members)

/-- A schema that only admits such values. -/
def Reads (good : String → Prop) (schema : Schema) : Prop :=
  ∀ path value, value.WellFormed → value.Plain → schema path value = [] → Built (Names good) value

/-- The same, of values that came out of `asJson`. -/
def ReadsSettled (good : String → Prop) (schema : Schema) : Prop :=
  ∀ path value, value.WellFormed → value.Plain → Settled value → schema path value = [] → Built (Names good) value

theorem reads_string (least : Nat) (most : Option Nat) (pattern : Option Pattern) :
    Reads good (stringSchema least most pattern) := by
  intro path value _ _ clean
  obtain ⟨text, rfl, -⟩ := stringSchema_nil.mp clean
  exact .string text

theorem reads_enum (values : List String) : Reads good (enumSchema values) := by
  intro path value _ _ clean
  obtain ⟨text, -, rfl⟩ := enumSchema_nil.mp clean
  exact .string text

theorem reads_number (types : List String) (whole : Bool) (most : Option ℚ) :
    Reads good (numberSchema types whole most) := by
  intro path value formed _ clean
  obtain ⟨number, q, rfl, finite, nonneg, -⟩ := numberSchema_nil.mp clean
  refine .number finite nonneg ?_
  cases formed with
  | number representable =>
    obtain rfl := Option.some.inj finite
    exact representable
  | special special =>
    cases number with
    | finite q => exact absurd rfl (special q)
    | negativeZero =>
      obtain rfl := Option.some.inj finite
      exact Double.representable_zero
    | _ => contradiction

theorem reads_object {least : Nat} {required : List String} {properties : List (String × Schema)}
    {extension : Option ((String → Bool) × Schema)}
    (each : ∀ property ∈ properties, good property.1 ∧
      (Reads good property.2 ∨ (property.1 ≠ "labels" ∧ ReadsSettled good property.2)))
    (more : ∀ rule ∈ extension, Reads good rule.2 ∧ ∀ name, rule.1 name = true → good name) :
    ReadsSettled good (objectSchema least required properties extension) := by
  intro path value formed flat settled clean
  obtain ⟨plain, members, rfl, -, -, names, fields, others⟩ := objectSchema_nil.mp clean
  obtain - | - | - | - | - | - | - | ⟨distinct, formed⟩ := formed
  obtain - | - | - | - | - | - | flat := flat
  obtain ⟨leaf⟩ | ⟨defined, settled⟩ := settled
  · exact absurd rfl (leaf true members)
  refine .object ⟨distinct, ?_⟩ ?_
  · intro name listed
    obtain ⟨entry, member, rfl⟩ := List.mem_map.mp listed
    rcases names entry member with listed | ⟨rule, listed, admitted⟩
    · obtain ⟨property, listed, same⟩ := List.mem_map.mp listed
      exact same ▸ (each property listed).1
    · exact (more rule listed).2 entry.1 admitted
  · intro entry member
    rcases names entry member with listed | ⟨rule, listed, admitted⟩
    · obtain ⟨property, listed, same⟩ := List.mem_map.mp listed
      have held : Value.field property.1 members = entry.2 := field_of_mem distinct (same ▸ member)
      have clean := fields property listed (by rw [held]; exact defined entry member)
      rw [held] at clean
      rcases (each property listed).2 with reads | ⟨other, reads⟩
      · exact reads _ _ (formed entry member) (flat entry member) clean
      · exact reads _ _ (formed entry member) (flat entry member) (settled entry member (same ▸ other)) clean
    · exact (more rule listed).1 _ _ (formed entry member) (flat entry member)
        (others rule listed entry member admitted)

theorem reads_labels (admits : ∀ name, labelPattern name = true → good name) : Reads good labelsSchema := by
  intro path value formed flat clean
  obtain ⟨plain, members, rfl, -, names, values⟩ := labelsSchema_nil.mp clean
  obtain - | - | - | - | - | - | - | ⟨distinct, formed⟩ := formed
  obtain - | - | - | - | - | - | flat := flat
  refine .object ⟨distinct, ?_⟩ ?_
  · intro name listed
    obtain ⟨entry, member, rfl⟩ := List.mem_map.mp listed
    exact admits entry.1 (names entry member).2
  · intro entry member
    obtain ⟨text, held, -⟩ := values entry member
    rw [held]
    exact .string text

/-! What `asJson` leaves of a value. -/

theorem asJson_isDefined (key : Option String) (value : Value) : (asJson key value).isDefined = value.isDefined := by
  cases value <;> rfl

theorem asJsonMembers_nodup {all : Bool} (distinct : (members.map Prod.fst).Nodup) :
    ((asJsonMembers all members).map Prod.fst).Nodup := by
  rw [asJsonMembers_eq, List.map_map]
  exact distinct.sublist ((List.filter_sublist).map Prod.fst)

theorem mem_asJson {all : Bool} (distinct : (members.map Prod.fst).Nodup) {entry : String × Value}
    (member : entry ∈ fromEntries (asJsonMembers all members)) :
    ∃ source ∈ members, (all = true ∨ source.2.isDefined = true) ∧
      entry = (source.1, asJson (some source.1) source.2) := by
  have member := (fromEntries_perm (asJsonMembers_nodup distinct)).mem_iff.mp member
  rw [asJsonMembers_eq] at member
  obtain ⟨source, kept, rfl⟩ := List.mem_map.mp member
  obtain ⟨listed, kept⟩ := List.mem_filter.mp kept
  exact ⟨source, listed, by simpa using kept, rfl⟩

theorem asJson_names (distinct : (members.map Prod.fst).Nodup) {all : Bool} :
    ((fromEntries (asJsonMembers all members)).map Prod.fst).Nodup :=
  ((fromEntries_perm (asJsonMembers_nodup distinct)).map Prod.fst).nodup_iff.mpr (asJsonMembers_nodup distinct)

theorem asJson_wellFormed (formed : value.WellFormed) : ∀ key, (asJson key value).WellFormed := by
  induction value using Value.induct with
  | object plain members ih =>
    intro key
    obtain - | - | - | - | - | - | - | ⟨distinct, formed⟩ := formed
    rw [asJson]
    refine .object (asJson_names distinct) ?_
    intro entry member
    obtain ⟨source, listed, -, rfl⟩ := mem_asJson distinct member
    exact ih source listed (formed source listed) _
  | _ => exact fun key => formed

theorem asJson_plain (formed : value.WellFormed) (flat : value.Plain) : ∀ key, (asJson key value).Plain := by
  induction value using Value.induct with
  | object plain members ih =>
    intro key
    obtain - | - | - | - | - | - | - | ⟨distinct, formed⟩ := formed
    obtain - | - | - | - | - | - | flat := flat
    rw [asJson]
    refine .object ?_
    intro entry member
    obtain ⟨source, listed, -, rfl⟩ := mem_asJson distinct member
    exact ih source listed (formed source listed) (flat source listed) _
  | _ => exact fun key => flat

theorem asJson_settled (formed : value.WellFormed) : ∀ key, key ≠ some "labels" → Settled (asJson key value) := by
  induction value using Value.induct with
  | object plain members ih =>
    intro key other
    obtain - | - | - | - | - | - | - | ⟨distinct, formed⟩ := formed
    rw [asJson]
    refine .object ?_ ?_
    · intro entry member
      obtain ⟨source, listed, kept, rfl⟩ := mem_asJson distinct member
      rw [asJson_isDefined]
      exact kept.resolve_left (by simpa using other)
    · intro entry member named
      obtain ⟨source, listed, -, rfl⟩ := mem_asJson distinct member
      exact ih source listed (formed source listed) _ (by simpa using named)
  | _ => exact fun key _ => .leaf (by simp [asJson])

/-! The blocks of a record. -/

theorem isLower_ascii {c : Char} (lower : c.isLower = true) : c.toNat < 128 := by
  have range : (decide (c.val ≥ 'a'.val) && decide (c.val ≤ 'z'.val)) = true := lower
  simp only [Bool.and_eq_true, decide_eq_true_eq, ge_iff_le, UInt32.le_iff_toNat_le] at range
  exact lt_of_le_of_lt range.2 (by decide)

theorem isUpper_ascii {c : Char} (upper : c.isUpper = true) : c.toNat < 128 := by
  have range : c.val ≥ 'A'.val ∧ c.val ≤ 'Z'.val := of_decide_eq_true upper
  simp only [ge_iff_le, UInt32.le_iff_toNat_le] at range
  exact lt_of_le_of_lt range.2 (by decide)

theorem isDigit_ascii {c : Char} (digit : Timestamp.isDigit c = true) : c.toNat < 128 := by
  simp only [Timestamp.isDigit, Bool.and_eq_true, decide_eq_true_eq, Char.le_def, UInt32.le_iff_toNat_le] at digit
  exact lt_of_le_of_lt digit.2 (by decide)

theorem labelPattern_ascii {name : String} (admitted : labelPattern name = true) : ascii name = true := by
  simp only [labelPattern, allOf1, Bool.and_eq_true, List.all_eq_true, Bool.or_eq_true, decide_eq_true_eq] at admitted
  refine List.all_eq_true.mpr fun c member => decide_eq_true ?_
  rcases admitted.2 c member with (((alpha | digit) | rfl) | rfl) | rfl
  · rcases Bool.or_eq_true _ _ ▸ alpha with upper | lower
    · exact isUpper_ascii upper
    · exact isLower_ascii lower
  · exact isDigit_ascii digit
  all_goals decide

theorem extensionPattern_inv {name : String} (admitted : extensionPattern name = true) :
    ∃ rest, name.toList = 'x' :: '_' :: rest ∧
      ∀ c ∈ rest, (c.isLower = true ∨ Timestamp.isDigit c = true) ∨ c = '_' := by
  unfold extensionPattern at admitted
  split at admitted
  next rest spelled =>
    refine ⟨rest, spelled, fun c member => ?_⟩
    simp only [allOf1, Bool.and_eq_true, List.all_eq_true, Bool.or_eq_true, decide_eq_true_eq] at admitted
    exact admitted.2 c member
  next => contradiction

theorem extensionPattern_ascii {name : String} (admitted : extensionPattern name = true) : ascii name = true := by
  obtain ⟨rest, spelled, chars⟩ := extensionPattern_inv admitted
  have small : ∀ c ∈ rest, c.toNat < 128 := by
    intro c member
    rcases chars c member with (lower | digit) | rfl
    · exact isLower_ascii lower
    · exact isDigit_ascii digit
    · decide
  simpa [ascii, spelled] using small

theorem extensionPattern_isIndex {name : String} (admitted : extensionPattern name = true) : isIndex name = false := by
  obtain ⟨rest, spelled, -⟩ := extensionPattern_inv admitted
  exact Properties.not_isIndex (c := 'x') (by simp [spelled]) (by decide)

/-- A block whose names are those of the schema and of extensions. -/
theorem reads_block (known : ∀ name, isIndex name = false → ascii name = true → good name) {least : Nat}
    {required : List String} {properties : List (String × Schema)} {extension : Option ((String → Bool) × Schema)}
    (names : (properties.map Prod.fst).all (fun name => !isIndex name && ascii name) = true)
    (each : ∀ property ∈ properties, Reads good property.2 ∨ (property.1 ≠ "labels" ∧ ReadsSettled good property.2))
    (more : ∀ rule ∈ extension, Reads good rule.2 ∧ rule.1 = extensionPattern) :
    ReadsSettled good (objectSchema least required properties extension) := by
  refine reads_object ?_ ?_
  · intro property listed
    have both := List.all_eq_true.mp names property.1 (List.mem_map_of_mem listed)
    simp only [Bool.and_eq_true, Bool.not_eq_true'] at both
    exact ⟨known property.1 both.1 both.2, each property listed⟩
  · intro rule listed
    obtain ⟨reads, same⟩ := more rule listed
    refine ⟨reads, fun name admitted => ?_⟩
    rw [same] at admitted
    exact known name (extensionPattern_isIndex admitted) (extensionPattern_ascii admitted)

section

variable (known : ∀ name, isIndex name = false → ascii name = true → good name)

include known

theorem reads_usage : ReadsSettled good usageSchema := by
  have llm : ReadsSettled good llmUsageSchema := by
    refine reads_block known (by decide +kernel) ?_ ?_
    · simp [integer, amount, reads_number]
    · simp [extensionSchema, extensionNumber, reads_number]
  have tool : ReadsSettled good toolUsageSchema := by
    refine reads_block known (by decide +kernel) ?_ ?_
    · simp [integer, amount, someText, reads_number, reads_string]
    · simp [extensionSchema, extensionNumber, reads_number]
  refine reads_block known (by decide +kernel) ?_ (by simp)
  simp [llm, tool]

theorem reads_cost : ReadsSettled good costSchema := by
  have llm : ReadsSettled good llmCostSchema := by
    refine reads_block known (by decide +kernel) ?_ (by simp)
    simp [amount, reads_number]
  have tool : ReadsSettled good toolCostSchema := by
    refine reads_block known (by decide +kernel) ?_ ?_
    · simp [amount, someText, reads_number, reads_string]
    · simp [amount, reads_number]
  refine reads_block known (by decide +kernel) ?_ (by simp)
  simp [llm, tool, amount, matching, reads_number, reads_string]

theorem reads_resource : ReadsSettled good resourceSchema := by
  refine reads_block known (by decide +kernel) ?_ (by simp)
  simp [matching, someText, anyText, reads_string, reads_enum]

theorem reads_run : ReadsSettled good runSchema := by
  refine reads_block known (by decide +kernel) ?_ (by simp)
  simp [idText, someText, anyText, integer, reads_string, reads_enum, reads_number]

theorem reads_timing : ReadsSettled good timingSchema := by
  refine reads_block known (by decide +kernel) ?_ (by simp)
  simp [timestampSchema, integer, reads_string, reads_number]

theorem reads_emitter : ReadsSettled good emitterSchema := by
  refine reads_block known (by decide +kernel) ?_ (by simp)
  simp [someText, reads_string, reads_enum]

theorem reads_attribution (labels : Reads good labelsSchema) : ReadsSettled good attributionSchema := by
  have fields : ReadsSettled good attributionObject := by
    refine reads_block known (by decide +kernel) ?_ (by simp)
    simp [someText, anyText, reads_string, reads_enum, labels]
  exact fun path value formed flat settled clean =>
    fields path value formed flat settled (List.append_eq_nil_iff.mp clean).2

/-- Every block but the attribution. -/
theorem reads_properties :
    ∀ property ∈ recordProperties, property.1 ≠ "attribution" →
      Reads good property.2 ∨ (property.1 ≠ "labels" ∧ ReadsSettled good property.2) := by
  simp [recordProperties, matching, idText, reads_string, reads_usage known, reads_cost known, reads_resource known,
    reads_run known, reads_timing known, reads_emitter known]

end

/-- An accepted record is made of strings, numbers and plain objects with ASCII names. -/
theorem reads_record : ReadsSettled (fun name => ascii name = true) recordObject := by
  have known : ∀ name, isIndex name = false → ascii name = true → ascii name = true := fun _ _ plain => plain
  refine reads_block known (by decide +kernel) ?_ (by simp)
  intro property listed
  by_cases named : property.1 = "attribution"
  · have attribution : property = ("attribution", attributionSchema) := by
      revert property
      simp [recordProperties]
    subst attribution
    exact .inr ⟨by decide, reads_attribution known (reads_labels fun _ => labelPattern_ascii)⟩
  · exact reads_properties known property listed named

def labelNames (record : Value) : List String :=
  match valueAt record ["attribution", "labels"] with
  | .object _ members => members.map Prod.fst
  | _ => []

/-- A record with labels that hold themselves for values. -/
def labelledRecord (labels : List String) : Value :=
  .object true
    [("spec_version", .string "1.1.0"),
      ("record_id", .string "01ARZ3NDEKTSV4RRFFQ69G5FAV"),
      ("emitter", .object true
        [("component", .string "harness"), ("name", .string "demo"), ("version", .string "1.0.0")]),
      ("timing", .object true [("event_time", .string "2025-01-01T00:00:00.000Z")]),
      ("resource", .object true
        [("provider", .string "openai"), ("type", .string "model"), ("name", .string "gpt"),
          ("operation", .string "generation"), ("modality", .string "text")]),
      ("usage", .object true [("llm", .object true [("requests", .number (.finite 0))])]),
      ("run", .object true [("run_id", .string "run-0001"), ("span_id", .string "s"), ("name", .undefined)]),
      ("attribution", .object true
        [("environment", .string "test"), ("labels", .object true (labels.map fun name => (name, .string name)))])]

theorem labelledRecord_formed {labels : List String} (distinct : labels.Nodup) :
    (labelledRecord labels).WellFormed ∧ (labelledRecord labels).Plain := by
  have text : ∀ text, (Value.string text).WellFormed := .string
  have flat : ∀ text, (Value.string text).Plain := .string
  have names : (labels.map fun name => (name, Value.string name)).map Prod.fst = labels := by
    rw [List.map_map]
    exact List.map_id labels
  have inner : (Value.object true (labels.map fun name => (name, .string name))).WellFormed :=
    .object (names.symm ▸ distinct) (by simp [text])
  have inner' : (Value.object true (labels.map fun name => (name, .string name))).Plain := .object (by simp [flat])
  have counter : (Value.number (.finite 0)).WellFormed := .number Double.representable_zero
  constructor
  · refine .object (by simp) ?_
    simp only [List.forall_mem_cons, List.not_mem_nil, IsEmpty.forall_iff, implies_true, and_true]
    refine ⟨text _, text _, .object (by simp) ?_, .object (by simp) ?_, .object (by simp) ?_, .object (by simp) ?_,
      .object (by simp) ?_, .object (by simp) ?_⟩
    all_goals simp [text, inner, Value.WellFormed.undefined]
    exact .object (by simp) (by simp [counter])
  · refine .object ?_
    simp only [List.forall_mem_cons, List.not_mem_nil, IsEmpty.forall_iff, implies_true, and_true]
    refine ⟨flat _, flat _, .object ?_, .object ?_, .object ?_, .object ?_, .object ?_, .object ?_⟩
    all_goals simp [flat, inner', Value.Plain.undefined]
    exact .object (by simp [Value.Plain.number])

end Audr.JsRecord
