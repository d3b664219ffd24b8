import Audr.JsRecord.Codec

/-! When `validate` finds nothing: no rule of the schema is broken, no format, and no rule that
is stated in prose. -/

namespace Audr.JsRecord

variable {path : List String} {value data : Value} {members : List (String × Value)} {plain : Bool}

@[simp] theorem expect_nil {holds : Bool} {error : SchemaError} : expect holds error = [] ↔ holds = true := by
  cases holds <;> simp [expect]

/-! Each keyword, on the values it admits. -/

theorem stringSchema_nil {least : Nat} {most : Option Nat} {pattern : Option Pattern} :
    stringSchema least most pattern path value = [] ↔
      ∃ text, value = .string text ∧ least ≤ text.toList.length ∧ (∀ limit ∈ most, text.toList.length ≤ limit) ∧
        ∀ admitted ∈ pattern, admitted.test text = true := by
  cases value with
  | string text => cases most <;> cases pattern <;> simp [stringSchema] <;> tauto
  | _ => simp [stringSchema]

theorem numberSchema_nil {types : List String} {whole : Bool} {most : Option ℚ} :
    numberSchema types whole most path value = [] ↔
      ∃ number q, value = .number number ∧ finiteValue number = some q ∧ 0 ≤ q ∧ (whole = true → q.den = 1) ∧
        ∀ limit ∈ most, q ≤ limit := by
  cases value with
  | number number =>
    cases finite : finiteValue number with
    | none => simp [numberSchema, finite]
    | some q =>
      cases most <;> cases whole <;> simp [numberSchema, finite, and_comm]
      tauto
  | _ => simp [numberSchema]

theorem enumSchema_nil {values : List String} :
    enumSchema values path value = [] ↔ ∃ text ∈ values, value = .string text := by
  cases value <;> simp [enumSchema, isOneOf]

theorem missing_nil {names : List String} :
    missing names path members = [] ↔ ∀ name ∈ names, (Value.field name members).isDefined = true := by
  simp [missing]

theorem propertyErrors_nil {properties : List (String × Schema)} :
    propertyErrors properties path members = [] ↔
      ∀ property ∈ properties, (Value.field property.1 members).isDefined = true →
        property.2 (path ++ [property.1]) (Value.field property.1 members) = [] := by
  simp only [propertyErrors, List.flatMap_eq_nil_iff, ite_eq_right_iff]

theorem objectSchema_nil {least : Nat} {required : List String} {properties : List (String × Schema)}
    {extension : Option ((String → Bool) × Schema)} :
    objectSchema least required properties extension path value = [] ↔
      ∃ plain members, value = .object plain members ∧ least ≤ members.length ∧
        (∀ name ∈ required, (Value.field name members).isDefined = true) ∧
        (∀ entry ∈ members, entry.1 ∈ properties.map Prod.fst ∨ ∃ rule ∈ extension, rule.1 entry.1 = true) ∧
        (∀ property ∈ properties, (Value.field property.1 members).isDefined = true →
          property.2 (path ++ [property.1]) (Value.field property.1 members) = []) ∧
        ∀ rule ∈ extension, ∀ entry ∈ members, rule.1 entry.1 = true → rule.2 (path ++ [entry.1]) entry.2 = [] := by
  cases value with
  | object plain members =>
    cases extension <;>
      simp [objectSchema, missing_nil, propertyErrors_nil, List.flatMap_eq_nil_iff, and_assoc]
  | _ => simp [objectSchema]

theorem restrict_nil {forbidden required : List String} {properties : List (String × Schema)} :
    restrict forbidden required properties path (.object plain members) = [] ↔
      (∀ name ∈ forbidden, (Value.field name members).isDefined = false) ∧
        (∀ name ∈ required, (Value.field name members).isDefined = true) ∧
        ∀ property ∈ properties, (Value.field property.1 members).isDefined = true →
          property.2 (path ++ [property.1]) (Value.field property.1 members) = [] := by
  simp [restrict, missing_nil, propertyErrors_nil, List.flatMap_eq_nil_iff]

theorem branch_nil {condition : Value → Bool} {rule : Schema} :
    branch condition rule path value = [] ↔ (condition value = true → rule path value = []) := by
  unfold branch
  by_cases holds : condition value = true <;> by_cases clean : rule path value = [] <;> simp [holds, clean]

theorem labelNameErrors_nil {name : String} :
    labelNameErrors path name = [] ↔ name.toList.length ≤ 64 ∧ labelPattern name = true := by
  simp only [labelNameErrors, List.append_eq_nil_iff, List.map_eq_nil_iff, expect_nil, decide_eq_true_eq, and_self,
    stringSchema_nil]
  simp

theorem labelsSchema_nil :
    labelsSchema path value = [] ↔
      ∃ plain members, value = .object plain members ∧ members.length ≤ 20 ∧
        (∀ entry ∈ members, entry.1.toList.length ≤ 64 ∧ labelPattern entry.1 = true) ∧
        ∀ entry ∈ members, ∃ text, entry.2 = .string text ∧ text.toList.length ≤ 256 := by
  cases value with
  | object plain members =>
    simp [labelsSchema, List.flatMap_eq_nil_iff, labelNameErrors_nil, stringSchema_nil, and_assoc]
  | _ => simp [labelsSchema]

/-! What `schemaIssues` leaves out never hides a broken rule. -/

/-- Errors lie at or beneath the value they are about, and none of them is a failed `if`. -/
structure Direct (schema : Schema) : Prop where
  located : ∀ path value, ∀ error ∈ schema path value, path <+: error.instancePath
  keyword : ∀ path value, ∀ error ∈ schema path value, error.keyword ≠ .ifThen

/-- A failed `if` comes with another error. -/
structure Grounded (schema : Schema) : Prop where
  located : ∀ path value, ∀ error ∈ schema path value, path <+: error.instancePath
  keyword : ∀ path value, schema path value ≠ [] → ∃ error ∈ schema path value, error.keyword ≠ .ifThen

theorem Direct.grounded {schema : Schema} (direct : Direct schema) : Grounded schema where
  located := direct.located
  keyword path value broken := by
    obtain ⟨error, member⟩ := List.exists_mem_of_ne_nil _ broken
    exact ⟨error, member, direct.keyword path value error member⟩

theorem mem_expect {holds : Bool} {error found : SchemaError} (member : found ∈ expect holds error) : found = error := by
  cases holds <;> simp_all [expect]

/-- Errors of a schema for one kind of value lie at the value. -/
theorem mem_stringSchema {least : Nat} {most : Option Nat} {pattern : Option Pattern} {error : SchemaError}
    (member : error ∈ stringSchema least most pattern path value) :
    error.instancePath = path ∧ error.keyword ≠ .ifThen := by
  unfold stringSchema at member
  split at member
  · rcases List.mem_append.mp member with member | member
    · rcases List.mem_append.mp member with member | member <;> rw [mem_expect member] <;> simp [failure]
    · split at member
      · rw [mem_expect member]
        simp [failure]
      · contradiction
  · rw [List.mem_singleton.mp member]
    simp [failure]

theorem mem_numberSchema {types : List String} {whole : Bool} {most : Option ℚ} {error : SchemaError}
    (member : error ∈ numberSchema types whole most path value) :
    error.instancePath = path ∧ error.keyword ≠ .ifThen := by
  unfold numberSchema at member
  split at member
  · split at member
    · rcases List.mem_append.mp member with member | member
      · rcases List.mem_append.mp member with member | member <;> rw [mem_expect member] <;> simp [failure]
      · rw [mem_expect member]
        simp [failure]
    · rw [List.mem_singleton.mp member]
      simp [failure]
  · rw [List.mem_singleton.mp member]
    simp [failure]

theorem direct_string (least : Nat) (most : Option Nat) (pattern : Option Pattern) :
    Direct (stringSchema least most pattern) :=
  ⟨fun path _ _ member => (mem_stringSchema member).1 ▸ List.prefix_refl path,
    fun _ _ _ member => (mem_stringSchema member).2⟩

theorem direct_number (types : List String) (whole : Bool) (most : Option ℚ) :
    Direct (numberSchema types whole most) :=
  ⟨fun path _ _ member => (mem_numberSchema member).1 ▸ List.prefix_refl path,
    fun _ _ _ member => (mem_numberSchema member).2⟩

theorem direct_enum (values : List String) : Direct (enumSchema values) := by
  constructor <;> intro path value error member <;> rw [mem_expect member] <;> simp [failure]

theorem direct_const (expected : String) : Direct (constSchema expected) := by
  constructor <;> intro path value error member <;> rw [mem_expect member] <;> simp [failure]

/-- An error of a property is one of its own schema. -/
theorem mem_propertyErrors {properties : List (String × Schema)} {error : SchemaError}
    (member : error ∈ propertyErrors properties path members) :
    ∃ property ∈ properties, (Value.field property.1 members).isDefined = true ∧
      error ∈ property.2 (path ++ [property.1]) (Value.field property.1 members) := by
  obtain ⟨property, listed, found⟩ := List.mem_flatMap.mp member
  dsimp only at found
  split at found
  next defined => exact ⟨property, listed, defined, found⟩
  next => contradiction

theorem mem_missing {names : List String} {error : SchemaError} (member : error ∈ missing names path members) :
    ∃ name ∈ names, error = failure path (.required name) := by
  obtain ⟨name, listed, found⟩ := List.mem_flatMap.mp member
  exact ⟨name, listed, mem_expect found⟩

theorem mem_propertyErrors_of {properties : List (String × Schema)} {property : String × Schema}
    {error : SchemaError} (listed : property ∈ properties)
    (defined : (Value.field property.1 members).isDefined = true)
    (member : error ∈ property.2 (path ++ [property.1]) (Value.field property.1 members)) :
    error ∈ propertyErrors properties path members := by
  refine List.mem_flatMap.mpr ⟨property, listed, ?_⟩
  dsimp only
  rwa [if_pos defined]

/-- What an error of a closed object is about. -/
theorem mem_objectSchema {least : Nat} {required : List String} {properties : List (String × Schema)}
    {extension : Option ((String → Bool) × Schema)} {error : SchemaError}
    (member : error ∈ objectSchema least required properties extension path value) :
    error = failure path (.type ["object"]) ∨ error = failure path .minProperties ∨
      (∃ name ∈ required, error = failure path (.required name)) ∨
      (∃ name, name ∉ properties.map Prod.fst ∧ error = failure path (.additionalProperties name)) ∨
      ∃ plain members, value = .object plain members ∧
        (error ∈ propertyErrors properties path members ∨
          ∃ rule ∈ extension, ∃ entry ∈ members, rule.1 entry.1 = true ∧ error ∈ rule.2 (path ++ [entry.1]) entry.2) := by
  unfold objectSchema at member
  split at member
  next plain members =>
    rcases List.mem_append.mp member with member | extended
    · rcases List.mem_append.mp member with member | inside
      · rcases List.mem_append.mp member with member | extra
        · rcases List.mem_append.mp member with few | absent
          · exact .inr (.inl (mem_expect few))
          · exact .inr (.inr (.inl (mem_missing absent)))
        · obtain ⟨entry, -, found⟩ := List.mem_flatMap.mp extra
          by_cases known : entry.1 ∈ properties.map Prod.fst
          · simp [expect, known] at found
          · exact .inr (.inr (.inr (.inl ⟨entry.1, known, mem_expect found⟩)))
      · exact .inr (.inr (.inr (.inr ⟨plain, members, rfl, .inl inside⟩)))
    · split at extended
      next rule =>
        obtain ⟨entry, listed, found⟩ := List.mem_flatMap.mp extended
        split at found
        next admitted =>
          exact .inr (.inr (.inr (.inr ⟨plain, members, rfl, .inr ⟨rule, rfl, entry, listed, admitted, found⟩⟩)))
        next => contradiction
      next => contradiction
  next => exact .inl (List.mem_singleton.mp member)

theorem located_object {least : Nat} {required : List String} {properties : List (String × Schema)}
    {extension : Option ((String → Bool) × Schema)}
    (each : ∀ property ∈ properties, ∀ path value, ∀ error ∈ property.2 path value, path <+: error.instancePath)
    (more : ∀ rule ∈ extension, ∀ path value, ∀ error ∈ rule.2 path value, path <+: error.instancePath) :
    ∀ error ∈ objectSchema least required properties extension path value, path <+: error.instancePath := by
  intro error member
  obtain rfl | rfl | ⟨name, -, rfl⟩ | ⟨name, -, rfl⟩ | ⟨plain, members, -, inside | extended⟩ := mem_objectSchema member
  · exact List.prefix_refl _
  · exact List.prefix_refl _
  · exact List.prefix_refl _
  · exact List.prefix_refl _
  · obtain ⟨property, listed, -, found⟩ := mem_propertyErrors inside
    exact (List.prefix_append _ _).trans (each property listed _ _ error found)
  · obtain ⟨rule, listed, entry, -, -, found⟩ := extended
    exact (List.prefix_append _ _).trans (more rule listed _ _ error found)

theorem direct_object {least : Nat} {required : List String} {properties : List (String × Schema)}
    {extension : Option ((String → Bool) × Schema)} (each : ∀ property ∈ properties, Direct property.2)
    (more : ∀ rule ∈ extension, Direct rule.2) : Direct (objectSchema least required properties extension) where
  located path value :=
    located_object (fun property listed => (each property listed).located) fun rule listed => (more rule listed).located
  keyword path value error member := by
    obtain rfl | rfl | ⟨name, -, rfl⟩ | ⟨name, -, rfl⟩ | ⟨plain, members, -, inside | extended⟩ :=
      mem_objectSchema member
    · simp [failure]
    · simp [failure]
    · simp [failure]
    · simp [failure]
    · obtain ⟨property, listed, -, found⟩ := mem_propertyErrors inside
      exact (each property listed).keyword _ _ error found
    · obtain ⟨rule, listed, entry, -, -, found⟩ := extended
      exact (more rule listed).keyword _ _ error found

theorem grounded_object {least : Nat} {required : List String} {properties : List (String × Schema)}
    (each : ∀ property ∈ properties, Grounded property.2) :
    Grounded (objectSchema least required properties none) where
  located path value := located_object (fun property listed => (each property listed).located) (by simp)
  keyword path value broken := by
    obtain ⟨error, member⟩ := List.exists_mem_of_ne_nil _ broken
    rcases mem_objectSchema member with rfl | rfl | ⟨name, -, rfl⟩ | ⟨name, -, rfl⟩ | ⟨plain, members, rfl, inside⟩
    · exact ⟨_, member, by simp [failure]⟩
    · exact ⟨_, member, by simp [failure]⟩
    · exact ⟨_, member, by simp [failure]⟩
    · exact ⟨_, member, by simp [failure]⟩
    · have inside := inside.resolve_right (by simp)
      obtain ⟨property, listed, defined, found⟩ := mem_propertyErrors inside
      obtain ⟨cause, found, keyword⟩ := (each property listed).keyword _ _ (List.ne_nil_of_mem found)
      refine ⟨cause, ?_, keyword⟩
      have inside := mem_propertyErrors_of listed defined found
      simp [objectSchema, inside]

theorem mem_restrict {forbidden required : List String} {properties : List (String × Schema)} {error : SchemaError}
    (member : error ∈ restrict forbidden required properties path value) :
    (∃ name ∈ forbidden, error = failure path (.not name)) ∨ (∃ name ∈ required, error = failure path (.required name)) ∨
      ∃ property ∈ properties, ∃ part, error ∈ property.2 (path ++ [property.1]) part := by
  unfold restrict at member
  split at member
  · rcases List.mem_append.mp member with member | inside
    · rcases List.mem_append.mp member with banned | absent
      · obtain ⟨name, listed, found⟩ := List.mem_flatMap.mp banned
        exact .inl ⟨name, listed, mem_expect found⟩
      · obtain ⟨name, listed, rfl⟩ := mem_missing absent
        exact .inr (.inl ⟨name, listed, rfl⟩)
    · obtain ⟨property, listed, -, found⟩ := mem_propertyErrors inside
      exact .inr (.inr ⟨property, listed, _, found⟩)
  · obtain ⟨name, listed, rfl⟩ := List.mem_map.mp member
    exact .inl ⟨name, listed, rfl⟩

theorem direct_restrict {forbidden required : List String} {properties : List (String × Schema)}
    (each : ∀ property ∈ properties, Direct property.2) : Direct (restrict forbidden required properties) where
  located path value error member := by
    obtain ⟨name, -, rfl⟩ | ⟨name, -, rfl⟩ | ⟨property, listed, part, found⟩ := mem_restrict member
    · exact List.prefix_refl _
    · exact List.prefix_refl _
    · exact (List.prefix_append _ _).trans ((each property listed).located _ _ error found)
  keyword path value error member := by
    obtain ⟨name, -, rfl⟩ | ⟨name, -, rfl⟩ | ⟨property, listed, part, found⟩ := mem_restrict member
    · simp [failure]
    · simp [failure]
    · exact (each property listed).keyword _ _ error found

theorem mem_branch {condition : Value → Bool} {rule : Schema} {error : SchemaError}
    (member : error ∈ branch condition rule path value) :
    (∃ cause ∈ rule path value, error = { cause with branch := true }) ∨
      error = { failure path .ifThen with branch := true } := by
  obtain ⟨cause, found, rfl⟩ := List.mem_map.mp member
  rcases List.mem_append.mp found with broken | failed
  · split at broken
    · exact .inl ⟨cause, broken, rfl⟩
    · contradiction
  · by_cases clean : (if condition value then rule path value else []) = []
    · rw [if_pos clean] at failed
      contradiction
    · rw [if_neg clean] at failed
      exact .inr (by rw [List.mem_singleton.mp failed])

theorem grounded_branch {condition : Value → Bool} {rule : Schema} (direct : Direct rule) :
    Grounded (branch condition rule) where
  located path value error member := by
    obtain ⟨cause, found, rfl⟩ | rfl := mem_branch member
    · exact direct.located path value cause found
    · exact List.prefix_refl _
  keyword path value broken := by
    have applies : condition value = true ∧ rule path value ≠ [] := by
      simpa [branch_nil, Classical.not_imp] using broken
    obtain ⟨cause, found⟩ := List.exists_mem_of_ne_nil _ applies.2
    refine ⟨{ cause with branch := true }, ?_, direct.keyword path value cause found⟩
    refine List.mem_map.mpr ⟨cause, ?_, rfl⟩
    simp [applies.1, found]

/-! The blocks of a record. -/

theorem direct_integer : Direct integer := direct_number _ _ _
theorem direct_amount : Direct amount := direct_number _ _ _
theorem direct_someText : Direct someText := direct_string _ _ _
theorem direct_anyText : Direct anyText := direct_string _ _ _

theorem direct_emitter : Direct emitterSchema := by
  refine direct_object ?_ (by simp)
  simp [direct_enum, direct_someText]

theorem direct_timing : Direct timingSchema := by
  refine direct_object ?_ (by simp)
  simp [timestampSchema, direct_string, direct_integer]

theorem direct_resource : Direct resourceSchema := by
  refine direct_object ?_ (by simp)
  simp [matching, direct_string, direct_enum, direct_someText, direct_anyText]

theorem direct_run : Direct runSchema := by
  refine direct_object ?_ (by simp)
  simp [idText, direct_string, direct_enum, direct_someText, direct_anyText, direct_integer]

theorem direct_labels : Direct labelsSchema := by
  have each : ∀ path value, ∀ error ∈ labelsSchema path value, path <+: error.instancePath ∧ error.keyword ≠ .ifThen := by
    intro path value error member
    unfold labelsSchema at member
    split at member
    · rcases List.mem_append.mp member with member | values
      · rcases List.mem_append.mp member with many | names
        · rw [mem_expect many]
          simp [failure]
        · obtain ⟨entry, -, found⟩ := List.mem_flatMap.mp names
          rcases List.mem_append.mp found with inside | whole
          · obtain ⟨cause, inner, rfl⟩ := List.mem_map.mp inside
            exact ⟨(direct_string _ _ _).located _ _ cause inner, (direct_string _ _ _).keyword _ _ cause inner⟩
          · rw [mem_expect whole]
            simp [failure]
      · obtain ⟨entry, -, found⟩ := List.mem_flatMap.mp values
        exact ⟨(List.prefix_append _ _).trans ((direct_string _ _ _).located _ _ error found),
          (direct_string _ _ _).keyword _ _ error found⟩
    · rw [List.mem_singleton.mp member]
      simp [failure]
  exact ⟨fun path value error member => (each path value error member).1,
    fun path value error member => (each path value error member).2⟩

theorem direct_attributionObject : Direct attributionObject := by
  refine direct_object ?_ (by simp)
  simp [direct_enum, direct_someText, direct_anyText, direct_labels]

/-- Two schemas side by side. -/
theorem Grounded.both {first second : Schema} (left : Grounded first) (right : Grounded second) :
    Grounded fun path value => first path value ++ second path value where
  located path value error member := by
    rcases List.mem_append.mp member with member | member
    · exact left.located path value error member
    · exact right.located path value error member
  keyword path value broken := by
    by_cases clean : first path value = []
    · obtain ⟨cause, found, keyword⟩ := right.keyword path value (by simpa [clean] using broken)
      exact ⟨cause, List.mem_append_right _ found, keyword⟩
    · obtain ⟨cause, found, keyword⟩ := left.keyword path value clean
      exact ⟨cause, List.mem_append_left _ found, keyword⟩

theorem grounded_attribution : Grounded attributionSchema :=
  (grounded_branch (direct_restrict (by simp))).both direct_attributionObject.grounded

theorem direct_extensions : ∀ rule ∈ extensionSchema, Direct rule.2 := by
  simp [extensionSchema, extensionNumber, direct_number]

theorem direct_usage : Direct usageSchema := by
  have llm : Direct llmUsageSchema := by
    refine direct_object ?_ direct_extensions
    simp [direct_integer, direct_amount]
  have tool : Direct toolUsageSchema := by
    refine direct_object ?_ direct_extensions
    simp [direct_integer, direct_amount, direct_someText]
  refine direct_object ?_ (by simp)
  simp [llm, tool]

theorem direct_cost : Direct costSchema := by
  have llm : Direct llmCostSchema := by
    refine direct_object ?_ (by simp)
    simp [direct_amount]
  have tool : Direct toolCostSchema := by
    refine direct_object ?_ (by simp [direct_amount])
    simp [direct_amount, direct_someText]
  refine direct_object ?_ (by simp)
  simp [llm, tool, matching, direct_string, direct_amount, direct_number]

theorem grounded_properties : ∀ property ∈ recordProperties, Grounded property.2 := by
  simp [recordProperties, matching, idText, (direct_string _ _ _).grounded, direct_emitter.grounded,
    direct_timing.grounded, direct_resource.grounded, direct_run.grounded, grounded_attribution,
    direct_usage.grounded, direct_cost.grounded]

theorem direct_modelRule : Direct modelRule := by
  refine direct_restrict ?_
  simp [direct_restrict, direct_const]

theorem direct_toolRule : Direct toolRule := by
  refine direct_restrict ?_
  simp [direct_restrict, direct_const]

/-- Where a rule is broken, an error other than a failed `if` says so. -/
theorem grounded_record : Grounded fun path value => modelBranch path value ++ toolBranch path value ++ recordObject path value :=
  ((grounded_branch direct_modelRule).both (grounded_branch direct_toolRule)).both
    (grounded_object grounded_properties)

theorem instancePath_leads (error : SchemaError) : error.instancePath <+: issuePath error := by
  unfold issuePath
  split
  · exact List.prefix_refl _
  · exact List.prefix_append _ _

/-- An error about one block is not reported in another. -/
theorem block_of_leading {block : String} {error : SchemaError} (inside : [block] <+: error.instancePath)
    (owned : issuePath error = sinkOwned) : block = "timing" := by
  have inside := inside.trans (instancePath_leads error)
  rw [owned, sinkOwned, List.cons_prefix_cons] at inside
  exact inside.1

theorem timing_owned {error : SchemaError} (member : error ∈ timingSchema ["timing"] value)
    (owned : issuePath error = sinkOwned) :
    ∃ plain timing, value = .object plain timing ∧ (Value.field "received_time" timing).isDefined = true := by
  rcases mem_objectSchema member with rfl | rfl | ⟨name, listed, rfl⟩ | ⟨name, extra, rfl⟩ | ⟨plain, timing, rfl, inside⟩
  · simp [issuePath, failure, fieldCode, propertyOf, sinkOwned] at owned
  · simp [issuePath, failure, fieldCode, propertyOf, sinkOwned] at owned
  · have named : name = "event_time" := by simpa using listed
    simp [issuePath, failure, fieldCode, propertyOf, sinkOwned, named] at owned
  · have named : name = "received_time" := by
      simpa [issuePath, failure, fieldCode, propertyOf, sinkOwned] using owned
    simp [named] at extra
  · refine ⟨plain, timing, rfl, ?_⟩
    obtain ⟨property, listed, defined, found⟩ := mem_propertyErrors (inside.resolve_right (by simp))
    have direct : Direct property.2 := by
      revert property
      simp [timestampSchema, direct_string, direct_integer]
    have inside := (direct.located _ _ error found).trans (instancePath_leads error)
    rw [owned, sinkOwned, List.singleton_append, List.cons_prefix_cons, List.cons_prefix_cons] at inside
    rwa [inside.2.1] at defined

/-- An error at the property only a sink may set is reported as a forbidden one. -/
theorem formatIssues_of_owned {error : SchemaError} (member : error ∈ schemaErrors data)
    (owned : issuePath error = sinkOwned) : formatIssues data ≠ [] := by
  have branches : ∀ {condition rule}, (∀ cause ∈ rule [] data, ∃ block ≠ "timing", [block] <+: cause.instancePath) →
      error ∉ branch condition rule [] data := by
    intro condition rule blocks member
    obtain ⟨cause, found, rfl⟩ | rfl := mem_branch member
    · obtain ⟨block, other, inside⟩ := blocks cause found
      exact other (@block_of_leading _ { cause with branch := true } inside owned)
    · simp [issuePath, failure, fieldCode, propertyOf, sinkOwned] at owned
  have rules : ∀ {properties : List (String × Schema)},
      (∀ property ∈ properties, Direct property.2 ∧ property.1 ≠ "timing") →
      ∀ cause ∈ restrict [] [] properties [] data, ∃ block ≠ "timing", [block] <+: cause.instancePath := by
    intro properties each cause found
    obtain ⟨name, listed, rfl⟩ | ⟨name, listed, rfl⟩ | ⟨property, listed, part, found⟩ := mem_restrict found
    · contradiction
    · contradiction
    · exact ⟨property.1, (each property listed).2, (each property listed).1.located _ _ cause found⟩
  rcases List.mem_append.mp member with member | member
  · rcases List.mem_append.mp member with member | member
    · exact absurd member (branches (rules (by simp [direct_restrict, direct_const])))
    · exact absurd member (branches (rules (by simp [direct_restrict, direct_const])))
  · rcases mem_objectSchema member with rfl | rfl | ⟨name, -, rfl⟩ | ⟨name, -, rfl⟩ | ⟨plain, members, rfl, inside⟩
    · simp [issuePath, failure, fieldCode, propertyOf, sinkOwned] at owned
    · simp [issuePath, failure, fieldCode, propertyOf, sinkOwned] at owned
    · simp [issuePath, failure, fieldCode, propertyOf, sinkOwned] at owned
    · simp [issuePath, failure, fieldCode, propertyOf, sinkOwned] at owned
    · obtain ⟨property, listed, defined, found⟩ := mem_propertyErrors (inside.resolve_right (by simp))
      have named := block_of_leading ((grounded_properties property listed).located _ _ error found) owned
      have timing : property = ("timing", timingSchema) := by
        revert property
        simp [recordProperties]
      subst timing
      obtain ⟨plain, timing, held, received⟩ := timing_owned found owned
      dsimp only at held
      simp [formatIssues, held, timingIssues, received]

theorem eraseDups_nil_iff {A : Type} [DecidableEq A] {items : List A} : items.eraseDups = [] ↔ items = [] := by
  cases items with
  | nil => simp
  | cons item rest => simp [List.eraseDups_cons]

/-- Where the schema is broken and no format is, some error is reported. -/
theorem reported_of_broken (broken : schemaErrors data ≠ []) (formats : formatIssues data = []) :
    ∃ error ∈ schemaErrors data, reported (schemaErrors data) error = true := by
  have free : ∀ error ∈ schemaErrors data, issuePath error ≠ sinkOwned :=
    fun error member owned => formatIssues_of_owned member owned formats
  by_cases typed : ∃ error ∈ schemaErrors data, error.keyword.isType = true
  · obtain ⟨error, member, wrong⟩ := typed
    refine ⟨error, member, ?_⟩
    have keyword : error.keyword ≠ .ifThen := by
      intro failed
      simp [failed, Keyword.isType] at wrong
    simp [reported, keyword, wrong, free error member]
  · -- Without a value of a wrong type, nothing is held back but failed `if`s.
    have none : mistyped (schemaErrors data) = [] := by
      rw [mistyped, List.map_eq_nil_iff, List.filter_eq_nil_iff]
      exact fun error member wrong => typed ⟨error, member, wrong⟩
    obtain ⟨error, member, keyword⟩ := grounded_record.keyword [] data broken
    refine ⟨error, member, ?_⟩
    simp [reported, keyword, none, free error member]

/-- `validate` finds nothing exactly where no rule is broken. -/
theorem inspect_nil {now : Int} :
    inspect now data = [] ↔ schemaErrors data = [] ∧ formatIssues data = [] ∧ proseIssues now data = [] := by
  constructor
  · intro clean
    unfold inspect at clean
    dsimp only at clean
    split at clean
    next structural => exact absurd (eraseDups_nil_iff.mp clean) structural
    next structural =>
      have structural := List.append_eq_nil_iff.mp (not_not.mp structural)
      have rest := List.append_eq_nil_iff.mp (eraseDups_nil_iff.mp clean)
      refine ⟨?_, structural.1, rest.2⟩
      by_contra broken
      obtain ⟨error, member, found⟩ := reported_of_broken broken structural.1
      cases side : error.branch with
      | false =>
        have listed : error ∈ structuralErrors data := List.mem_filter.mpr ⟨member, by simp [found, side]⟩
        rw [List.map_eq_nil_iff.mp structural.2] at listed
        contradiction
      | true =>
        have listed : error ∈ conditionalErrors data := List.mem_filter.mpr ⟨member, by simp [found, side]⟩
        rw [List.map_eq_nil_iff.mp rest.1] at listed
        contradiction
  · rintro ⟨schema, formats, prose⟩
    simp [inspect, structuralErrors, conditionalErrors, schema, formats, prose]

end Audr.JsRecord
