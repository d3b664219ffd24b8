import Audr.JsRecord.Renaming
import Audr.Lib.Dedupe

/-! The paths of the issues say nothing of the names beneath `labels`: in the validator, where
only the labels of a record are looked into. -/

namespace Audr.JsRecord

open Properties

variable {place : Place} {path : List String} {x y value : Value} {members : List (String × (Value × Value))}
  {p q : Bool} {error : SchemaError}

/-! Members of values no schema tells apart. -/

theorem field_mapValues (side : Value × Value → Value) (name : String) :
    Value.field name (mapValues side members) =
      ((members.find? fun member => member.1 = name).map fun member => side member.2).getD .undefined := by
  rw [Value.field, mapValues, List.find?_map, Option.map_map]
  rfl

/-- A member and what stands in its place, or nothing on both sides. -/
theorem field_cases (name : String) :
    (Value.field name (mapValues Prod.fst members) = .undefined ∧ Value.field name (mapValues Prod.snd members) = .undefined) ∨
      ∃ member ∈ members, member.1 = name ∧ Value.field name (mapValues Prod.fst members) = member.2.1 ∧
        Value.field name (mapValues Prod.snd members) = member.2.2 := by
  rw [field_mapValues, field_mapValues]
  cases found : members.find? fun member => member.1 = name with
  | none => exact .inl ⟨rfl, rfl⟩
  | some member =>
    have named : member.1 = name := by simpa using List.find?_some found
    exact .inr ⟨member, List.mem_of_find?_eq_some found, named, rfl, rfl⟩

theorem field_isDefined (defined : ∀ member ∈ members, member.2.1.isDefined = member.2.2.isDefined) (name : String) :
    (Value.field name (mapValues Prod.fst members)).isDefined = (Value.field name (mapValues Prod.snd members)).isDefined := by
  obtain ⟨left, right⟩ | ⟨member, listed, -, left, right⟩ := @field_cases members name
  · rw [left, right]
  · rw [left, right]
    exact defined member listed

theorem field_veiled
    (each : ∀ member ∈ members, member.1 ≠ "labels" → Veiled (place.enter member.1) member.2.1 member.2.2) {name : String}
    (ordinary : name ≠ "labels") :
    Veiled (place.enter name) (Value.field name (mapValues Prod.fst members))
      (Value.field name (mapValues Prod.snd members)) := by
  obtain ⟨left, right⟩ | ⟨member, listed, rfl, left, right⟩ := @field_cases members name
  · rw [left, right]
    exact .refl _ _
  · rw [left, right]
    exact each member listed ordinary

/-- What a path leads to, as long as it stays clear of `labels`. -/
theorem valueAt_veiled (names : List String) (clear : "labels" ∉ names) :
    ∀ {place : Place} {x y : Value}, Veiled place x y → ∃ there, Veiled there (valueAt x names) (valueAt y names) := by
  induction names with
  | nil => exact fun veiled => ⟨_, veiled⟩
  | cons name rest ih =>
    rw [List.mem_cons, not_or] at clear
    intro place x y veiled
    cases veiled with
    | refl => exact ⟨place, .refl place _⟩
    | array => exact ⟨place, .refl place _⟩
    | object _ p q members each => exact ih clear.2 (field_veiled each (Ne.symm clear.1))

/-! Schemas that look at nothing beneath `labels`. -/

/-- A schema that tells no renamed values apart, and reports nothing beneath `labels`. -/
structure Blind (schema : Schema) : Prop where
  same : ∀ place path x y, Veiled place x y → schema path x = schema path y
  clear : ∀ path value, ∀ error ∈ schema path value, "labels" ∈ error.instancePath → "labels" ∈ path

theorem blind_string (least : Nat) (most : Option Nat) (pattern : Option Pattern) :
    Blind (stringSchema least most pattern) where
  same place path x y veiled := by cases veiled <;> rfl
  clear path value error member := by
    rw [(mem_stringSchema member).1]
    exact id

theorem blind_number (types : List String) (whole : Bool) (most : Option ℚ) : Blind (numberSchema types whole most) where
  same place path x y veiled := by cases veiled <;> rfl
  clear path value error member := by
    rw [(mem_numberSchema member).1]
    exact id

theorem isOneOf_veiled (values : List String) (veiled : Veiled place x y) : isOneOf values x = isOneOf values y := by
  cases veiled <;> rfl

theorem blind_enum (values : List String) : Blind (enumSchema values) where
  same place path x y veiled := by rw [enumSchema, enumSchema, isOneOf_veiled values veiled]
  clear path value error member := by
    rw [mem_expect member]
    exact id

theorem blind_const (expected : String) : Blind (constSchema expected) where
  same place path x y veiled := by rw [constSchema, constSchema, isOneOf_veiled _ veiled]
  clear path value error member := by
    rw [mem_expect member]
    exact id

/-- A schema that reports nothing. -/
def silent : Schema := fun _ _ => []

/-- Properties of other names, and `labels` where nothing is said of it. -/
def Discreet (properties : List (String × Schema)) : Prop :=
  ∀ property ∈ properties, (property.1 ≠ "labels" ∧ Blind property.2) ∨ property.2 = silent

theorem discreet_cons {name : String} {schema : Schema} {rest : List (String × Schema)} :
    Discreet ((name, schema) :: rest) ↔ ((name ≠ "labels" ∧ Blind schema) ∨ schema = silent) ∧ Discreet rest :=
  List.forall_mem_cons

theorem discreet_nil : Discreet [] := List.forall_mem_nil _

variable {properties : List (String × Schema)} {least : Nat} {required : List String}

theorem blind_properties (discreet : Discreet properties)
    (each : ∀ member ∈ members, member.1 ≠ "labels" → Veiled (place.enter member.1) member.2.1 member.2.2)
    (defined : ∀ member ∈ members, member.2.1.isDefined = member.2.2.isDefined) :
    propertyErrors properties path (mapValues Prod.fst members) =
      propertyErrors properties path (mapValues Prod.snd members) := by
  apply List.flatMap_congr
  intro property listed
  dsimp only
  rw [field_isDefined defined]
  rcases discreet property listed with ⟨ordinary, blind⟩ | quiet
  · rw [blind.same _ _ _ _ (field_veiled each ordinary)]
  · rw [quiet]
    rfl

theorem clear_properties {entries : List (String × Value)} (discreet : Discreet properties)
    (member : error ∈ propertyErrors properties path entries) (inside : "labels" ∈ error.instancePath) :
    "labels" ∈ path := by
  obtain ⟨property, listed, -, found⟩ := mem_propertyErrors member
  rcases discreet property listed with ⟨ordinary, blind⟩ | quiet
  · have passed := blind.clear _ _ error found inside
    rw [List.mem_append, List.mem_singleton] at passed
    exact passed.resolve_right (Ne.symm ordinary)
  · rw [quiet] at found
    contradiction

theorem blind_missing {names : List String} (defined : ∀ member ∈ members, member.2.1.isDefined = member.2.2.isDefined) :
    missing names path (mapValues Prod.fst members) = missing names path (mapValues Prod.snd members) := by
  apply List.flatMap_congr
  intro name _
  rw [field_isDefined defined]

/-- Each member by its name, on both sides. -/
theorem flatMap_names {A : Type} (side : Value × Value → Value) (f : String → List A) :
    ((mapValues side members).flatMap fun entry => f entry.1) = members.flatMap fun member => f member.1 := by
  rw [mapValues, List.flatMap_map]

theorem blind_object {extension : Option ((String → Bool) × Schema)} (discreet : Discreet properties)
    (more : ∀ rule ∈ extension, (∀ name, rule.1 name = true → name ≠ "labels") ∧ Blind rule.2) :
    Blind (objectSchema least required properties extension) where
  same place path x y veiled := by
    cases veiled with
    | refl => rfl
    | array => rfl
    | object _ p q members each defined labels =>
      have sizes : (mapValues Prod.fst members).length = (mapValues Prod.snd members).length := by simp [mapValues]
      have names (f : String → List SchemaError) := (flatMap_names Prod.fst f).trans (@flatMap_names members _ Prod.snd f).symm
      have extended : ∀ rule ∈ extension,
          ((mapValues Prod.fst members).flatMap fun entry =>
            if rule.1 entry.1 then rule.2 (path ++ [entry.1]) entry.2 else []) =
          (mapValues Prod.snd members).flatMap fun entry =>
            if rule.1 entry.1 then rule.2 (path ++ [entry.1]) entry.2 else [] := by
        intro rule listed
        rw [mapValues, mapValues, List.flatMap_map, List.flatMap_map]
        apply List.flatMap_congr
        intro member held
        by_cases admitted : rule.1 member.1 = true
        · have ordinary := (more rule listed).1 member.1 admitted
          rw [if_pos admitted, if_pos admitted]
          exact (more rule listed).2.same _ _ _ _ (each member held ordinary)
        · rw [if_neg admitted, if_neg admitted]
      unfold objectSchema
      dsimp only
      rw [sizes, blind_missing defined, blind_properties discreet each defined,
        names fun name => expect (name ∈ properties.map Prod.fst || extension.any fun extension => extension.1 name)
          (failure path (.additionalProperties name))]
      congr 1
      cases extension with
      | none => rfl
      | some rule => exact extended rule rfl
  clear path value error member inside := by
    obtain rfl | rfl | ⟨name, -, rfl⟩ | ⟨name, -, rfl⟩ | ⟨plain, members, -, found | extended⟩ := mem_objectSchema member
    · exact inside
    · exact inside
    · exact inside
    · exact inside
    · exact clear_properties discreet found inside
    · obtain ⟨rule, listed, entry, -, admitted, found⟩ := extended
      have passed := (more rule listed).2.clear _ _ error found inside
      rw [List.mem_append, List.mem_singleton] at passed
      exact passed.resolve_right (Ne.symm ((more rule listed).1 _ admitted))

theorem blind_restrict {forbidden : List String} (discreet : Discreet properties) :
    Blind (restrict forbidden required properties) where
  same place path x y veiled := by
    cases veiled with
    | refl => rfl
    | array => rfl
    | object _ p q members each defined labels =>
      have banned : (forbidden.flatMap fun name =>
          expect (!(Value.field name (mapValues Prod.fst members)).isDefined) (failure path (.not name))) =
          forbidden.flatMap fun name =>
            expect (!(Value.field name (mapValues Prod.snd members)).isDefined) (failure path (.not name)) := by
        apply List.flatMap_congr
        intro name _
        rw [field_isDefined defined]
      unfold restrict
      dsimp only
      rw [banned, blind_missing defined, blind_properties discreet each defined]
  clear path value error member inside := by
    unfold restrict at member
    split at member
    · rcases List.mem_append.mp member with member | found
      · rcases List.mem_append.mp member with banned | absent
        · obtain ⟨name, -, found⟩ := List.mem_flatMap.mp banned
          rw [mem_expect found] at inside
          exact inside
        · obtain ⟨name, -, rfl⟩ := mem_missing absent
          exact inside
      · exact clear_properties discreet found inside
    · obtain ⟨name, -, rfl⟩ := List.mem_map.mp member
      exact inside

theorem blind_branch {condition : Value → Bool} {rule : Schema} (blind : Blind rule)
    (same : ∀ place x y, Veiled place x y → condition x = condition y) : Blind (branch condition rule) where
  same place path x y veiled := by rw [branch, branch, same place x y veiled, blind.same place path x y veiled]
  clear path value error member inside := by
    obtain ⟨cause, found, rfl⟩ | rfl := mem_branch member
    · exact blind.clear path value cause found inside
    · exact inside

theorem Blind.both {first second : Schema} (left : Blind first) (right : Blind second) :
    Blind fun path value => first path value ++ second path value where
  same place path x y veiled := by rw [left.same place path x y veiled, right.same place path x y veiled]
  clear path value error member := by
    rcases List.mem_append.mp member with found | found
    · exact left.clear path value error found
    · exact right.clear path value error found

/-- Properties alone, of an object. -/
def propertiesOf (properties : List (String × Schema)) : Schema := fun path value =>
  match value with
  | .object _ members => propertyErrors properties path members
  | _ => []

theorem propertiesOf_object {entries : List (String × Value)} :
    propertiesOf properties path (.object p entries) = propertyErrors properties path entries := rfl

theorem blind_propertiesOf (discreet : Discreet properties) : Blind (propertiesOf properties) where
  same place path x y veiled := by
    cases veiled with
    | refl => rfl
    | array => rfl
    | object _ p q members each defined labels => exact blind_properties discreet each defined
  clear path value error member inside := by
    unfold propertiesOf at member
    split at member
    · exact clear_properties discreet member inside
    · contradiction

/-! The record schema: all of it but the labels is blind. -/

/-- The names of properties, with nothing said of their values. -/
def silence (properties : List (String × Schema)) : List (String × Schema) :=
  properties.map fun property => (property.1, silent)

theorem discreet_silence (list : List (String × Schema)) : Discreet (silence list) :=
  List.forall_mem_map.mpr fun _ _ => .inr rfl

theorem Discreet.append {more : List (String × Schema)} (first : Discreet properties) (second : Discreet more) :
    Discreet (properties ++ more) :=
  List.forall_mem_append.mpr ⟨first, second⟩

theorem propertyErrors_silence (list : List (String × Schema)) (entries : List (String × Value)) :
    propertyErrors (silence list) path entries = [] := by
  apply List.flatMap_eq_nil_iff.mpr
  intro property listed
  obtain ⟨source, -, rfl⟩ := List.mem_map.mp listed
  exact ite_self _

/-- The last properties of a closed object, reported apart. -/
theorem objectSchema_split (first last : List (String × Schema)) :
    objectSchema least required (first ++ last) none path value =
      objectSchema least required (first ++ silence last) none path value ++ propertiesOf last path value := by
  have names : (first ++ silence last).map Prod.fst = (first ++ last).map Prod.fst := by simp [silence]
  cases value with
  | object plain entries =>
    have apart : ∀ list, propertyErrors (first ++ list) path entries =
        propertyErrors first path entries ++ propertyErrors list path entries := fun list => List.flatMap_append
    simp only [objectSchema, propertiesOf, names, apart, propertyErrors_silence, List.append_nil, List.append_assoc]
  | _ => rfl

/-- The properties of `attribution` but the labels. -/
def attributionFields : List (String × Schema) :=
  [("environment", enumSchema ["production", "staging", "development", "test", "evaluation"]), ("user_id", anyText),
    ("account_id", someText), ("subscription_id", anyText), ("feature_id", someText)]

def labelsProperty : List (String × Schema) := [("labels", labelsSchema)]

/-- `attribution`, with nothing said of its labels. -/
def quietAttribution : Schema := fun path value =>
  productionBranch path value ++ objectSchema 0 [] (attributionFields ++ silence labelsProperty) none path value

def requiredProperties : List String :=
  ["spec_version", "record_id", "emitter", "timing", "resource", "usage", "run", "attribution"]

def earlierProperties : List (String × Schema) := recordProperties.take 7

def laterProperties : List (String × Schema) := [("usage", usageSchema), ("cost", costSchema)]

/-- What the schema reports before it comes to the labels. -/
def beforeLabels : Schema := fun path value =>
  (modelBranch path value ++ toolBranch path value) ++
    (objectSchema 0 requiredProperties (earlierProperties ++ silence (("attribution", attributionSchema) :: laterProperties))
        none path value ++
      propertiesOf [("attribution", quietAttribution)] path value)

def labelsPath : List String := ["attribution", "labels"]

/-- What it reports of the labels. -/
def labelErrors (labels : Value) : List SchemaError :=
  if labels.isDefined then labelsSchema labelsPath labels else []

theorem attribution_split :
    attributionSchema path value = quietAttribution path value ++ propertiesOf labelsProperty path value := by
  rw [attributionSchema, quietAttribution, List.append_assoc, ← objectSchema_split]
  rfl

theorem propertiesOf_labels : propertiesOf labelsProperty ["attribution"] value = labelErrors (valueAt value ["labels"]) := by
  cases value with
  | object plain entries => exact List.flatMap_singleton _ _
  | _ => rfl

theorem schemaErrors_split (data : Value) :
    schemaErrors data =
      beforeLabels [] data ++ labelErrors (valueAt data labelsPath) ++ propertiesOf laterProperties [] data := by
  have record : recordObject [] data =
      objectSchema 0 requiredProperties (earlierProperties ++ silence (("attribution", attributionSchema) :: laterProperties))
        none [] data ++ propertiesOf (("attribution", attributionSchema) :: laterProperties) [] data := by
    rw [← objectSchema_split]
    rfl
  have blocks : propertiesOf (("attribution", attributionSchema) :: laterProperties) [] data =
      propertiesOf [("attribution", quietAttribution)] [] data ++ labelErrors (valueAt data labelsPath) ++
        propertiesOf laterProperties [] data := by
    cases data with
    | object plain entries =>
      simp only [propertiesOf_object, propertyErrors, List.flatMap_cons, List.flatMap_nil, List.append_nil,
        List.nil_append, labelsPath, valueAt, attribution_split]
      by_cases defined : (Value.field "attribution" entries).isDefined = true
      · rw [if_pos defined, if_pos defined, propertiesOf_labels]
        rfl
      · have absent : Value.field "attribution" entries = .undefined := by
          cases held : Value.field "attribution" entries <;> simp_all [Value.isDefined]
        rw [absent]
        rfl
    | _ => rfl
  rw [schemaErrors, record, blocks, beforeLabels]
  simp only [List.append_assoc]

theorem blind_text (test : String → Bool) : Blind (matching test) := blind_string _ _ _
theorem blind_someText : Blind someText := blind_string _ _ _
theorem blind_anyText : Blind anyText := blind_string _ _ _
theorem blind_idText : Blind idText := blind_string _ _ _
theorem blind_timestamp : Blind timestampSchema := blind_string _ _ _
theorem blind_integer : Blind integer := blind_number _ _ _
theorem blind_amount : Blind amount := blind_number _ _ _

theorem extension_ordinary (name : String) (admitted : extensionPattern name = true) : name ≠ "labels" := by
  rintro rfl
  exact absurd admitted (by decide)

theorem blind_extension : ∀ rule ∈ extensionSchema, (∀ name, rule.1 name = true → name ≠ "labels") ∧ Blind rule.2 := by
  intro rule listed
  cases listed
  exact ⟨extension_ordinary, blind_number _ _ _⟩

theorem operationIn_veiled (operations : List String) (place : Place) (x y : Value) (veiled : Veiled place x y) :
    operationIn operations x = operationIn operations y := by
  cases veiled with
  | refl => rfl
  | array => rfl
  | object _ p q members each defined labels =>
    have resource := field_veiled each (by decide : "resource" ≠ "labels")
    unfold operationIn
    dsimp only
    generalize Value.field "resource" (mapValues Prod.fst members) = left at *
    generalize Value.field "resource" (mapValues Prod.snd members) = right at *
    cases resource with
    | refl => rfl
    | array => rfl
    | object _ p q members each defined labels =>
      exact isOneOf_veiled operations (field_veiled each (by decide : "operation" ≠ "labels"))

theorem inProduction_veiled (place : Place) (x y : Value) (veiled : Veiled place x y) : inProduction x = inProduction y := by
  cases veiled with
  | refl => rfl
  | array => rfl
  | object _ p q members each defined labels =>
    exact isOneOf_veiled _ (field_veiled each (by decide : "environment" ≠ "labels"))

theorem blind_model : Blind modelBranch := by
  refine blind_branch (blind_restrict ?_) (operationIn_veiled _)
  simp [discreet_cons, discreet_nil, blind_restrict, blind_const]

theorem blind_tool : Blind toolBranch := by
  refine blind_branch (blind_restrict ?_) (operationIn_veiled _)
  simp [discreet_cons, discreet_nil, blind_restrict, blind_const]

theorem blind_quietAttribution : Blind quietAttribution := by
  apply Blind.both
  · exact blind_branch (blind_restrict discreet_nil) inProduction_veiled
  · refine blind_object (Discreet.append ?_ (discreet_silence _)) (by simp)
    simp [attributionFields, discreet_cons, discreet_nil, blind_enum, blind_someText, blind_anyText]

theorem blind_earlier : Discreet earlierProperties := by
  have emitter : Blind emitterSchema := by
    refine blind_object ?_ (by simp)
    simp [discreet_cons, discreet_nil, blind_enum, blind_someText]
  have timing : Blind timingSchema := by
    refine blind_object ?_ (by simp)
    simp [discreet_cons, discreet_nil, blind_timestamp, blind_integer]
  have resource : Blind resourceSchema := by
    refine blind_object ?_ (by simp)
    simp [discreet_cons, discreet_nil, blind_text, blind_enum, blind_someText, blind_anyText]
  have run : Blind runSchema := by
    refine blind_object ?_ (by simp)
    simp [discreet_cons, discreet_nil, blind_string, blind_enum, blind_idText, blind_someText, blind_anyText, blind_integer]
  simp [earlierProperties, recordProperties, discreet_cons, discreet_nil, blind_text, blind_idText, emitter, timing,
    resource, run]

theorem blind_later : Discreet laterProperties := by
  have llmUsage : Blind llmUsageSchema := by
    refine blind_object ?_ blind_extension
    simp [discreet_cons, discreet_nil, blind_integer, blind_amount]
  have toolUsage : Blind toolUsageSchema := by
    refine blind_object ?_ blind_extension
    simp [discreet_cons, discreet_nil, blind_integer, blind_amount, blind_someText]
  have usage : Blind usageSchema := by
    refine blind_object ?_ (by simp)
    simp [discreet_cons, discreet_nil, llmUsage, toolUsage]
  have llmCost : Blind llmCostSchema := by
    refine blind_object ?_ (by simp)
    simp [discreet_cons, discreet_nil, blind_amount]
  have toolCost : Blind toolCostSchema := by
    refine blind_object ?_ ?_
    · simp [discreet_cons, discreet_nil, blind_amount, blind_someText]
    · intro rule listed
      cases listed
      exact ⟨extension_ordinary, blind_amount⟩
  have cost : Blind costSchema := by
    refine blind_object ?_ (by simp)
    simp [discreet_cons, discreet_nil, llmCost, toolCost, blind_amount, blind_number, blind_text]
  simp [laterProperties, discreet_cons, discreet_nil, usage, cost]

theorem blind_beforeLabels : Blind beforeLabels := by
  refine (blind_model.both blind_tool).both (Blind.both ?_ ?_)
  · exact blind_object (blind_earlier.append (discreet_silence _)) (by simp)
  · apply blind_propertiesOf
    simp [discreet_cons, discreet_nil, blind_quietAttribution]

theorem blind_afterLabels : Blind (propertiesOf laterProperties) := blind_propertiesOf blind_later

/-- The labels of values no schema tells apart have the same faults. -/
theorem labels_veiled (veiled : Veiled .record x y) :
    SameLabels (valueAt x labelsPath) (valueAt y labelsPath) := by
  cases veiled with
  | refl => exact .refl _
  | array => exact .refl _
  | object _ p q members each =>
    have attribution := field_veiled each (by decide : "attribution" ≠ "labels")
    simp only [labelsPath, valueAt]
    generalize Value.field "attribution" (mapValues Prod.fst members) = left at *
    generalize Value.field "attribution" (mapValues Prod.snd members) = right at *
    cases attribution with
    | refl => exact .refl _
    | array => exact .refl _
    | object _ p q members each defined labels =>
      obtain ⟨left, right⟩ | ⟨member, listed, named, left, right⟩ := @field_cases members "labels"
      · simp only [left, right]
        exact .refl _
      · simp only [left, right]
        exact labels rfl member listed named

end Audr.JsRecord
