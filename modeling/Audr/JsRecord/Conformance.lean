import Audr.JsRecord.Acceptance
import Audr.JsRecord.Moments

/-! What the published schema and the prose of the specification ask of a record, in their own
terms, and where `validate` finds nothing exactly if all of it is met. -/

namespace Audr.JsRecord

variable {path : List String} {value view : Value} {members : List (String × Value)} {plain : Bool}

/-- What a schema asks of a value. -/
abbrev Rule := Value → Prop

def textRule (least : Nat) (most : Option Nat) (admitted : String → Prop) : Rule := fun value =>
  ∃ text, value = .string text ∧ least ≤ text.toList.length ∧ (∀ limit ∈ most, text.toList.length ≤ limit) ∧
    admitted text

def enumRule (values : List String) : Rule := fun value => ∃ text ∈ values, value = .string text

/-- A finite number between zero and a limit. -/
def amountRule (limit : Option ℚ) : Rule := fun value =>
  ∃ number q, value = .number number ∧ finiteValue number = some q ∧ 0 ≤ q ∧ ∀ most ∈ limit, q ≤ most

def integerRule : Rule := fun value =>
  ∃ number, ∃ n : ℕ, value = .number number ∧ finiteValue number = some (n : ℚ)

/-- A closed object: required members are there, each property that is there is as its rule
wants it, and every other name is one of an extension. -/
def objectRule (least : Nat) (required : List String) (properties : List (String × Rule))
    (extension : Option ((String → Bool) × Rule)) : Rule := fun value =>
  ∃ plain members, value = .object plain members ∧ least ≤ members.length ∧
    (∀ name ∈ required, (Value.field name members).isDefined = true) ∧
    (∀ entry ∈ members, entry.1 ∈ properties.map Prod.fst ∨ ∃ rule ∈ extension, rule.1 entry.1 = true) ∧
    (∀ property ∈ properties, (Value.field property.1 members).isDefined = true →
      property.2 (Value.field property.1 members)) ∧
    ∀ rule ∈ extension, ∀ entry ∈ members, rule.1 entry.1 = true → rule.2 entry.2

/-- At most twenty labels: names and values of bounded length. -/
def labelsRule : Rule := fun value =>
  ∃ plain members, value = .object plain members ∧ members.length ≤ 20 ∧
    ∀ entry ∈ members, entry.1.toList.length ≤ 64 ∧ labelPattern entry.1 = true ∧
      ∃ text, entry.2 = .string text ∧ text.toList.length ≤ 256

def anyTextRule : Rule := textRule 0 none fun _ => True
def someTextRule : Rule := textRule 1 none fun _ => True
def idTextRule : Rule := textRule 8 (some 64) fun _ => True

/-! The blocks of a record, as the schema document lists them. -/

def emitterRule : Rule :=
  objectRule 0 ["component", "name", "version"]
    [("component", enumRule ["harness", "router", "provider"]), ("name", someTextRule), ("version", someTextRule)] none

/-- What is asked of a received time is left open. -/
def timingRule (received : Rule) : Rule :=
  objectRule 0 ["event_time"]
    [("event_time", textRule 0 none fun text => timestampPattern text = true), ("received_time", received),
      ("duration_ms", integerRule)] none

def resourceRule : Rule :=
  objectRule 0 ["provider", "type", "name", "operation"]
    [("provider", textRule 0 none fun text => providerPattern text = true),
      ("type", enumRule ["model", "tool"]),
      ("name", someTextRule),
      ("namespace", someTextRule),
      ("operation", enumRule ["generation", "embedding", "reranking", "tool_execution", "retrieval"]),
      ("modality", enumRule ["text", "image", "audio", "multimodal"]),
      ("key_name", anyTextRule),
      ("region", anyTextRule),
      ("deployment", someTextRule)] none

def runRule : Rule :=
  objectRule 0 ["run_id", "span_id"]
    [("run_id", idTextRule),
      ("name", someTextRule),
      ("span_id", someTextRule),
      ("parent_span_id", someTextRule),
      ("step", integerRule),
      ("trace_id", anyTextRule),
      ("run_type", enumRule ["agent_run", "workflow", "single_call"]),
      ("error_code", someTextRule),
      ("error_reason", textRule 0 (some 32) fun _ => True),
      ("outcome", enumRule ["resolved", "escalated", "abandoned", "failed"])] none

/-- The paying account is named in production. -/
def attributionRule : Rule := fun value =>
  objectRule 0 []
    [("environment", enumRule ["production", "staging", "development", "test", "evaluation"]),
      ("user_id", anyTextRule),
      ("account_id", someTextRule),
      ("subscription_id", anyTextRule),
      ("feature_id", someTextRule),
      ("labels", labelsRule)] none value ∧
    (valueAt value ["environment"] = .string "production" → (valueAt value ["account_id"]).isDefined = true)

def extensionRule : Option ((String → Bool) × Rule) := some (extensionPattern, amountRule none)

def llmUsageRule : Rule :=
  objectRule 1 []
    [("input_tokens", integerRule),
      ("output_tokens", integerRule),
      ("cache_read_tokens", integerRule),
      ("cache_write_tokens", integerRule),
      ("reasoning_tokens", integerRule),
      ("requests", integerRule),
      ("images_processed", integerRule),
      ("audio_input_seconds", amountRule none),
      ("audio_output_seconds", amountRule none)] extensionRule

def toolUsageRule : Rule :=
  objectRule 1 [] [("type", someTextRule), ("call_count", integerRule), ("sandbox_time", amountRule none)] extensionRule

def usageRule : Rule := objectRule 0 [] [("llm", llmUsageRule), ("tool", toolUsageRule)] none

def llmCostRule : Rule :=
  objectRule 0 ["total_token_cost"]
    [("total_token_cost", amountRule none),
      ("input_token_cost", amountRule none),
      ("output_token_cost", amountRule none),
      ("cache_read_cost", amountRule none),
      ("cache_write_cost", amountRule none),
      ("reasoning_cost", amountRule none)] none

def toolCostRule : Rule :=
  objectRule 1 [] [("type", someTextRule), ("call_cost", amountRule none), ("sandbox_cost", amountRule none)]
    extensionRule

def costRule : Rule :=
  objectRule 0 ["total_cost", "currency"]
    [("total_cost", amountRule none),
      ("currency", textRule 0 none fun text => currencyPattern text = true),
      ("llm", llmCostRule),
      ("tool", toolCostRule),
      ("original_cost", amountRule none),
      ("discount_amount", amountRule none),
      ("discount_percent", amountRule (some 100))] none

def recordRules (received : Rule) : List (String × Rule) :=
  [("spec_version", textRule 0 none fun text => versionPattern text = true),
    ("record_id", idTextRule),
    ("emitter", emitterRule),
    ("corrects", idTextRule),
    ("timing", timingRule received),
    ("resource", resourceRule),
    ("run", runRule),
    ("attribution", attributionRule),
    ("usage", usageRule),
    ("cost", costRule)]

def recordRule (received : Rule) : Rule :=
  objectRule 0 ["spec_version", "record_id", "emitter", "timing", "resource", "usage", "run", "attribution"]
    (recordRules received) none

/-- Which blocks and fields an operation goes with. -/
structure ShapeRule (operations : List String) (type used unused : String) (view : Value) : Prop where
  type : ∀ operation ∈ operations, valueAt view ["resource", "operation"] = .string operation →
    valueAt view ["resource", "type"] = .string type
  used : ∀ operation ∈ operations, valueAt view ["resource", "operation"] = .string operation →
    (valueAt view ["usage", used]).isDefined = true ∧ (valueAt view ["usage", unused]).isDefined = false
  cost : ∀ operation ∈ operations, valueAt view ["resource", "operation"] = .string operation →
    (valueAt view ["cost", unused]).isDefined = false

/-- A model operation also has a modality, and no namespace. -/
def ModalityRule (view : Value) : Prop :=
  ∀ operation ∈ modelOperations, valueAt view ["resource", "operation"] = .string operation →
    (valueAt view ["resource", "modality"]).isDefined = true ∧
      (valueAt view ["resource", "namespace"]).isDefined = false

/-- The schema document, with what it asks of a received time left open. -/
structure SchemaRule (received : Rule) (view : Value) : Prop where
  record : recordRule received view
  model : ShapeRule modelOperations "model" "llm" "tool" view
  modality : ModalityRule view
  tool : ShapeRule toolOperations "tool" "tool" "llm" view

/-- A moment with at most millisecond precision, not more than five minutes ahead. -/
def RealTimestamp (now : Int) (text : String) : Prop :=
  ∃ parts : Timestamp.Parts, parts.Fits ∧ text.toList = parts.text ∧ parts.Real ∧
    (∀ c ∈ parts.fraction.drop 3, c = '0') ∧ parts.milliseconds ≤ now + 5 * 60 * 1000

/-- The same, of the moment that is read. -/
def ReadTimestamp (now : Int) (text : String) : Prop :=
  ∃ parts, Timestamp.scan text.toList = some parts ∧ inRange parts = true ∧ (∀ c ∈ parts.fraction.drop 3, c = '0') ∧
    epochMs parts ≤ now + 5 * 60 * 1000

/-- A record as the specification wants it: the schema, but for a received time, which only a
sink may set, and the formats and rules stated in prose. Its event time is a timely one. -/
structure Conformant (timely : String → Prop) (view : Value) : Prop where
  schema : SchemaRule (fun _ => True) view
  unreceived : (valueAt view ["timing", "received_time"]).isDefined = false
  recordId : ∀ text, valueAt view ["record_id"] = .string text → recordIdentifier text = true
  corrects : ∀ text, valueAt view ["corrects"] = .string text → recordIdentifier text = true
  traceId : ∀ text, valueAt view ["run", "trace_id"] = .string text → traceId text = true
  eventTime : ∀ text, valueAt view ["timing", "event_time"] = .string text → timely text
  environment : (valueAt view ["attribution", "environment"]).isDefined = true
  userId : ∀ text, valueAt view ["attribution", "user_id"] = .string text → '@' ∉ text.toList

/-! Each schema of the generated validator reports nothing where its rule is met. -/

def Expresses (schema : Schema) (rule : Rule) : Prop := ∀ path value, schema path value = [] ↔ rule value

theorem expresses_text (least : Nat) (most : Option Nat) (test : String → Bool) (dateTime : Bool) :
    Expresses (stringSchema least most (some ⟨test, dateTime⟩)) (textRule least most fun text => test text = true) := by
  intro path value
  rw [stringSchema_nil]
  simp [textRule]

theorem expresses_anyText (least : Nat) (most : Option Nat) :
    Expresses (stringSchema least most none) (textRule least most fun _ => True) := by
  intro path value
  rw [stringSchema_nil]
  simp [textRule]

theorem expresses_enum (values : List String) : Expresses (enumSchema values) (enumRule values) :=
  fun _ _ => enumSchema_nil

theorem expresses_amount (types : List String) (limit : Option ℚ) :
    Expresses (numberSchema types false limit) (amountRule limit) := by
  intro path value
  rw [numberSchema_nil]
  simp [amountRule]

theorem expresses_integer : Expresses integer integerRule := by
  intro path value
  rw [integer, numberSchema_nil]
  constructor
  · rintro ⟨number, q, rfl, finite, nonneg, whole, -⟩
    have integral : ((q.num : ℤ) : ℚ) = q := Rat.coe_int_num_of_den_eq_one (whole rfl)
    obtain ⟨n, same⟩ := Int.eq_ofNat_of_zero_le (Rat.num_nonneg.mpr nonneg)
    refine ⟨number, n, rfl, ?_⟩
    rw [finite, ← integral, same]
    norm_num
  · rintro ⟨number, n, rfl, finite⟩
    exact ⟨number, n, rfl, finite, Nat.cast_nonneg n, fun _ => Rat.den_natCast n, by simp⟩

/-- Objects, property by property. -/
theorem expresses_object {least : Nat} {required : List String} {properties : List (String × Schema)}
    {rules : List (String × Rule)} {extension : Option ((String → Bool) × Schema)}
    {more : Option ((String → Bool) × Rule)}
    (pairs : List.Forall₂ (fun property rule => property.1 = rule.1 ∧ Expresses property.2 rule.2) properties rules)
    (extended : Option.Rel (fun schema rule => schema.1 = rule.1 ∧ Expresses schema.2 rule.2) extension more) :
    Expresses (objectSchema least required properties extension) (objectRule least required rules more) := by
  intro path value
  rw [objectSchema_nil]
  have names : properties.map Prod.fst = rules.map Prod.fst := by
    induction pairs with
    | nil => rfl
    | cons pair _ ih => rw [List.map_cons, List.map_cons, pair.1, ih]
  have fields : ∀ members, (∀ property ∈ properties, (Value.field property.1 members).isDefined = true →
        property.2 (path ++ [property.1]) (Value.field property.1 members) = []) ↔
      ∀ rule ∈ rules, (Value.field rule.1 members).isDefined = true → rule.2 (Value.field rule.1 members) := by
    intro members
    clear names
    induction pairs with
    | nil => simp
    | cons pair _ ih =>
      rw [List.forall_mem_cons, List.forall_mem_cons, ih, pair.1, pair.2]
  cases extended with
  | none => simp only [objectRule, names, fields, Option.not_mem_none, false_and, exists_false, IsEmpty.forall_iff, implies_true]
  | @some schema rule pair =>
    have same : ∀ path value, schema.2 path value = [] ↔ rule.2 value := pair.2
    simp only [objectRule, names, fields, Option.mem_some_iff, forall_eq', exists_eq_left', pair.1, same]

theorem expresses_labels : Expresses labelsSchema labelsRule := by
  intro path value
  rw [labelsSchema_nil]
  simp only [labelsRule]
  constructor
  · rintro ⟨plain, members, rfl, few, names, values⟩
    exact ⟨plain, members, rfl, few, fun entry member =>
      ⟨(names entry member).1, (names entry member).2, values entry member⟩⟩
  · rintro ⟨plain, members, rfl, few, each⟩
    exact ⟨plain, members, rfl, few, fun entry member => ⟨(each entry member).1, (each entry member).2.1⟩,
      fun entry member => (each entry member).2.2⟩

theorem expresses_someText : Expresses someText someTextRule := expresses_anyText 1 none
theorem expresses_optionalText : Expresses anyText anyTextRule := expresses_anyText 0 none
theorem expresses_idText : Expresses idText idTextRule := expresses_anyText 8 (some 64)
theorem expresses_matching (test : String → Bool) :
    Expresses (matching test) (textRule 0 none fun text => test text = true) := expresses_text 0 none test false
theorem expresses_timestamp : Expresses timestampSchema (textRule 0 none fun text => timestampPattern text = true) :=
  expresses_text 0 none timestampPattern true

theorem expresses_attribution : Expresses attributionSchema attributionRule := by
  intro path value
  have fields : Expresses attributionObject (objectRule 0 []
      [("environment", enumRule ["production", "staging", "development", "test", "evaluation"]),
        ("user_id", anyTextRule), ("account_id", someTextRule), ("subscription_id", anyTextRule),
        ("feature_id", someTextRule), ("labels", labelsRule)] none) := by
    refine expresses_object ?_ .none
    simp [expresses_enum, expresses_optionalText, expresses_someText, expresses_labels]
  rw [attributionSchema, List.append_eq_nil_iff, fields path value, attributionRule, and_comm]
  refine and_congr_right fun object => ?_
  obtain ⟨plain, members, rfl, -⟩ := object
  rw [productionBranch, branch_nil, restrict_nil]
  simp only [inProduction, valueAt, List.not_mem_nil, IsEmpty.forall_iff, implies_true, true_and, and_true,
    List.mem_singleton, forall_eq]
  cases Value.field "environment" members <;> simp [isOneOf]

theorem expresses_extension :
    Option.Rel (fun schema rule => schema.1 = rule.1 ∧ Expresses schema.2 rule.2) extensionSchema extensionRule :=
  .some ⟨rfl, expresses_amount _ none⟩

theorem expresses_usage : Expresses usageSchema usageRule := by
  have llm : Expresses llmUsageSchema llmUsageRule := by
    refine expresses_object ?_ expresses_extension
    simp [expresses_integer, amount, expresses_amount]
  have tool : Expresses toolUsageSchema toolUsageRule := by
    refine expresses_object ?_ expresses_extension
    simp [expresses_integer, amount, expresses_amount, expresses_someText]
  refine expresses_object ?_ .none
  simp [llm, tool]

theorem expresses_cost : Expresses costSchema costRule := by
  have llm : Expresses llmCostSchema llmCostRule := by
    refine expresses_object ?_ .none
    simp [amount, expresses_amount]
  have tool : Expresses toolCostSchema toolCostRule := by
    refine expresses_object ?_ (.some ⟨rfl, expresses_amount _ none⟩)
    simp [amount, expresses_amount, expresses_someText]
  refine expresses_object ?_ .none
  simp [llm, tool, amount, expresses_amount, expresses_matching]

theorem expresses_resource : Expresses resourceSchema resourceRule := by
  refine expresses_object ?_ .none
  simp [expresses_matching, expresses_someText, expresses_optionalText, expresses_enum, modelOperations, toolOperations]

theorem expresses_run : Expresses runSchema runRule := by
  refine expresses_object ?_ .none
  simp [expresses_idText, expresses_someText, expresses_optionalText, expresses_integer, expresses_enum,
    expresses_anyText]

/-- The schema of the record, block by block. -/
theorem expresses_record :
    Expresses recordObject (recordRule (textRule 0 none fun text => timestampPattern text = true)) := by
  have emitter : Expresses emitterSchema emitterRule := by
    refine expresses_object ?_ .none
    simp [expresses_enum, expresses_someText]
  have timing : Expresses timingSchema (timingRule (textRule 0 none fun text => timestampPattern text = true)) := by
    refine expresses_object ?_ .none
    simp [expresses_timestamp, expresses_integer]
  refine expresses_object ?_ .none
  simp [recordProperties, recordRules, expresses_matching, expresses_idText, emitter, timing, expresses_resource,
    expresses_run, expresses_attribution, expresses_usage, expresses_cost]

/-! The branches of `allOf`. -/

/-- A property of an object that has been accepted. -/
theorem object_of_rule {least : Nat} {required : List String} {properties : List (String × Rule)}
    {extension : Option ((String → Bool) × Rule)} (object : objectRule least required properties extension value) :
    ∃ plain members, value = .object plain members := by
  obtain ⟨plain, members, same, -⟩ := object
  exact ⟨plain, members, same⟩

/-- The blocks the branches of `allOf` are about. -/
theorem blocks_of_rule {received : Rule} (record : recordRule received view) :
    ∃ plain members, view = .object plain members ∧
      (∃ plain resource, Value.field "resource" members = .object plain resource ∧
        (Value.field "type" resource).isDefined = true) ∧
      (∃ plain usage, Value.field "usage" members = .object plain usage) ∧
      ∀ name, (∃ plain cost, Value.field "cost" members = .object plain cost ∧
        valueAt view ["cost", name] = Value.field name cost) ∨
        (Value.field "cost" members = .undefined ∧ valueAt view ["cost", name] = .undefined) := by
  obtain ⟨plain, members, rfl, -, required, -, fields, -⟩ := record
  have field := fun name rule (listed : (name, rule) ∈ recordRules received) => fields (name, rule) listed
  refine ⟨plain, members, rfl, ?_, ?_, fun name => ?_⟩
  · obtain ⟨plain, resource, held, -, present, -⟩ :=
      field "resource" resourceRule (by simp [recordRules]) (required "resource" (by simp))
    exact ⟨plain, resource, held, present "type" (by simp)⟩
  · exact object_of_rule (field "usage" usageRule (by simp [recordRules]) (required "usage" (by simp)))
  · by_cases defined : (Value.field "cost" members).isDefined = true
    · obtain ⟨plain, cost, held⟩ := object_of_rule (field "cost" costRule (by simp [recordRules]) defined)
      exact .inl ⟨plain, cost, held, by simp [valueAt, held]⟩
    · have absent : Value.field "cost" members = .undefined := by
        cases held : Value.field "cost" members <;> simp_all [Value.isDefined]
      exact .inr ⟨absent, by simp [valueAt, absent]⟩

theorem isOneOf_iff {values : List String} : isOneOf values value = true ↔ ∃ text ∈ values, value = .string text := by
  cases value <;> simp [isOneOf]

theorem constSchema_nil {expected : String} : constSchema expected path value = [] ↔ value = .string expected := by
  rw [constSchema, expect_nil, isOneOf_iff]
  simp

theorem model_iff {received : Rule} (record : recordRule received view) :
    modelBranch [] view = [] ↔ ShapeRule modelOperations "model" "llm" "tool" view ∧ ModalityRule view := by
  obtain ⟨plain, members, rfl, ⟨_, resource, held, typed⟩, ⟨_, usage, used⟩, priced⟩ := blocks_of_rule record
  have applies : operationIn modelOperations (.object plain members) = true ↔
      ∃ operation ∈ modelOperations, valueAt (.object plain members) ["resource", "operation"] = .string operation := by
    rw [operationIn, held, isOneOf_iff]
    simp [valueAt, held]
  have rule : modelRule [] (.object plain members) = [] ↔
      (valueAt (.object plain members) ["resource", "type"] = .string "model" ∧
        (valueAt (.object plain members) ["usage", "llm"]).isDefined = true ∧
        (valueAt (.object plain members) ["usage", "tool"]).isDefined = false ∧
        (valueAt (.object plain members) ["cost", "tool"]).isDefined = false) ∧
      (valueAt (.object plain members) ["resource", "modality"]).isDefined = true ∧
        (valueAt (.object plain members) ["resource", "namespace"]).isDefined = false := by
    rw [modelRule, restrict_nil]
    rcases priced "tool" with ⟨_, cost, owned, at'⟩ | ⟨owned, at'⟩ <;>
      simp [held, used, owned, valueAt, Value.isDefined, restrict_nil, constSchema_nil] <;> tauto
  rw [modelBranch, branch_nil, applies, rule]
  constructor
  · intro each
    exact ⟨⟨fun operation listed same => (each ⟨operation, listed, same⟩).1.1,
      fun operation listed same => ⟨(each ⟨operation, listed, same⟩).1.2.1, (each ⟨operation, listed, same⟩).1.2.2.1⟩,
      fun operation listed same => (each ⟨operation, listed, same⟩).1.2.2.2⟩,
      fun operation listed same => (each ⟨operation, listed, same⟩).2⟩
  · rintro ⟨shape, modality⟩ ⟨operation, listed, same⟩
    have used := shape.used operation listed same
    exact ⟨⟨shape.type operation listed same, used.1, used.2, shape.cost operation listed same⟩,
      modality operation listed same⟩

theorem tool_iff {received : Rule} (record : recordRule received view) :
    toolBranch [] view = [] ↔ ShapeRule toolOperations "tool" "tool" "llm" view := by
  obtain ⟨plain, members, rfl, ⟨_, resource, held, typed⟩, ⟨_, usage, used⟩, priced⟩ := blocks_of_rule record
  have applies : operationIn toolOperations (.object plain members) = true ↔
      ∃ operation ∈ toolOperations, valueAt (.object plain members) ["resource", "operation"] = .string operation := by
    rw [operationIn, held, isOneOf_iff]
    simp [valueAt, held]
  have rule : toolRule [] (.object plain members) = [] ↔
      valueAt (.object plain members) ["resource", "type"] = .string "tool" ∧
        (valueAt (.object plain members) ["usage", "tool"]).isDefined = true ∧
        (valueAt (.object plain members) ["usage", "llm"]).isDefined = false ∧
        (valueAt (.object plain members) ["cost", "llm"]).isDefined = false := by
    rw [toolRule, restrict_nil]
    rcases priced "llm" with ⟨_, cost, owned, at'⟩ | ⟨owned, at'⟩ <;>
      simp [held, used, owned, valueAt, Value.isDefined, restrict_nil, constSchema_nil] <;> tauto
  rw [toolBranch, branch_nil, applies, rule]
  constructor
  · intro each
    exact ⟨fun operation listed same => (each ⟨operation, listed, same⟩).1,
      fun operation listed same => ⟨(each ⟨operation, listed, same⟩).2.1, (each ⟨operation, listed, same⟩).2.2.1⟩,
      fun operation listed same => (each ⟨operation, listed, same⟩).2.2.2⟩
  · rintro shape ⟨operation, listed, same⟩
    have used := shape.used operation listed same
    exact ⟨shape.type operation listed same, used.1, used.2, shape.cost operation listed same⟩

/-- The schema is not broken exactly where its rules are met. -/
theorem schemaErrors_nil :
    schemaErrors view = [] ↔ SchemaRule (textRule 0 none fun text => timestampPattern text = true) view := by
  rw [schemaErrors, List.append_eq_nil_iff, List.append_eq_nil_iff, expresses_record]
  constructor
  · rintro ⟨⟨model, tool⟩, record⟩
    have both := (model_iff record).mp model
    exact ⟨record, both.1, both.2, (tool_iff record).mp tool⟩
  · intro rules
    exact ⟨⟨(model_iff rules.record).mpr ⟨rules.model, rules.modality⟩, (tool_iff rules.record).mpr rules.tool⟩,
      rules.record⟩

/-! A received time. -/

/-- Rules that agree on what is there. -/
theorem objectRule_imp {least : Nat} {required : List String} {properties rules : List (String × Rule)}
    {extension : Option ((String → Bool) × Rule)} {plain : Bool}
    (pairs : List.Forall₂ (fun property rule => property.1 = rule.1 ∧
      ((Value.field rule.1 members).isDefined = true → property.2 (Value.field rule.1 members) →
        rule.2 (Value.field rule.1 members))) properties rules)
    (object : objectRule least required properties extension (.object plain members)) :
    objectRule least required rules extension (.object plain members) := by
  obtain ⟨plain, members, same, few, present, known, fields, more⟩ := object
  obtain ⟨rfl, rfl⟩ := Value.object.inj same
  have names : properties.map Prod.fst = rules.map Prod.fst := by
    clear known fields
    induction pairs with
    | nil => rfl
    | cons pair _ ih => rw [List.map_cons, List.map_cons, pair.1, ih]
  refine ⟨plain, members, rfl, few, present, names ▸ known, ?_, more⟩
  clear known names
  induction pairs with
  | nil => simp
  | cons pair _ ih =>
    rw [List.forall_mem_cons] at fields ⊢
    refine ⟨fun defined => pair.2 defined ?_, ih fields.2⟩
    have first := fields.1 (by rw [pair.1]; exact defined)
    rwa [pair.1] at first

/-- Without a received time, nothing is asked of it. -/
theorem recordRule_unreceived {received other : Rule} (record : recordRule received view)
    (absent : (valueAt view ["timing", "received_time"]).isDefined = false) : recordRule other view := by
  obtain ⟨plain, members, rfl⟩ := object_of_rule record
  refine objectRule_imp ?_ record
  have timing : (Value.field "timing" members).isDefined = true → timingRule received (Value.field "timing" members) →
      timingRule other (Value.field "timing" members) := by
    intro _ timing
    obtain ⟨plain, times, held⟩ := object_of_rule timing
    rw [valueAt, held] at absent
    rw [held] at timing ⊢
    refine objectRule_imp ?_ timing
    have absent : (Value.field "received_time" times).isDefined = false := absent
    simp [absent]
  simp [recordRules]
  tauto

/-! Formats and prose. -/

theorem formatIssues_nil : formatIssues view = [] ↔
    (∀ text, valueAt view ["record_id"] = .string text → recordIdentifier text = true) ∧
      (∀ text, valueAt view ["corrects"] = .string text → recordIdentifier text = true) ∧
      (∀ text, valueAt view ["timing", "event_time"] = .string text → (parseTimestamp text).isSome = true) ∧
      (valueAt view ["timing", "received_time"]).isDefined = false ∧
      ∀ text, valueAt view ["run", "trace_id"] = .string text → traceId text = true := by
  have identifiers : ∀ key value, identifierIssues key value = [] ↔
      ∀ text, value = .string text → recordIdentifier text = true := by
    intro key value
    cases value <;> simp [identifierIssues]
  have timing : ∀ value, timingIssues value = [] ↔
      (∀ text, valueAt value ["event_time"] = .string text → (parseTimestamp text).isSome = true) ∧
        (valueAt value ["received_time"]).isDefined = false := by
    intro value
    cases value with
    | object plain members =>
      rw [timingIssues, List.append_eq_nil_iff]
      refine and_congr ?_ ?_
      · simp only [valueAt]
        cases Value.field "event_time" members <;> simp [Option.isSome_iff_ne_none]
      · simp [valueAt]
    | _ => simp [timingIssues, valueAt, Value.isDefined]
  have trace : ∀ value, traceIssues value = [] ↔
      ∀ text, valueAt value ["trace_id"] = .string text → traceId text = true := by
    intro value
    cases value with
    | object plain members =>
      simp only [traceIssues, valueAt]
      cases Value.field "trace_id" members <;> simp
    | _ => simp [traceIssues, valueAt]
  cases view with
  | object plain members =>
    simp only [formatIssues, List.append_eq_nil_iff, identifiers, timing, trace]
    simp only [valueAt]
    tauto
  | _ => simp [formatIssues, valueAt, Value.isDefined]

/-- A timestamp that is read, of at most millisecond precision and not in the future. -/
theorem eventTimeIssues_nil {now : Int} {text : String} (read : (parseTimestamp text).isSome = true) :
    eventTimeIssues now (.string text) = [] ↔ ReadTimestamp now text := by
  unfold parseTimestamp at read
  cases scanned : Timestamp.scan text.toList with
  | none => simp [scanned] at read
  | some parts =>
    have ranged : inRange parts = true := by
      simp only [scanned] at read
      split at read
      · assumption
      · simp at read
    have zeros : ((parts.fraction.drop 3).any fun c => '1' ≤ c && c ≤ '9') = false ↔
        ∀ c ∈ parts.fraction.drop 3, c = '0' := by
      rw [List.any_eq_false]
      refine forall₂_congr fun c member => ?_
      have digit := Timestamp.scan_fraction scanned c (List.mem_of_mem_drop member)
      simp only [Timestamp.isDigit, Bool.and_eq_true, decide_eq_true_eq, Char.le_def, UInt32.le_iff_toNat_le] at digit ⊢
      rw [Char.ext_iff, ← UInt32.toNat_inj]
      have zero : '0'.val.toNat = 48 := rfl
      have one : '1'.val.toNat = 49 := rfl
      have nine : '9'.val.toNat = 57 := rfl
      omega
    simp only [eventTimeIssues, parseTimestamp, scanned, ranged, if_true, List.append_eq_nil_iff, ReadTimestamp]
    simp only [Option.some.injEq, exists_eq_left', ranged, true_and, ← zeros, futureSkewMs]
    refine and_congr ?_ ?_
    · cases ((parts.fraction.drop 3).any fun c => '1' ≤ c && c ≤ '9') <;> simp
    · simp

theorem ReadTimestamp.read {now : Int} {text : String} (real : ReadTimestamp now text) :
    (parseTimestamp text).isSome = true := by
  obtain ⟨parts, scanned, ranged, -⟩ := real
  simp [parseTimestamp, scanned, ranged]

/-- Nothing is found wrong with a value exactly where it is as the specification wants it, but
that its event time is timely as it is read. -/
theorem inspect_conformant {now : Int} : inspect now view = [] ↔ Conformant (ReadTimestamp now) view := by
  have users : ∀ value, userIssues value = [] ↔ ∀ text, value = .string text → '@' ∉ text.toList := by
    intro value
    cases value <;> simp [userIssues]
  have prose : proseIssues now view = [] ↔ eventTimeIssues now (valueAt view ["timing", "event_time"]) = [] ∧
      (valueAt view ["attribution", "environment"]).isDefined = true ∧
      ∀ text, valueAt view ["attribution", "user_id"] = .string text → '@' ∉ text.toList := by
    rw [proseIssues, List.append_eq_nil_iff, List.append_eq_nil_iff, users, and_assoc]
    simp
  rw [inspect_nil, schemaErrors_nil, formatIssues_nil, prose]
  constructor
  · rintro ⟨schema, ⟨recordId, corrects, read, unreceived, trace⟩, times, environment, users⟩
    refine ⟨⟨recordRule_unreceived schema.record unreceived, schema.model, schema.modality, schema.tool⟩, unreceived,
      recordId, corrects, trace, fun text held => ?_, environment, users⟩
    rw [held] at times
    exact (eventTimeIssues_nil (read text held)).mp times
  · intro conformant
    have read : ∀ text, valueAt view ["timing", "event_time"] = .string text → (parseTimestamp text).isSome = true :=
      fun text held => (conformant.eventTime text held).read
    have schema := conformant.schema
    refine ⟨⟨recordRule_unreceived schema.record conformant.unreceived, schema.model, schema.modality, schema.tool⟩,
      ⟨conformant.recordId, conformant.corrects, read, conformant.unreceived, conformant.traceId⟩, ?_,
      conformant.environment, conformant.userId⟩
    cases held : valueAt view ["timing", "event_time"] with
    | string text => exact (eventTimeIssues_nil (read text held)).mpr (conformant.eventTime text held)
    | _ => rfl

theorem Conformant.mono {timely admitted : String → Prop} (conformant : Conformant timely view)
    (implied : ∀ text, valueAt view ["timing", "event_time"] = .string text → timely text → admitted text) :
    Conformant admitted view :=
  ⟨conformant.schema, conformant.unreceived, conformant.recordId, conformant.corrects, conformant.traceId,
    fun text held => implied text held (conformant.eventTime text held), conformant.environment, conformant.userId⟩

/-- A moment of the first hundred years that is not read as one, or as one too far ahead. -/
def Misread (now : Int) (text : String) : Prop :=
  ∃ parts : Timestamp.Parts, parts.Fits ∧ text.toList = parts.text ∧ parts.year ≤ 99 ∧
    ((parts.year = 0 ∧ parts.month = 2 ∧ parts.day = 29) ∨ now + 5 * 60 * 1000 < (readParts parts).milliseconds)

/-- What is read as timely is so, and what is timely is read as such unless it is misread. -/
theorem readTimestamp_iff {now : Int} {text : String} :
    ReadTimestamp now text ↔ RealTimestamp now text ∧ ¬Misread now text := by
  constructor
  · rintro ⟨parts, scanned, ranged, zeros, moment⟩
    obtain ⟨fits, written⟩ := Timestamp.scan_eq_some.mp scanned
    have real := readParts_real (inRange_iff.mp ranged)
    rw [epochMs_eq fits] at moment
    have earlier : parts.milliseconds ≤ (readParts parts).milliseconds := by
      by_cases early : parts.year ≤ 99
      · exact (milliseconds_readParts early).le
      · rw [readParts_eq early]
    refine ⟨⟨parts, fits, written, real, zeros, earlier.trans moment⟩, ?_⟩
    rintro ⟨others, otherFits, rewritten, -, missed⟩
    have same := Timestamp.scan_eq_some.mpr ⟨otherFits, rewritten⟩
    rw [scanned] at same
    obtain rfl := Option.some.inj same
    rcases missed with leapDay | ahead
    · exact (readParts_real_iff real).mp (inRange_iff.mp ranged) leapDay
    · omega
  · rintro ⟨⟨parts, fits, written, real, zeros, moment⟩, read⟩
    have scanned := Timestamp.scan_eq_some.mpr ⟨fits, written⟩
    by_cases early : parts.year ≤ 99
    · have others := fun missed => read ⟨parts, fits, written, early, missed⟩
      refine ⟨parts, scanned, inRange_iff.mpr ((readParts_real_iff real).mpr fun leapDay => others (.inl leapDay)), zeros, ?_⟩
      rw [epochMs_eq fits]
      exact not_lt.mp fun ahead => others (.inr ahead)
    · have same := readParts_eq early
      refine ⟨parts, scanned, inRange_iff.mpr (by rwa [same]), zeros, ?_⟩
      rwa [epochMs_eq fits, same]

/-- No issue is reported exactly where the value can be read and its view as JSON is as the
specification wants it. -/
def ValidatesExactly (now : Int) (reading : Option Value) : Prop :=
  validateReading now reading = [] ↔ ∃ value ∈ reading, Conformant (RealTimestamp now) (asJson none value)

/-- `validate` is exact but for records as the specification wants them whose event time is
misread. -/
theorem validate_complete (now : Int) (reading : Option Value) :
    ValidatesExactly now reading ↔ ¬∃ value ∈ reading, Conformant (RealTimestamp now) (asJson none value) ∧
      ∃ text, valueAt (asJson none value) ["timing", "event_time"] = .string text ∧ Misread now text := by
  cases reading with
  | none => simp [ValidatesExactly, validateReading]
  | some value =>
    have found : validateReading now (some value) = [] ↔ Conformant (ReadTimestamp now) (asJson none value) :=
      inspect_conformant
    simp only [ValidatesExactly, found, Option.mem_some_iff, exists_eq_left']
    constructor
    · rintro settled ⟨conformant, text, held, misread⟩
      exact (readTimestamp_iff.mp ((settled.mpr conformant).eventTime text held)).2 misread
    · intro read
      constructor
      · exact fun conformant => conformant.mono fun text held timely => (readTimestamp_iff.mp timely).1
      · exact fun conformant => conformant.mono fun text held timely =>
          readTimestamp_iff.mpr ⟨timely, fun misread => read ⟨conformant, text, held, misread⟩⟩

/-- A record of the leap day of the year 0. -/
def leapDayRecord : Value :=
  .object true
    [("spec_version", .string "1.1.0"),
      ("record_id", .string "01ARZ3NDEKTSV4RRFFQ69G5FAV"),
      ("emitter", .object true
        [("component", .string "harness"), ("name", .string "demo"), ("version", .string "1.0.0")]),
      ("timing", .object true [("event_time", .string "0000-02-29T00:00:00Z")]),
      ("resource", .object true
        [("provider", .string "openai"), ("type", .string "model"), ("name", .string "gpt"),
          ("operation", .string "generation"), ("modality", .string "text")]),
      ("usage", .object true [("llm", .object true [("requests", .number (.finite 0))])]),
      ("run", .object true [("run_id", .string "run-0001"), ("span_id", .string "s")]),
      ("attribution", .object true [("environment", .string "test")])]

/-- Nothing is wrong with the record, and an issue is found at the start of 2026. -/
theorem leapDayRecord_refused : ¬ValidatesExactly 1767225600000 (some leapDayRecord) := by
  intro settled
  have view : asJson none leapDayRecord = leapDayRecord := rfl
  obtain ⟨fits, written, real⟩ := leapDay_real
  have past : leapDay.milliseconds ≤ 1767225600000 + 5 * 60 * 1000 := by
    rw [Timestamp.milliseconds_eq]
    decide +kernel
  have schema : schemaErrors leapDayRecord = [] := by decide +kernel
  have rules := schemaErrors_nil.mp schema
  have conformant : Conformant (RealTimestamp 1767225600000) leapDayRecord := by
    constructor
    · exact ⟨recordRule_unreceived rules.record rfl, rules.model, rules.modality, rules.tool⟩
    · rfl
    · rintro text ⟨⟩
      decide +kernel
    · rintro text ⟨⟩
    · rintro text ⟨⟩
    · rintro text ⟨⟩
      exact ⟨leapDay, fits, written, real, by simp [leapDay], past⟩
    · rfl
    · rintro text ⟨⟩
  have accepted := settled.mpr ⟨leapDayRecord, rfl, by rwa [view]⟩
  exact absurd accepted (by decide +kernel)

end Audr.JsRecord
