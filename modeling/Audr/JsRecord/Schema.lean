import Audr.JsRecord.Values
import Audr.Lib.Timestamp

/-! The record schema as the generated validator checks it: every rule a value breaks, in the
order they are found. -/

namespace Audr.JsRecord

/-- A failing keyword, with what `validate.ts` reads of its parameters. -/
inductive Keyword where
  | type (names : List String)
  | enum
  | const
  | pattern (dateTime : Bool)
  | minLength
  | maxLength
  | minimum
  | maximum
  | minProperties
  | maxProperties
  | required (missing : String)
  | additionalProperties (name : String)
  | propertyNames (name : String)
  | not (forbidden : String)
  | ifThen
  deriving DecidableEq, Repr

/-- `SchemaError`: `branch` tells whether the schema path goes through an `allOf`. -/
structure SchemaError where
  instancePath : List String
  keyword : Keyword
  propertyName : Option String
  branch : Bool
  deriving DecidableEq, Repr

/-- What a schema finds wrong with a value at a path. -/
abbrev Schema := List String → Value → List SchemaError

def failure (path : List String) (keyword : Keyword) : SchemaError := ⟨path, keyword, none, false⟩

/-- `[failure]` where a rule is broken. -/
def expect (holds : Bool) (error : SchemaError) : List SchemaError := if holds then [] else [error]

structure Pattern where
  test : String → Bool
  dateTime : Bool

/-- A string, counted in code points. -/
def stringSchema (least : Nat) (most : Option Nat) (pattern : Option Pattern) : Schema := fun path value =>
  match value with
  | .string text =>
      expect (most.all fun limit => text.toList.length ≤ limit) (failure path .maxLength) ++
        expect (least ≤ text.toList.length) (failure path .minLength) ++
        match pattern with
        | some pattern => expect (pattern.test text) (failure path (.pattern pattern.dateTime))
        | none => []
  | _ => [failure path (.type ["string"])]

/-- The exact value of a finite number. -/
def finiteValue : Double → Option ℚ
  | .finite q => some q
  | .negativeZero => some 0
  | _ => none

/-- A number that is not negative; `whole` where it has to be an integer. -/
def numberSchema (types : List String) (whole : Bool) (most : Option ℚ) : Schema := fun path value =>
  match value with
  | .number number =>
      match finiteValue number with
      | some q =>
          expect (!whole || q.den = 1) (failure path (.type types)) ++
            expect (most.all fun limit => q ≤ limit) (failure path .maximum) ++
            expect (0 ≤ q) (failure path .minimum)
      | none => [failure path (.type types)]
  | _ => [failure path (.type types)]

def integer : Schema := numberSchema ["integer"] true none
def amount : Schema := numberSchema ["number"] false none
def extensionNumber : Schema := numberSchema ["integer", "number"] false none
def anyText : Schema := stringSchema 0 none none
def someText : Schema := stringSchema 1 none none
def idText : Schema := stringSchema 8 (some 64) none

def isOneOf (values : List String) : Value → Bool
  | .string text => decide (text ∈ values)
  | _ => false

def enumSchema (values : List String) : Schema := fun path value => expect (isOneOf values value) (failure path .enum)

def constSchema (expected : String) : Schema := fun path value =>
  expect (isOneOf [expected] value) (failure path .const)

/-- `required: [...]`, on an object. -/
def missing (names : List String) (path : List String) (members : List (String × Value)) : List SchemaError :=
  names.flatMap fun name => expect (Value.field name members).isDefined (failure path (.required name))

/-- `properties: {...}`, on an object. -/
def propertyErrors (properties : List (String × Schema)) (path : List String) (members : List (String × Value)) :
    List SchemaError :=
  properties.flatMap fun property =>
    let value := Value.field property.1 members
    if value.isDefined then property.2 (path ++ [property.1]) value else []

/-- A closed object. The names of `extension` are admitted beside the properties. -/
def objectSchema (least : Nat) (required : List String) (properties : List (String × Schema))
    (extension : Option ((String → Bool) × Schema)) : Schema := fun path value =>
  match value with
  | .object _ members =>
      expect (least ≤ members.length) (failure path .minProperties) ++ missing required path members ++
        (members.flatMap fun entry =>
          expect (entry.1 ∈ properties.map Prod.fst || extension.any fun extension => extension.1 entry.1)
            (failure path (.additionalProperties entry.1))) ++
        propertyErrors properties path members ++
        match extension with
        | some extension =>
            members.flatMap fun entry =>
              if extension.1 entry.1 then extension.2 (path ++ [entry.1]) entry.2 else []
        | none => []
  | _ => [failure path (.type ["object"])]

/-- A rule inside `then`: it says nothing of a value's type, and admits other members. -/
def restrict (forbidden required : List String) (properties : List (String × Schema)) : Schema := fun path value =>
  match value with
  | .object _ members =>
      (forbidden.flatMap fun name => expect (!(Value.field name members).isDefined) (failure path (.not name))) ++
        missing required path members ++ propertyErrors properties path members
  | _ => forbidden.map fun name => failure path (.not name)

/-- A branch of `allOf`. Its `if` fails with its `then`. -/
def branch (condition : Value → Bool) (rule : Schema) : Schema := fun path value =>
  let errors := if condition value then rule path value else []
  let failed := if errors = [] then [] else [failure path .ifThen]
  (errors ++ failed).map fun error => { error with branch := true }

/-! The patterns of the schema. -/

open Timestamp (isDigit)

/-- Nothing but one or more characters of a class. -/
def allOf1 (test : Char → Bool) (chars : List Char) : Bool := !chars.isEmpty && chars.all test

/-- `^1\.\d+\.\d+$`. -/
def versionPattern (text : String) : Bool :=
  match text.toList with
  | '1' :: '.' :: rest =>
      match rest.span (· ≠ '.') with
      | (minor, '.' :: patch) => allOf1 isDigit minor && allOf1 isDigit patch
      | _ => false
  | _ => false

/-- `^[a-z0-9-]+$`. -/
def providerPattern (text : String) : Bool :=
  allOf1 (fun c => c.isLower || isDigit c || c = '-') text.toList

/-- `^[a-zA-Z0-9_.-]+$`. -/
def labelPattern (text : String) : Bool :=
  allOf1 (fun c => c.isAlpha || isDigit c || c = '_' || c = '.' || c = '-') text.toList

/-- `^x_[a-z0-9_]+$`. -/
def extensionPattern (text : String) : Bool :=
  match text.toList with
  | 'x' :: '_' :: rest => allOf1 (fun c => c.isLower || isDigit c || c = '_') rest
  | _ => false

/-- `^[A-Z]{3}$`. -/
def currencyPattern (text : String) : Bool := text.toList.length = 3 && text.toList.all Char.isUpper

def timestampPattern (text : String) : Bool := (Timestamp.scan text.toList).isSome

/-! The schema, block by block. -/

def matching (test : String → Bool) : Schema := stringSchema 0 none (some ⟨test, false⟩)

def timestampSchema : Schema := stringSchema 0 none (some ⟨timestampPattern, true⟩)

def emitterSchema : Schema :=
  objectSchema 0 ["component", "name", "version"]
    [("component", enumSchema ["harness", "router", "provider"]), ("name", someText), ("version", someText)] none

def timingSchema : Schema :=
  objectSchema 0 ["event_time"]
    [("event_time", timestampSchema), ("received_time", timestampSchema), ("duration_ms", integer)] none

def modelOperations : List String := ["generation", "embedding", "reranking"]
def toolOperations : List String := ["tool_execution", "retrieval"]

def resourceSchema : Schema :=
  objectSchema 0 ["provider", "type", "name", "operation"]
    [("provider", matching providerPattern),
      ("type", enumSchema ["model", "tool"]),
      ("name", someText),
      ("namespace", someText),
      ("operation", enumSchema (modelOperations ++ toolOperations)),
      ("modality", enumSchema ["text", "image", "audio", "multimodal"]),
      ("key_name", anyText),
      ("region", anyText),
      ("deployment", someText)] none

def runSchema : Schema :=
  objectSchema 0 ["run_id", "span_id"]
    [("run_id", idText),
      ("name", someText),
      ("span_id", someText),
      ("parent_span_id", someText),
      ("step", integer),
      ("trace_id", anyText),
      ("run_type", enumSchema ["agent_run", "workflow", "single_call"]),
      ("error_code", someText),
      ("error_reason", stringSchema 0 (some 32) none),
      ("outcome", enumSchema ["resolved", "escalated", "abandoned", "failed"])] none

/-- `propertyNames`, for one name of `labels`. -/
def labelNameErrors (path : List String) (name : String) : List SchemaError :=
  let errors := stringSchema 0 (some 64) (some ⟨labelPattern, false⟩) path (.string name)
  (errors.map fun error => { error with propertyName := some name }) ++
    expect (errors = []) (failure path (.propertyNames name))

def labelsSchema : Schema := fun path value =>
  match value with
  | .object _ members =>
      expect (members.length ≤ 20) (failure path .maxProperties) ++
        (members.flatMap fun entry => labelNameErrors path entry.1) ++
        members.flatMap fun entry => stringSchema 0 (some 256) none (path ++ [entry.1]) entry.2
  | _ => [failure path (.type ["object"])]

/-- `if: { properties: { environment: { const: 'production' } }, required: ['environment'] }`. -/
def inProduction : Value → Bool
  | .object _ members => isOneOf ["production"] (Value.field "environment" members)
  | _ => true

def productionBranch : Schema := branch inProduction (restrict [] ["account_id"] [])

def attributionObject : Schema :=
  objectSchema 0 []
    [("environment", enumSchema ["production", "staging", "development", "test", "evaluation"]),
      ("user_id", anyText),
      ("account_id", someText),
      ("subscription_id", anyText),
      ("feature_id", someText),
      ("labels", labelsSchema)] none

def attributionSchema : Schema := fun path value => productionBranch path value ++ attributionObject path value

def extensionSchema : Option ((String → Bool) × Schema) := some (extensionPattern, extensionNumber)

def llmUsageSchema : Schema :=
  objectSchema 1 []
    [("input_tokens", integer),
      ("output_tokens", integer),
      ("cache_read_tokens", integer),
      ("cache_write_tokens", integer),
      ("reasoning_tokens", integer),
      ("requests", integer),
      ("images_processed", integer),
      ("audio_input_seconds", amount),
      ("audio_output_seconds", amount)] extensionSchema

def toolUsageSchema : Schema :=
  objectSchema 1 [] [("type", someText), ("call_count", integer), ("sandbox_time", amount)] extensionSchema

def usageSchema : Schema := objectSchema 0 [] [("llm", llmUsageSchema), ("tool", toolUsageSchema)] none

def llmCostSchema : Schema :=
  objectSchema 0 ["total_token_cost"]
    [("total_token_cost", amount),
      ("input_token_cost", amount),
      ("output_token_cost", amount),
      ("cache_read_cost", amount),
      ("cache_write_cost", amount),
      ("reasoning_cost", amount)] none

def toolCostSchema : Schema :=
  objectSchema 1 [] [("type", someText), ("call_cost", amount), ("sandbox_cost", amount)]
    (some (extensionPattern, amount))

def costSchema : Schema :=
  objectSchema 0 ["total_cost", "currency"]
    [("total_cost", amount),
      ("currency", matching currencyPattern),
      ("llm", llmCostSchema),
      ("tool", toolCostSchema),
      ("original_cost", amount),
      ("discount_amount", amount),
      ("discount_percent", numberSchema ["number"] false (some 100))] none

/-- `if: { required: ['resource'], properties: { resource: { required: ['operation'], ... } } }`. -/
def operationIn (operations : List String) : Value → Bool
  | .object _ members =>
      match Value.field "resource" members with
      | .undefined => false
      | .object _ resource => isOneOf operations (Value.field "operation" resource)
      | _ => true
  | _ => true

def modelRule : Schema :=
  restrict [] []
    [("resource", restrict ["namespace"] ["modality"] [("type", constSchema "model")]),
      ("usage", restrict ["tool"] ["llm"] []),
      ("cost", restrict ["tool"] [] [])]

def modelBranch : Schema := branch (operationIn modelOperations) modelRule

def toolRule : Schema :=
  restrict [] []
    [("resource", restrict [] [] [("type", constSchema "tool")]),
      ("usage", restrict ["llm"] ["tool"] []),
      ("cost", restrict ["llm"] [] [])]

def toolBranch : Schema := branch (operationIn toolOperations) toolRule

def recordProperties : List (String × Schema) :=
  [("spec_version", matching versionPattern),
    ("record_id", idText),
    ("emitter", emitterSchema),
    ("corrects", idText),
    ("timing", timingSchema),
    ("resource", resourceSchema),
    ("run", runSchema),
    ("attribution", attributionSchema),
    ("usage", usageSchema),
    ("cost", costSchema)]

def recordObject : Schema :=
  objectSchema 0 ["spec_version", "record_id", "emitter", "timing", "resource", "usage", "run", "attribution"]
    recordProperties none

/-- `schemaErrors`. -/
def schemaErrors (data : Value) : List SchemaError :=
  modelBranch [] data ++ toolBranch [] data ++ recordObject [] data

end Audr.JsRecord
