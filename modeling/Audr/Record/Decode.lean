import Audr.Record.Encode
import Audr.Record.Validate

/-! `AUDR.from_dict` and `AUDR.from_json`: the models Pydantic builds from decoded JSON, in its
lax mode. What Pydantic makes of other kinds of values than a field's own is a parameter. -/

namespace Audr.Record

open JsRecord (providerPattern currencyPattern finiteValue)
open Vocabulary (ofWord)

/-- What Pydantic takes for numbers and for aware datetimes. -/
structure Pydantic where
  int : Python.Value → Option Int
  float : Python.Value → Option Double
  datetime : Python.Value → Option Moment
  int_int : ∀ n, int (.num (.int n)) = some n
  float_float : ∀ value, (∀ q, value = .finite q → Double.Representable q) → float (.num (.float value)) = some value
  float_double : ∀ value q, float value = some (.finite q) → Double.Representable q
  datetime_text : ∀ micros, micros < momentsEnd → 1000 ≤ (clockParts micros).year →
    datetime (.str (String.ofList (clockParts micros).text)) = some ⟨(micros / 1000 * 1000 : Nat), 0⟩

/-- A value of a field, where `None` is the same as absent. -/
def optionalField {A : Type} (check : Python.Value → Option A) (name : String) (members : List (String × Python.Value)) :
    Option (Option A) :=
  match Json.get? name members with
  | none => some none
  | some .null => some none
  | some value => (check value).map some

def requiredField {A : Type} (check : Python.Value → Option A) (name : String) (members : List (String × Python.Value)) :
    Option A :=
  (Json.get? name members).bind check

def checkText (least : Nat) (most : Option Nat) : Python.Value → Option (BoundedText least most)
  | .str text =>
      if fits : least ≤ text.toList.length ∧ ∀ limit ∈ most, text.toList.length ≤ limit then some ⟨text, fits.1, fits.2⟩
      else none
  | _ => none

def checkString : Python.Value → Option String
  | .str text => some text
  | _ => none

def checkMatching (pattern : String → Bool) : Python.Value → Option (Matching pattern)
  | .str text => if admitted : pattern text = true then some ⟨text, admitted⟩ else none
  | _ => none

/-- `Literal[...]`. -/
def checkWord (E : Type) [Vocabulary E] : Python.Value → Option E
  | .str text => ofWord text
  | _ => none

/-- `int` with `ge=0`. -/
def checkCount (pydantic : Pydantic) (value : Python.Value) : Option Nat :=
  (pydantic.int value).bind fun n => if 0 ≤ n then some n.toNat else none

/-- `value < least` fails, as for what is not a number. -/
def notBelow (value : Double) : Bool :=
  match value with
  | .finite q => decide (0 ≤ q)
  | .infinite negative => !negative
  | _ => true

def notAbove (most : Option ℚ) (value : Double) : Bool :=
  match value with
  | .finite q => most.all fun limit => decide (q ≤ limit)
  | .infinite negative => negative || most.isNone
  | _ => true

/-- `float` with `ge=0` and possibly `le`. -/
def checkAmount (pydantic : Pydantic) (most : Option ℚ) (value : Python.Value) : Option (Amount most) :=
  match read : pydantic.float value with
  | some number =>
      if fits : notBelow number = true ∧ notAbove most number = true then
        some
          { value := number
            representable := fun q same => pydantic.float_double value q (same ▸ read)
            nonneg := by
              obtain ⟨low, -⟩ := fits
              constructor
              · rintro rfl
                cases low
              · rintro q rfl
                exact of_decide_eq_true low
            short := by
              obtain ⟨-, high⟩ := fits
              intro limit given
              cases given
              constructor
              · rintro rfl
                cases high
              · rintro q rfl
                exact of_decide_eq_true high }
      else none
  | none => none

/-- Nothing but the fields of a closed block. -/
def closedTo (names : List String) (members : List (String × Python.Value)) : Bool :=
  members.all fun entry => decide (entry.1 ∈ names)

instance : DecidablePred Counted
  | .int n => inferInstanceAs (Decidable (0 ≤ n))
  | .float (.finite q) =>
      decidable_of_iff (0 ≤ q ∧ Double.Representable q) (by simp [Counted, finiteValue])
  | .float .negativeZero => .isTrue ⟨0, rfl, le_refl 0, Double.representable_zero⟩
  | .float (.infinite negative) => .isFalse (by simp [Counted, finiteValue])
  | .float .nan => .isFalse (by simp [Counted, finiteValue])

/-- `_check_extensions`, for one extra. -/
def checkExtra (entry : String × Python.Value) : Option (String × Python.Number) :=
  match entry.2 with
  | .num number => if extensionKey entry.1 = true ∧ Counted number then some (entry.1, number) else none
  | _ => none

/-- What is no field of an extensible block; a mapping has each name once. -/
def checkExtensions (names : List String) (members : List (String × Python.Value)) : Option Extensions :=
  match (members.filter fun entry => decide (entry.1 ∉ names)).mapM checkExtra with
  | some entries =>
      if distinct : (entries.map Prod.fst).Nodup ∧ ∀ entry ∈ entries, extensionKey entry.1 = true ∧ Counted entry.2 then
        some ⟨entries, distinct.1, fun entry member => (distinct.2 entry member).1,
          fun entry member => (distinct.2 entry member).2⟩
      else none
  | none => none

/-- A block is read from a mapping. -/
def checkBlock {A : Type} (check : List (String × Python.Value) → Option A) : Python.Value → Option A
  | .obj members => check members
  | _ => none

def checkEmitter : Python.Value → Option Emitter := checkBlock fun members => do
  let component ← requiredField (checkWord Component) "component" members
  let name ← requiredField (checkText 1 none) "name" members
  let version ← requiredField (checkText 1 none) "version" members
  guard (closedTo ["component", "name", "version"] members)
  return ⟨component, name, version⟩

def checkMoment (pydantic : Pydantic) : Python.Value → Option Moment := pydantic.datetime

/-- An event time that is left out is that of the construction. -/
def checkTiming (pydantic : Pydantic) (now : Moment) : Python.Value → Option Timing := checkBlock fun members => do
  let eventTime ← match Json.get? "event_time" members with
    | none => some now
    | some value => checkMoment pydantic value
  let receivedTime ← optionalField (checkMoment pydantic) "received_time" members
  let durationMs ← optionalField (checkCount pydantic) "duration_ms" members
  guard (closedTo ["event_time", "received_time", "duration_ms"] members)
  return ⟨eventTime, receivedTime, durationMs⟩

def checkResource : Python.Value → Option Resource := checkBlock fun members => do
  let provider ← requiredField (checkMatching providerPattern) "provider" members
  let type ← requiredField (checkWord ResourceType) "type" members
  let name ← requiredField (checkText 1 none) "name" members
  let nameSpace ← optionalField (checkText 1 none) "namespace" members
  let operation ← requiredField (checkWord Operation) "operation" members
  let modality ← optionalField (checkWord Modality) "modality" members
  let keyName ← optionalField checkString "key_name" members
  let region ← optionalField checkString "region" members
  let deployment ← optionalField (checkText 1 none) "deployment" members
  guard (closedTo ["provider", "type", "name", "namespace", "operation", "modality", "key_name", "region", "deployment"]
    members)
  return ⟨provider, type, name, nameSpace, operation, modality, keyName, region, deployment⟩

def checkRun (pydantic : Pydantic) : Python.Value → Option Run := checkBlock fun members => do
  let runId ← requiredField (checkText 8 (some 64)) "run_id" members
  let name ← optionalField (checkText 1 none) "name" members
  let spanId ← requiredField (checkText 1 none) "span_id" members
  let parentSpanId ← optionalField (checkText 1 none) "parent_span_id" members
  let step ← optionalField (checkCount pydantic) "step" members
  let traceId ← optionalField checkString "trace_id" members
  let runType ← optionalField (checkWord RunType) "run_type" members
  let errorCode ← optionalField (checkText 1 none) "error_code" members
  let errorReason ← optionalField (checkText 0 (some 32)) "error_reason" members
  let outcome ← optionalField (checkWord RunOutcome) "outcome" members
  guard (closedTo ["run_id", "name", "span_id", "parent_span_id", "step", "trace_id", "run_type", "error_code",
    "error_reason", "outcome"] members)
  return ⟨runId, name, spanId, parentSpanId, step, traceId, runType, errorCode, errorReason, outcome⟩

instance (attribution : Attribution) : Decidable attribution.Checked :=
  decidable_of_iff
    ((∀ id ∈ attribution.accountId, 1 ≤ id.toList.length) ∧ (∀ id ∈ attribution.featureId, 1 ≤ id.toList.length) ∧
      (∀ labels ∈ attribution.labels, labels.length ≤ 20) ∧
      (∀ labels ∈ attribution.labels, (labels.map Prod.fst).Nodup) ∧
      ∀ labels ∈ attribution.labels, ∀ label ∈ labels,
        Attribution.labelKey label.1 = true ∧ Attribution.labelValue label.2 = true)
    ⟨fun held => ⟨held.1, held.2.1, held.2.2.1, held.2.2.2.1, held.2.2.2.2⟩,
      fun checked => ⟨checked.accountId, checked.featureId, checked.few, checked.distinct, checked.each⟩⟩

def checkAttribution : Python.Value → Option { attribution : Attribution // attribution.Checked } :=
  checkBlock fun members =>
    match Attribution.modelValidate members with
    | .ok attribution => if checked : attribution.Checked then some ⟨attribution, checked⟩ else none
    | .error _ => none

def llmUsageNames : List String :=
  ["input_tokens", "output_tokens", "cache_read_tokens", "cache_write_tokens", "reasoning_tokens", "requests",
    "images_processed", "audio_input_seconds", "audio_output_seconds"]

def checkLlmUsage (pydantic : Pydantic) : Python.Value → Option LlmUsage := checkBlock fun members => do
  let inputTokens ← optionalField (checkCount pydantic) "input_tokens" members
  let outputTokens ← optionalField (checkCount pydantic) "output_tokens" members
  let cacheReadTokens ← optionalField (checkCount pydantic) "cache_read_tokens" members
  let cacheWriteTokens ← optionalField (checkCount pydantic) "cache_write_tokens" members
  let reasoningTokens ← optionalField (checkCount pydantic) "reasoning_tokens" members
  let requests ← optionalField (checkCount pydantic) "requests" members
  let imagesProcessed ← optionalField (checkCount pydantic) "images_processed" members
  let audioInputSeconds ← optionalField (checkAmount pydantic none) "audio_input_seconds" members
  let audioOutputSeconds ← optionalField (checkAmount pydantic none) "audio_output_seconds" members
  let extra ← checkExtensions llmUsageNames members
  return ⟨inputTokens, outputTokens, cacheReadTokens, cacheWriteTokens, reasoningTokens, requests, imagesProcessed,
    audioInputSeconds, audioOutputSeconds, extra⟩

def checkToolUsage (pydantic : Pydantic) : Python.Value → Option ToolUsage := checkBlock fun members => do
  let type ← optionalField (checkText 1 none) "type" members
  let callCount ← optionalField (checkCount pydantic) "call_count" members
  let sandboxTime ← optionalField (checkAmount pydantic none) "sandbox_time" members
  let extra ← checkExtensions ["type", "call_count", "sandbox_time"] members
  return ⟨type, callCount, sandboxTime, extra⟩

def checkUsage (pydantic : Pydantic) : Python.Value → Option Usage := checkBlock fun members => do
  let llm ← optionalField (checkLlmUsage pydantic) "llm" members
  let tool ← optionalField (checkToolUsage pydantic) "tool" members
  guard (closedTo ["llm", "tool"] members)
  return ⟨llm, tool⟩

def checkLlmCost (pydantic : Pydantic) : Python.Value → Option LlmCost := checkBlock fun members => do
  let totalTokenCost ← requiredField (checkAmount pydantic none) "total_token_cost" members
  let inputTokenCost ← optionalField (checkAmount pydantic none) "input_token_cost" members
  let outputTokenCost ← optionalField (checkAmount pydantic none) "output_token_cost" members
  let cacheReadCost ← optionalField (checkAmount pydantic none) "cache_read_cost" members
  let cacheWriteCost ← optionalField (checkAmount pydantic none) "cache_write_cost" members
  let reasoningCost ← optionalField (checkAmount pydantic none) "reasoning_cost" members
  guard (closedTo ["total_token_cost", "input_token_cost", "output_token_cost", "cache_read_cost", "cache_write_cost",
    "reasoning_cost"] members)
  return ⟨totalTokenCost, inputTokenCost, outputTokenCost, cacheReadCost, cacheWriteCost, reasoningCost⟩

def checkToolCost (pydantic : Pydantic) : Python.Value → Option ToolCost := checkBlock fun members => do
  let type ← optionalField (checkText 1 none) "type" members
  let callCost ← optionalField (checkAmount pydantic none) "call_cost" members
  let sandboxCost ← optionalField (checkAmount pydantic none) "sandbox_cost" members
  let extra ← checkExtensions ["type", "call_cost", "sandbox_cost"] members
  return ⟨type, callCost, sandboxCost, extra⟩

def checkCost (pydantic : Pydantic) : Python.Value → Option Cost := checkBlock fun members => do
  let totalCost ← requiredField (checkAmount pydantic none) "total_cost" members
  let currency ← requiredField (checkMatching currencyPattern) "currency" members
  let llm ← optionalField (checkLlmCost pydantic) "llm" members
  let tool ← optionalField (checkToolCost pydantic) "tool" members
  let originalCost ← optionalField (checkAmount pydantic none) "original_cost" members
  let discountAmount ← optionalField (checkAmount pydantic none) "discount_amount" members
  let discountPercent ← optionalField (checkAmount pydantic (some 100)) "discount_percent" members
  guard (closedTo ["total_cost", "currency", "llm", "tool", "original_cost", "discount_amount", "discount_percent"] members)
  return ⟨totalCost, currency, llm, tool, originalCost, discountAmount, discountPercent⟩

/-- `SPEC_VERSION`. -/
def specVersion : String := "1.1.0"

/-- What a record takes from its surroundings where it is silent: a new identifier and the time. -/
structure Minted where
  recordId : String
  now : Moment

/-- A value of a field that has a default. -/
def defaultedField {A : Type} (check : Python.Value → Option A) (default' : A) (name : String)
    (members : List (String × Python.Value)) : Option A :=
  match Json.get? name members with
  | none => some default'
  | some value => check value

/-- `AUDR.model_validate`. -/
def modelValidate (pydantic : Pydantic) (minted : Minted) : List (String × Python.Value) → Option AUDR := fun members => do
  let version ← defaultedField checkString specVersion "spec_version" members
  let recordId ← defaultedField checkString minted.recordId "record_id" members
  let emitter ← optionalField checkEmitter "emitter" members
  let corrects ← optionalField (checkText 8 (some 64)) "corrects" members
  let timing ← requiredField (checkTiming pydantic minted.now) "timing" members
  let resource ← requiredField checkResource "resource" members
  let run ← requiredField (checkRun pydantic) "run" members
  let attribution ← requiredField checkAttribution "attribution" members
  let usage ← requiredField (checkUsage pydantic) "usage" members
  let cost ← optionalField (checkCost pydantic) "cost" members
  guard (closedTo ["spec_version", "record_id", "emitter", "corrects", "timing", "resource", "run", "attribution", "usage",
    "cost"] members)
  return ⟨version, recordId, emitter, corrects, timing, resource, run, attribution, usage, cost⟩

/-- `int` and `float` of what stands in a text. -/
def readNumber : Literal → Except Python.Exception Python.Number
  | .int negative magnitude =>
      if (Nat.toDigits 10 magnitude).length ≤ digitsLimit then .ok (.int (if negative then -magnitude else magnitude))
      else .error .valueError
  | literal => .ok (.float literal.double)

mutual

/-- `json.loads`: later members of a name replace earlier ones. -/
def loads : JsRecord.Text → Except Python.Exception Python.Value
  | .null => .ok .null
  | .bool value => .ok (.bool value)
  | .num literal => (readNumber literal).map .num
  | .str text => .ok (.str text)
  | .arr items => (loadsItems items).map .arr
  | .obj members => (loadsMembers members).map fun loaded =>
      .obj (loaded.foldl (fun object entry => Properties.assign object entry.1 entry.2) [])

def loadsItems : List JsRecord.Text → Except Python.Exception (List Python.Value)
  | [] => .ok []
  | item :: rest => do
      let first ← loads item
      let others ← loadsItems rest
      return first :: others

def loadsMembers : List (String × JsRecord.Text) → Except Python.Exception (List (String × Python.Value))
  | [] => .ok []
  | (name, value) :: rest => do
      let first ← loads value
      let others ← loadsMembers rest
      return (name, first) :: others

end

/-- Why no record is returned: an exception of Python, the issues of a `ValidationError`, or the
errors of Pydantic as one. -/
inductive Refusal where
  | raised (exception : Python.Exception)
  | issues (issues : List Issue)
  | unfit
  deriving DecidableEq

/-- `version_issues`. -/
def versionIssues (library : Library) (members : List (String × Python.Value)) : List Issue :=
  match Json.get? "spec_version" members with
  | none => [⟨.required, "/spec_version"⟩]
  | some (.str declared) => issueUnless (supportedVersion library declared) .unsupportedVersion "/spec_version"
  | some _ => []

/-- `AUDR.ensure_valid`, at a time. -/
def ensureValid (library : Library) (now : Int) (record : AUDR) : Except Refusal AUDR :=
  match record.validate library now with
  | [] => .ok record
  | issues => .error (.issues issues)

/-- `AUDR.from_dict`. -/
def fromDict (library : Library) (pydantic : Pydantic) (minted : Minted) (now : Int) (members : List (String × Python.Value)) :
    Except Refusal AUDR :=
  match versionIssues library members with
  | [] =>
      match modelValidate pydantic minted members with
      | some record => ensureValid library now record
      | none => .error .unfit
  | issues => .error (.issues issues)

/-- `AUDR.from_json`. -/
def fromJson (library : Library) (pydantic : Pydantic) (minted : Minted) (now : Int) (text : JsRecord.Text) : Except Refusal AUDR :=
  match loads text with
  | .error exception => .error (.raised exception)
  | .ok (.obj members) => fromDict library pydantic minted now members
  | .ok _ => .error (.issues [⟨.invalidType, "/"⟩])

end Audr.Record
