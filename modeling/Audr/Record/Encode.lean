import Audr.Lib.Fields
import Audr.JsRecord.Values
import Audr.Record.Model

/-! `to_plain` and `to_json`: a record as plain JSON types, and as a JSON text with sorted
keys. -/

namespace Audr.Record

open Fields (present)
open Vocabulary (word)

/-- What `model_dump(mode="python", exclude_none=True)` returns. -/
inductive Dump where
  | number (value : Python.Number)
  | datetime (moment : Moment)
  | text (text : String)
  | dict (members : List (String × Dump))

namespace Dump

def count (n : Nat) : Dump := .number (.int n)
def amount {most : Option ℚ} (amount : Amount most) : Dump := .number (.float amount.value)

/-- A block: what is set of its fields, and its extras after them. -/
def block (fields : List (String × Option Dump)) (extra : List (String × Python.Number)) : Dump :=
  .dict (present fields ++ extra.map fun entry => (entry.1, number entry.2))

end Dump

/-! The fields of each block, in the order of the models. -/

def Emitter.fields (emitter : Emitter) : List (String × Option Dump) :=
  [("component", some (.text (word emitter.component))),
    ("name", some (.text emitter.name.text)),
    ("version", some (.text emitter.version.text))]

def Timing.fields (timing : Timing) : List (String × Option Dump) :=
  [("event_time", some (.datetime timing.eventTime)),
    ("received_time", timing.receivedTime.map .datetime),
    ("duration_ms", timing.durationMs.map .count)]

def Resource.fields (resource : Resource) : List (String × Option Dump) :=
  [("provider", some (.text resource.provider.text)),
    ("type", some (.text (word resource.type))),
    ("name", some (.text resource.name.text)),
    ("namespace", resource.nameSpace.map fun name => .text name.text),
    ("operation", some (.text (word resource.operation))),
    ("modality", resource.modality.map fun modality => .text (word modality)),
    ("key_name", resource.keyName.map .text),
    ("region", resource.region.map .text),
    ("deployment", resource.deployment.map fun deployment => .text deployment.text)]

def Run.fields (run : Run) : List (String × Option Dump) :=
  [("run_id", some (.text run.runId.text)),
    ("name", run.name.map fun name => .text name.text),
    ("span_id", some (.text run.spanId.text)),
    ("parent_span_id", run.parentSpanId.map fun id => .text id.text),
    ("step", run.step.map .count),
    ("trace_id", run.traceId.map .text),
    ("run_type", run.runType.map fun type => .text (word type)),
    ("error_code", run.errorCode.map fun code => .text code.text),
    ("error_reason", run.errorReason.map fun reason => .text reason.text),
    ("outcome", run.outcome.map fun outcome => .text (word outcome))]

def labelsDump (labels : List (String × String)) : Dump := .dict (labels.map fun label => (label.1, .text label.2))

def Attribution.dumpFields (attribution : Attribution) : List (String × Option Dump) :=
  [("environment", attribution.environment.map fun environment => .text (word environment)),
    ("user_id", attribution.userId.map .text),
    ("account_id", attribution.accountId.map .text),
    ("subscription_id", attribution.subscriptionId.map .text),
    ("feature_id", attribution.featureId.map .text),
    ("labels", attribution.labels.map labelsDump)]

def LlmUsage.fields (usage : LlmUsage) : List (String × Option Dump) :=
  [("input_tokens", usage.inputTokens.map .count),
    ("output_tokens", usage.outputTokens.map .count),
    ("cache_read_tokens", usage.cacheReadTokens.map .count),
    ("cache_write_tokens", usage.cacheWriteTokens.map .count),
    ("reasoning_tokens", usage.reasoningTokens.map .count),
    ("requests", usage.requests.map .count),
    ("images_processed", usage.imagesProcessed.map .count),
    ("audio_input_seconds", usage.audioInputSeconds.map .amount),
    ("audio_output_seconds", usage.audioOutputSeconds.map .amount)]

def ToolUsage.fields (usage : ToolUsage) : List (String × Option Dump) :=
  [("type", usage.type.map fun type => .text type.text),
    ("call_count", usage.callCount.map .count),
    ("sandbox_time", usage.sandboxTime.map .amount)]

def LlmUsage.dump (usage : LlmUsage) : Dump := .block usage.fields usage.extra.entries
def ToolUsage.dump (usage : ToolUsage) : Dump := .block usage.fields usage.extra.entries

def Usage.fields (usage : Usage) : List (String × Option Dump) :=
  [("llm", usage.llm.map LlmUsage.dump), ("tool", usage.tool.map ToolUsage.dump)]

def LlmCost.fields (cost : LlmCost) : List (String × Option Dump) :=
  [("total_token_cost", some (.amount cost.totalTokenCost)),
    ("input_token_cost", cost.inputTokenCost.map .amount),
    ("output_token_cost", cost.outputTokenCost.map .amount),
    ("cache_read_cost", cost.cacheReadCost.map .amount),
    ("cache_write_cost", cost.cacheWriteCost.map .amount),
    ("reasoning_cost", cost.reasoningCost.map .amount)]

def ToolCost.fields (cost : ToolCost) : List (String × Option Dump) :=
  [("type", cost.type.map fun type => .text type.text),
    ("call_cost", cost.callCost.map .amount),
    ("sandbox_cost", cost.sandboxCost.map .amount)]

def LlmCost.dump (cost : LlmCost) : Dump := .block cost.fields []
def ToolCost.dump (cost : ToolCost) : Dump := .block cost.fields cost.extra.entries

def Cost.fields (cost : Cost) : List (String × Option Dump) :=
  [("total_cost", some (.amount cost.totalCost)),
    ("currency", some (.text cost.currency.text)),
    ("llm", cost.llm.map LlmCost.dump),
    ("tool", cost.tool.map ToolCost.dump),
    ("original_cost", cost.originalCost.map .amount),
    ("discount_amount", cost.discountAmount.map .amount),
    ("discount_percent", cost.discountPercent.map .amount)]

def Emitter.dump (emitter : Emitter) : Dump := .block emitter.fields []
def Timing.dump (timing : Timing) : Dump := .block timing.fields []
def Resource.dump (resource : Resource) : Dump := .block resource.fields []
def Run.dump (run : Run) : Dump := .block run.fields []
def Attribution.dump (attribution : Attribution) : Dump := .block attribution.dumpFields []
def Usage.dump (usage : Usage) : Dump := .block usage.fields []
def Cost.dump (cost : Cost) : Dump := .block cost.fields []

def AUDR.fields (record : AUDR) : List (String × Option Dump) :=
  [("spec_version", some (.text record.specVersion)),
    ("record_id", some (.text record.recordId)),
    ("emitter", record.emitter.map Emitter.dump),
    ("corrects", record.corrects.map fun id => .text id.text),
    ("timing", some record.timing.dump),
    ("resource", some record.resource.dump),
    ("run", some record.run.dump),
    ("attribution", some record.attribution.val.dump),
    ("usage", some record.usage.dump),
    ("cost", record.cost.map Cost.dump)]

def AUDR.dump (record : AUDR) : Dump := .block record.fields []

mutual

/-- `_clean`. -/
def clean (library : Library) : Dump → Except Python.Exception Python.Value
  | .number (.int n) => .ok (.num (.int n))
  | .number (.float value) => if value.isFinite then .ok (.num (.float value)) else .error .valueError
  | .datetime moment => (toRfc3339Ms library moment).map .str
  | .text text => .ok (.str text)
  | .dict members => (cleanMembers library members).map .obj

def cleanMembers (library : Library) : List (String × Dump) → Except Python.Exception (List (String × Python.Value))
  | [] => .ok []
  | (name, value) :: rest => do
      let first ← clean library value
      let others ← cleanMembers library rest
      return (name, first) :: others

end

/-- `to_plain`. -/
def toPlain (library : Library) (record : AUDR) : Except Python.Exception Python.Value := clean library record.dump

/-- What `int.__repr__` writes at most. -/
def digitsLimit : Nat := 4300

/-- `json.dumps` of a number. What is not finite has no text of its own in JSON, and is not
written here; `_clean` has refused it before. -/
def writeNumber (numerals : Numerals) : Python.Number → Except Python.Exception Literal
  | .int n =>
      if (Nat.toDigits 10 n.natAbs).length ≤ digitsLimit then .ok (.int (decide (n < 0)) n.natAbs)
      else .error .valueError
  | .float (.finite q) => .ok (pyLiteral numerals q)
  | .float .negativeZero => .ok (.decimal true 0)
  | .float _ => .error .valueError

def pointsBefore {V : Type} (a b : String × V) : Prop := pointsLe a.1 b.1

instance {V : Type} : DecidableRel (@pointsBefore V) :=
  fun a b => inferInstanceAs (Decidable (codePoints a.1 ≤ codePoints b.1))

/-- `sort_keys=True`, for distinct names. -/
def sortPoints {V : Type} (entries : List (String × V)) : List (String × V) := entries.insertionSort pointsBefore

mutual

/-- `json.dumps(..., sort_keys=True)`. -/
def write (numerals : Numerals) : Python.Value → Except Python.Exception JsRecord.Text
  | .null => .ok .null
  | .bool value => .ok (.bool value)
  | .num number => (writeNumber numerals number).map .num
  | .str text => .ok (.str text)
  | .arr items => (writeItems numerals items).map .arr
  | .obj members => (writeMembers numerals members).map fun written => .obj (sortPoints written)

def writeItems (numerals : Numerals) : List Python.Value → Except Python.Exception (List JsRecord.Text)
  | [] => .ok []
  | item :: rest => do
      let first ← write numerals item
      let others ← writeItems numerals rest
      return first :: others

def writeMembers (numerals : Numerals) :
    List (String × Python.Value) → Except Python.Exception (List (String × JsRecord.Text))
  | [] => .ok []
  | (name, value) :: rest => do
      let first ← write numerals value
      let others ← writeMembers numerals rest
      return (name, first) :: others

end

/-- `AUDR.to_json`, without indentation. -/
def toJson (library : Library) (numerals : Numerals) (record : AUDR) : Except Python.Exception JsRecord.Text := do
  let plain ← toPlain library record
  write numerals plain

end Audr.Record
