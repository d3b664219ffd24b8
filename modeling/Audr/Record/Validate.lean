import Audr.JsRecord.Validate
import Audr.Record.Model

/-! The rules of the Python package that its types do not express: `AUDR.validate`. -/

namespace Audr.Record

open JsRecord (ulid uuid7 hexDigit)

/-- `^1\.\d+\.\d+`, to the end of a text. -/
def versionChars (library : Library) : List Char → Bool
  | '1' :: '.' :: rest =>
      match rest.span (· ≠ '.') with
      | (minor, '.' :: patch) => JsRecord.allOf1 library.digit minor && JsRecord.allOf1 library.digit patch
      | _ => false
  | _ => false

/-- `_SUPPORTED_SPEC_VERSION`. -/
def supportedVersion (library : Library) (version : String) : Bool := pyEnd (versionChars library) version.toList

/-- `_is_record_identifier`. -/
def isRecordIdentifier (value : String) : Bool := pyEnd ulid value.toList || pyEnd uuid7 value.toList

/-- `_TRACE_ID`. -/
def isTraceId (value : String) : Bool := pyEnd (fun text => text.length = 32 && text.all hexDigit) value.toList

/-- An issue where a rule is broken. -/
def issueUnless (holds : Bool) (code : ErrorCode) (path : String) : List Issue := if holds then [] else [⟨code, path⟩]

/-- `_envelope_issues`. -/
def envelopeIssues (library : Library) (record : AUDR) : List Issue :=
  issueUnless (supportedVersion library record.specVersion) .unsupportedVersion "/spec_version" ++
    issueUnless (isRecordIdentifier record.recordId) .invalidIdentifier "/record_id" ++
    issueUnless (record.corrects.all fun id => isRecordIdentifier id.text) .invalidIdentifier "/corrects"

/-- `_emitter_issues`. -/
def emitterIssues (record : AUDR) : List Issue := issueUnless record.emitter.isSome .required "/emitter"

/-- `_FUTURE_SKEW`. -/
def futureSkew : Int := 300000000

/-- `_timing_issues`; the time is that of a clock of UTC. -/
def timingIssues (now : Int) (record : AUDR) : List Issue :=
  issueUnless (record.timing.eventTime.belowMillisecond = 0) .millisecondPrecision "/timing/event_time" ++
    issueUnless (record.timing.eventTime.utc ≤ now + futureSkew) .futureEventTime "/timing/event_time" ++
    issueUnless record.timing.receivedTime.isNone .forbidden "/timing/received_time"

/-- `_is_empty_block`. -/
def LlmUsage.isEmpty (usage : LlmUsage) : Bool :=
  usage.extra.entries.isEmpty && usage.inputTokens.isNone && usage.outputTokens.isNone && usage.cacheReadTokens.isNone &&
    usage.cacheWriteTokens.isNone && usage.reasoningTokens.isNone && usage.requests.isNone &&
    usage.imagesProcessed.isNone && usage.audioInputSeconds.isNone && usage.audioOutputSeconds.isNone

def ToolUsage.isEmpty (usage : ToolUsage) : Bool :=
  usage.extra.entries.isEmpty && usage.type.isNone && usage.callCount.isNone && usage.sandboxTime.isNone

/-- `operation in _MODEL_OPERATIONS`; all others are `_TOOL_OPERATIONS`. -/
def Operation.ofModel : Operation → Bool
  | .generation | .embedding | .reranking => true
  | .toolExecution | .retrieval => false

/-- `_shape_issues`. -/
def shapeIssues (record : AUDR) : List Issue :=
  issueUnless (record.usage.llm.isNone != record.usage.tool.isNone) .invalidStructure "/usage" ++
    issueUnless (record.usage.llm.all fun usage => !usage.isEmpty) .emptyUsage "/usage/llm" ++
    issueUnless (record.usage.tool.all fun usage => !usage.isEmpty) .emptyUsage "/usage/tool" ++
    if record.resource.operation.ofModel then
      issueUnless (record.resource.type = .model) .invalidStructure "/resource/type" ++
        issueUnless record.resource.modality.isSome .required "/resource/modality" ++
        issueUnless record.usage.llm.isSome .invalidStructure "/usage" ++
        issueUnless (record.cost.all fun cost => cost.tool.isNone) .forbidden "/cost/tool" ++
        issueUnless record.resource.nameSpace.isNone .forbidden "/resource/namespace"
    else
      issueUnless (record.resource.type = .tool) .invalidStructure "/resource/type" ++
        issueUnless record.usage.tool.isSome .invalidStructure "/usage" ++
        issueUnless (record.cost.all fun cost => cost.llm.isNone) .forbidden "/cost/llm"

/-- `_run_issues`. -/
def runIssues (record : AUDR) : List Issue :=
  issueUnless (record.run.traceId.all isTraceId) .invalidIdentifier "/run/trace_id"

def Attribution.IssueCode.code : Attribution.IssueCode → ErrorCode
  | .required => .required
  | .nonPseudonymousId => .nonPseudonymousId

/-- `attribution_issues`, in the catalogue. -/
def attributionIssues (attribution : Attribution) : List Issue :=
  attribution.issues.map fun issue => ⟨issue.1.code, issue.2⟩

/-- `AUDR.validate`: `cross_field_issues` at a time. -/
def AUDR.validate (library : Library) (now : Int) (record : AUDR) : List Issue :=
  (envelopeIssues library record ++ emitterIssues record ++ timingIssues now record ++ shapeIssues record ++
    runIssues record ++ attributionIssues record.attribution.val).eraseDups

end Audr.Record
