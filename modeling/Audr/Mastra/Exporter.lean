import Audr.JsRecord.Validate
import Audr.Lib.Transition
import Audr.Mastra.Mapping
import Mathlib.Data.Finset.Insert
import Mathlib.Data.Finset.Erase

/-! `exporter.ts` of the Mastra adapter: spans become records as they end, but for the tool calls
that only wrap a delegated agent or workflow. -/

namespace Audr.Mastra

open JsRecord (Value)
open VercelAi (Attribution LlmUsage)

/-- The type of a span, which Mastra names in snake case. -/
inductive SpanType where
  | modelInference
  | ragEmbedding
  | toolCall
  | mcpToolCall
  | agentRun
  | workflowRun
  | other (name : String)
  deriving DecidableEq

/-- `DELEGATION_SPAN_TYPES`. -/
def SpanType.delegation : SpanType → Bool
  | .agentRun | .workflowRun => true
  | _ => false

/-- An exported span. Reading the attributes or the metadata may throw, which is `none`. -/
structure Span where
  id : String
  traceId : String
  type : SpanType
  parentSpanId : Value
  entityName : Value
  attributes : Option Value
  metadata : Option Value
  startTime : SpanTime
  endTime : SpanTime
  /-- `errorInfo` is there. -/
  failed : Bool

inductive ResourceType where
  | model
  | tool
  deriving DecidableEq

inductive Operation where
  | generation
  | embedding
  | toolExecution
  deriving DecidableEq

structure Resource where
  provider : String
  type : ResourceType
  namespace_ : Option String
  name : String
  operation : Operation
  modality : Option String
  deriving DecidableEq

inductive Usage where
  | llm (usage : LlmUsage)
  | tool (type : String) (callCount : Nat)
  deriving DecidableEq

/-- What a metered span contributes to its record. -/
structure Metered where
  resource : Resource
  usage : Usage
  errorCode : String

structure Run where
  runId : String
  traceId : Option String
  spanId : String
  parentSpanId : Option String
  errorCode : Option String
  deriving DecidableEq

/-- A record, but for what `createRecord` fills in. -/
structure AudrRecord where
  timing : Timing
  resource : Resource
  usage : Usage
  run : Run
  attribution : Attribution

/-- The codes of what is logged. -/
inductive DiagnosticCode where
  | attributionUnresolved
  | resourceUnresolved
  | recordNotQueued
  | exportFailed
  deriving DecidableEq

/-- What becomes of a span on the way to its record: reading it throws, it is left out, with a
warning or without one, or something is made of it. -/
inductive Outcome (α : Type) where
  | threw
  | dropped (warning : Option DiagnosticCode)
  | made (value : α)

/-- What the host's client does with a record. -/
inductive Answer where
  | throws
  | returns (queued : Bool)

/-- The exporter, with the records its client was called with and what was logged. -/
structure Exporter where
  defaults : Option Attribution
  openToolSpans : Finset String
  delegationToolSpans : Finset String
  attempts : List AudrRecord
  diagnostics : List DiagnosticCode

def Exporter.create (defaults : Option Attribution) : Exporter :=
  { defaults
    openToolSpans := ∅
    delegationToolSpans := ∅
    attempts := []
    diagnostics := [] }

namespace Exporter

variable (toLowerCase : String → String)

/-- `#model` and `#embedding`, for an operation and the names it goes by. -/
def modelResource (operation : Operation) (names : List String) (attributes : Value) : Outcome Metered :=
  let name := names.findSome? fun key => nonEmpty (member key attributes)
  match providerSlug toLowerCase (member "provider" attributes), name with
  | some provider, some name =>
      .made
        { resource :=
            { provider, type := .model, namespace_ := none, name, operation, modality := some "text" }
          usage := .llm (toLlmUsage (member "usage" attributes))
          errorCode := modelErrorCode }
  | _, _ => .dropped (some .resourceUnresolved)

/-- `#model`. -/
def model (span : Span) : Outcome Metered :=
  match span.attributes with
  | some attributes => modelResource toLowerCase .generation ["responseModel", "model"] attributes
  | none => .threw

/-- `#embedding`. -/
def embedding (span : Span) : Outcome Metered :=
  match span.attributes with
  | some attributes => modelResource toLowerCase .embedding ["model"] attributes
  | none => .threw

def toolMetered (space : Option String) (name : String) : Metered :=
  { resource :=
      { provider := toolProvider
        type := .tool
        namespace_ := space
        name
        operation := .toolExecution
        modality := none }
    usage := .tool "invocation" 1
    errorCode := toolErrorCode }

/-- `#tool`. The key of the MCP server is the source that defines the tool within the host. -/
def tool (exporter : Exporter) (span : Span) : Outcome Metered :=
  match nonEmpty span.entityName with
  | none => .dropped (some .resourceUnresolved)
  | some name =>
      if span.type = .toolCall then
        if span.id ∈ exporter.delegationToolSpans then .dropped none
        else .made (toolMetered none name)
      else
        match span.attributes with
        | some attributes => .made (toolMetered (nonEmpty (member "mcpServer" attributes)) name)
        | none => .threw

/-- `#meter`, of the `METERED_SPAN_TYPES`; a span of another type is left out. -/
def meter (exporter : Exporter) (span : Span) : Outcome Metered :=
  match span.type with
  | .modelInference => model toLowerCase span
  | .ragEmbedding => embedding toLowerCase span
  | .toolCall | .mcpToolCall => tool exporter span
  | _ => .dropped none

/-- The part of `#record` up to the call of the client. -/
def recordFor (exporter : Exporter) (span : Span) (now : ℤ) : Outcome AudrRecord :=
  match meter toLowerCase exporter span with
  | .threw => .threw
  | .dropped warning => .dropped warning
  | .made metered =>
      match resolveAttribution span.metadata exporter.defaults with
      | none => .threw
      | some .unresolved => .dropped (some .attributionUnresolved)
      | some (.resolved attribution) =>
          .made
            { timing := spanTiming span.startTime span.endTime now
              resource := metered.resource
              usage := metered.usage
              run :=
                { runId := span.traceId
                  traceId := if JsRecord.traceId span.traceId then some span.traceId else none
                  spanId := span.id
                  parentSpanId := nonEmpty span.parentSpanId
                  errorCode := if span.failed then some metered.errorCode else none }
              attribution }

def log (exporter : Exporter) (codes : List DiagnosticCode) : Exporter :=
  { exporter with diagnostics := exporter.diagnostics ++ codes }

/-- `#record`, and what `exportTracingEvent` logs where it throws. -/
def record (exporter : Exporter) (span : Span) (answer : Answer) (now : ℤ) : Exporter :=
  match recordFor toLowerCase exporter span now with
  | .threw => exporter.log [.exportFailed]
  | .dropped warning => exporter.log warning.toList
  | .made made =>
      let called := { exporter with attempts := exporter.attempts ++ [made] }
      match answer with
      | .throws => called.log [.exportFailed]
      | .returns queued => called.log (if queued then [] else [.recordNotQueued])

/-- `#trackDelegationChild`. -/
def trackDelegationChild (exporter : Exporter) (span : Span) : Exporter :=
  if span.type.delegation then
    match nonEmpty span.parentSpanId with
    | some parentSpanId =>
        if parentSpanId ∈ exporter.openToolSpans then
          { exporter with delegationToolSpans := insert parentSpanId exporter.delegationToolSpans }
        else exporter
    | none => exporter
  else exporter

/-- `#trackStarted`. -/
def trackStarted (exporter : Exporter) (span : Span) : Exporter :=
  trackDelegationChild
    (if span.type = .toolCall then { exporter with openToolSpans := insert span.id exporter.openToolSpans } else exporter)
    span

/-- `#finishTool`. -/
def finishTool (exporter : Exporter) (spanId : String) : Exporter :=
  { exporter with
    openToolSpans := exporter.openToolSpans.erase spanId
    delegationToolSpans := exporter.delegationToolSpans.erase spanId }

/-- `exportTracingEvent`, of a span that ended: the tool is finished also where recording throws. -/
def spanEnded (exporter : Exporter) (span : Span) (answer : Answer) (now : ℤ) : Exporter :=
  let recorded := record toLowerCase (exporter.trackDelegationChild span) span answer now
  if span.type = .toolCall then recorded.finishTool span.id else recorded

/-- `shutdown`. -/
def shutdown (exporter : Exporter) : Exporter := { exporter with openToolSpans := ∅, delegationToolSpans := ∅ }

end Exporter

/-- What reaches the exporter; a tracing event that is neither a start nor an end is ignored. -/
inductive Event where
  | spanStarted (span : Span)
  | spanEnded (span : Span) (answer : Answer) (now : ℤ)
  | spanUpdated (span : Span)
  | shutdown

/-- The exporter with the events it has had. -/
structure Traced extends Exporter where
  events : List Event

def Traced.create (defaults : Option Attribution) : Traced := { Exporter.create defaults with events := [] }

/-- The exporter after an event. -/
def Exporter.handle (toLowerCase : String → String) (exporter : Exporter) : Event → Exporter
  | .spanStarted span => exporter.trackStarted span
  | .spanEnded span answer now => exporter.spanEnded toLowerCase span answer now
  | .spanUpdated _ => exporter
  | .shutdown => exporter.shutdown

def step (toLowerCase : String → String) (s : Traced) (event : Event) : Option Traced :=
  some { s.toExporter.handle toLowerCase event with events := s.events ++ [event] }

end Audr.Mastra
