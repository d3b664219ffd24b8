import Audr.Lib.OrderedMap
import Audr.Lib.Transition
import Audr.VercelAi.Attribution
import Audr.VercelAi.Mapping

/-! `runs.ts` and `telemetry.ts` of the Vercel AI adapter. A call is an object that outlives its
entry in the tracker: a tool that runs on, and a hook that is in the host's `mapResource`,
still hold it. Objects and step counters are named by their places in a heap. -/

namespace Audr.VercelAi

open JsRecord (Value)

structure CallInfo where
  callId : String
  /-- The call's own `callId` for a root; the root's `runId` for a child. -/
  runId : String
  operationId : String
  /-- The tool span that started this call; set on every record of a child. -/
  parentSpanId : Option String
  attribution : Attribution
  runType : RunType
  name : Option String
  /-- The counter of the `run.step` sequence, shared by a root and every child it starts. -/
  steps : Nat

structure TrackedCall extends CallInfo where
  modelCalls : Nat
  rerankCalls : Nat
  toolCalls : Nat
  openToolSpans : List (String × String)
  embedStartTimes : List (String × ℚ)
  rerankStartedAt : Option ℚ

def TrackedCall.fresh (info : CallInfo) : TrackedCall :=
  { info with
    modelCalls := 0
    rerankCalls := 0
    toolCalls := 0
    openToolSpans := []
    embedStartTimes := []
    rerankStartedAt := none }

/-- A tool span and the call it belongs to. -/
structure ToolSpan where
  call : Nat
  spanId : String
  deriving DecidableEq

/-- An entry of the shared `AsyncLocalStorage`: a span of this tracker, or of another one. -/
inductive ActiveToolSpan where
  | own (span : ToolSpan)
  | foreign
  deriving DecidableEq

def ActiveToolSpan.own? : ActiveToolSpan → Option ToolSpan
  | .own span => some span
  | .foreign => none

/-- The innermost tool span of this tracker. -/
def currentToolSpan (active : List ActiveToolSpan) : Option ToolSpan :=
  (active.filterMap ActiveToolSpan.own?).getLast?

inductive ResourceType where
  | model
  | tool
  deriving DecidableEq, Repr

inductive Operation where
  | generation
  | embedding
  | reranking
  | toolExecution
  deriving DecidableEq, Repr

structure Resource where
  provider : String
  type : ResourceType
  name : String
  operation : Operation
  modality : Option String
  deriving DecidableEq

inductive Usage where
  | llm (usage : LlmUsage)
  | tool (callCount : Nat)
  deriving DecidableEq

structure RecordParts where
  spanId : String
  durationMs : Option Double
  resource : Resource
  usage : Usage
  errorCode : Option String

structure Run where
  runId : String
  spanId : String
  step : Nat
  runType : RunType
  parentSpanId : Option String
  name : Option String
  errorCode : Option String
  deriving DecidableEq

/-- A record, but for what `createRecord` fills in. -/
structure AudrRecord where
  durationMs : Option Double
  resource : Resource
  usage : Usage
  run : Run
  attribution : Attribution

structure ResourceSource where
  provider : String
  modelId : String

/-- What the host's `mapResource` does; without one the default is kept. -/
inductive ResourceAnswer where
  | throws
  | keeps
  | maps (provider name : String)

/-- The end of a provider call, as its hook has read it when it calls `mapResource`. -/
inductive EndEvent where
  | model (callId : String) (responseTimeMs : Value) (usage : LanguageModelUsage)
  | embed (embedCallId : String) (startedAt : Option ℚ) (tokens : Value)
  | rerank (callId : String) (startedAt : Option ℚ)

def EndEvent.operation : EndEvent → Operation
  | .model _ _ _ => .generation
  | .embed _ _ _ => .embedding
  | .rerank _ _ => .reranking

/-- A hook that is in `mapResource`. -/
structure Hook where
  call : Nat
  source : ResourceSource
  event : EndEvent

structure StartEvent where
  callId : String
  operationId : String
  functionId : Option String
  runtimeContext : Value

/-- A record with the call it was produced for. -/
structure Produced where
  call : Nat
  record : AudrRecord

/-- One integration: its calls by `callId`, what it holds by reference, and what has happened.
`parents` has the call each child was started in, `toolSpans` the spans opened so far. -/
structure Telemetry where
  defaults : Option Attribution
  calls : List (String × Nat)
  objects : List TrackedCall
  counters : List Nat
  contexts : List (List ActiveToolSpan)
  hooks : List Hook
  records : List Produced
  parents : List (Option Nat)
  toolSpans : List ToolSpan
  starts : List String
  embedEnds : List String

def Telemetry.create (defaults : Option Attribution) : Telemetry :=
  { defaults
    calls := []
    objects := []
    counters := []
    contexts := [[]]
    hooks := []
    records := []
    parents := []
    toolSpans := []
    starts := []
    embedEnds := [] }

/-- The hooks of the AI SDK, the end of a `mapResource`, and the `executeTool` of another
integration. A context is named by its place in `contexts`. -/
inductive Event where
  | onStart (context : Nat) (event : StartEvent)
  | onLanguageModelCallEnd (callId : String) (source : ResourceSource) (responseTimeMs : Value)
      (usage : LanguageModelUsage)
  | onToolExecutionStart (callId toolCallId : String)
  | onToolExecutionEnd (callId toolCallId toolName : String) (failed : Bool) (toolExecutionMs : Value)
  | onEmbedStart (callId embedCallId : String) (now : ℚ)
  | onEmbedEnd (callId embedCallId : String) (source : ResourceSource) (tokens : Value)
  | onRerankStart (callId : String) (now : ℚ)
  | onRerankEnd (callId : String) (source : ResourceSource)
  | onEnd (callId : String)
  | onAbort (callId : String)
  | onError (callId : Option String)
  | executeTool (context : Nat) (callId toolCallId : String)
  | executeForeignTool (context : Nat)
  | resourceMapped (hook : Nat) (answer : ResourceAnswer) (now : ℚ)

namespace Telemetry

/-- `#add`. -/
def add (s : Telemetry) (info : CallInfo) (parent : Option Nat) : Telemetry :=
  { s with
    calls := OrderedMap.set s.calls info.callId s.objects.length
    objects := s.objects ++ [TrackedCall.fresh info]
    parents := s.parents ++ [parent] }

def startRoot (s : Telemetry) (callId operationId : String) (attribution : Attribution) (runType : RunType)
    (name : Option String) : Telemetry :=
  let info : CallInfo :=
    { callId, operationId, attribution, runType, name, runId := callId, parentSpanId := none, steps := s.counters.length }
  { s with counters := s.counters ++ [0] }.add info none

def startChild (s : Telemetry) (callId operationId : String) (span : ToolSpan) : Telemetry :=
  match s.objects[span.call]? with
  | some parent =>
      s.add
        { callId, operationId, runId := parent.runId, parentSpanId := some span.spanId
          attribution := parent.attribution, runType := parent.runType, name := parent.name, steps := parent.steps }
        (some span.call)
  | none => s

/-- Change a call in place. -/
def modify (s : Telemetry) (call : Nat) (change : TrackedCall → TrackedCall) : Telemetry :=
  { s with objects := s.objects.modify call change }

/-- Do something with a call, if it is tracked. -/
def withCall (s : Telemetry) (callId : String) (body : Nat → TrackedCall → Telemetry) : Telemetry :=
  match OrderedMap.get? s.calls callId with
  | none => s
  | some call =>
      match s.objects[call]? with
      | none => s
      | some tracked => body call tracked

def end_ (s : Telemetry) (callId : String) : Telemetry := { s with calls := OrderedMap.erase s.calls callId }

def openToolSpan (s : Telemetry) (call : Nat) (tracked : TrackedCall) (toolCallId : String) : String × Telemetry :=
  let spanId := toolSpanId tracked.callId tracked.toolCalls toolCallId
  let opened := s.modify call fun tracked =>
    { tracked with
      toolCalls := tracked.toolCalls + 1
      openToolSpans := OrderedMap.set tracked.openToolSpans toolCallId spanId }
  (spanId, { opened with toolSpans := s.toolSpans ++ [⟨call, spanId⟩] })

def toolSpanFor (s : Telemetry) (call : Nat) (tracked : TrackedCall) (toolCallId : String) : String × Telemetry :=
  match OrderedMap.get? tracked.openToolSpans toolCallId with
  | some spanId => (spanId, s)
  | none => s.openToolSpan call tracked toolCallId

def closeToolSpan (s : Telemetry) (call : Nat) (tracked : TrackedCall) (toolCallId : String) : String × Telemetry :=
  let (spanId, found) := s.toolSpanFor call tracked toolCallId
  (spanId, found.modify call fun tracked =>
    { tracked with openToolSpans := OrderedMap.erase tracked.openToolSpans toolCallId })

/-- `#record`, up to the client. -/
def record (s : Telemetry) (call : Nat) (info : CallInfo) (parts : RecordParts) : Telemetry :=
  let step := s.counters.getD info.steps 0
  let run : Run :=
    { runId := info.runId, spanId := parts.spanId, step, runType := info.runType, parentSpanId := info.parentSpanId
      name := info.name, errorCode := parts.errorCode }
  let record : AudrRecord :=
    { durationMs := parts.durationMs, resource := parts.resource, usage := parts.usage, run
      attribution := info.attribution }
  { s with
    counters := s.counters.set info.steps (step + 1)
    records := s.records ++ [⟨call, record⟩] }

/-- `#modelResource`, with the modality its callers add. -/
def modelResource (toLowerCase : String → String) (source : ResourceSource) (operation : Operation) :
    ResourceAnswer → Option Resource
  | .throws => none
  | .keeps =>
      ((providerSlug toLowerCase source.provider).filter isProviderSlug).map fun slug =>
        ⟨slug, .model, source.modelId, operation, some "text"⟩
  | .maps provider name =>
      if isProviderSlug provider then some ⟨provider, .model, name, operation, some "text"⟩ else none

def onStart (s : Telemetry) (active : List ActiveToolSpan) (event : StartEvent) : Telemetry :=
  let s := { s with starts := s.starts ++ [event.callId] }
  if !isSupportedOperation event.operationId then s
  else
    match currentToolSpan active with
    | some span => s.startChild event.callId event.operationId span
    | none =>
        let source : AttributionSource :=
          ⟨event.operationId, nonEmpty event.functionId, asObject event.runtimeContext⟩
        match resolveAttribution source s.defaults with
        | none => s
        | some attribution =>
            s.startRoot event.callId event.operationId attribution (runTypeFor event.operationId) source.functionId

/-- A hook calls `mapResource`. -/
def enter (s : Telemetry) (hook : Hook) : Telemetry := { s with hooks := s.hooks ++ [hook] }

def onToolExecutionEnd (s : Telemetry) (call : Nat) (tracked : TrackedCall) (toolCallId toolName : String)
    (failed : Bool) (toolExecutionMs : Value) : Telemetry :=
  let (spanId, closed) := s.closeToolSpan call tracked toolCallId
  closed.record call tracked.toCallInfo
    { spanId
      durationMs := durationMs toolExecutionMs
      resource := ⟨toolProvider, .tool, toolName, .toolExecution, none⟩
      usage := .tool 1
      errorCode := if failed then some toolErrorCode else none }

def elapsedSince (startedAt : Option ℚ) (now : ℚ) : Option Double :=
  startedAt.bind fun start => durationMs (.number (Double.ofRat (now - start)))

/-- A hook goes on with the resource it was given. -/
def resume (s : Telemetry) (call : Nat) (tracked : TrackedCall) (event : EndEvent) (resource : Resource) (now : ℚ) :
    Telemetry :=
  match event with
  | .model callId responseTimeMs usage =>
      (s.modify call fun tracked => { tracked with modelCalls := tracked.modelCalls + 1 }).record call tracked.toCallInfo
        { spanId := modelSpanId callId tracked.modelCalls
          durationMs := durationMs responseTimeMs
          resource
          usage := .llm (toLlmUsage usage)
          errorCode := none }
  | .embed embedCallId startedAt tokens =>
      s.record call tracked.toCallInfo
        { spanId := embedSpanId embedCallId
          durationMs := elapsedSince startedAt now
          resource
          usage := .llm ⟨counter tokens, none, none, none, none, 1⟩
          errorCode := none }
  | .rerank callId startedAt =>
      (s.modify call fun tracked => { tracked with rerankCalls := tracked.rerankCalls + 1 }).record call tracked.toCallInfo
        { spanId := rerankSpanId callId tracked.rerankCalls
          durationMs := elapsedSince startedAt now
          resource
          usage := .llm ⟨none, none, none, none, none, 1⟩
          errorCode := none }

def executeTool (s : Telemetry) (active : List ActiveToolSpan) (call : Nat) (tracked : TrackedCall)
    (toolCallId : String) : Telemetry :=
  let (spanId, found) := s.toolSpanFor call tracked toolCallId
  { found with contexts := found.contexts ++ [active ++ [.own ⟨call, spanId⟩]] }

/-- One event; `none` where there is no such context or hook. -/
def step (toLowerCase : String → String) (s : Telemetry) : Event → Option Telemetry
  | .onStart context event => s.contexts[context]?.map fun active => s.onStart active event
  | .onLanguageModelCallEnd callId source responseTimeMs usage =>
      some (s.withCall callId fun call _ => s.enter ⟨call, source, .model callId responseTimeMs usage⟩)
  | .onToolExecutionStart callId toolCallId =>
      some (s.withCall callId fun call tracked => (s.openToolSpan call tracked toolCallId).2)
  | .onToolExecutionEnd callId toolCallId toolName failed toolExecutionMs =>
      some (s.withCall callId fun call tracked =>
        s.onToolExecutionEnd call tracked toolCallId toolName failed toolExecutionMs)
  | .onEmbedStart callId embedCallId now =>
      some (s.withCall callId fun call _ => s.modify call fun tracked =>
        { tracked with embedStartTimes := OrderedMap.set tracked.embedStartTimes embedCallId now })
  | .onEmbedEnd callId embedCallId source tokens =>
      let s := { s with embedEnds := s.embedEnds ++ [embedCallId] }
      some (s.withCall callId fun call tracked =>
        (s.modify call fun tracked =>
          { tracked with embedStartTimes := OrderedMap.erase tracked.embedStartTimes embedCallId }).enter
            ⟨call, source, .embed embedCallId (OrderedMap.get? tracked.embedStartTimes embedCallId) tokens⟩)
  | .onRerankStart callId now =>
      some (s.withCall callId fun call _ => s.modify call fun tracked => { tracked with rerankStartedAt := some now })
  | .onRerankEnd callId source =>
      some (s.withCall callId fun call tracked =>
        (s.modify call fun tracked => { tracked with rerankStartedAt := none }).enter
          ⟨call, source, .rerank callId tracked.rerankStartedAt⟩)
  | .onEnd callId => some (s.end_ callId)
  | .onAbort callId => some (s.end_ callId)
  | .onError callId =>
      match callId with
      | some callId => some (s.end_ callId)
      | none => some s
  | .executeTool context callId toolCallId =>
      s.contexts[context]?.map fun active =>
        s.withCall callId fun call tracked => s.executeTool active call tracked toolCallId
  | .executeForeignTool context =>
      s.contexts[context]?.map fun active => { s with contexts := s.contexts ++ [active ++ [.foreign]] }
  | .resourceMapped place answer now =>
      match s.hooks[place]? with
      | none => none
      | some hook =>
          let s := { s with hooks := s.hooks.eraseIdx place }
          match modelResource toLowerCase hook.source hook.event.operation answer, s.objects[hook.call]? with
          | some resource, some tracked => some (s.resume hook.call tracked hook.event resource now)
          | _, _ => some s

/-- `onStart` fires once per call, call ids have no colon, and an embedding ends once. -/
def wellBehaved (s : Telemetry) : Event → Prop
  | .onStart _ event => event.callId ∉ s.starts ∧ colonFree event.callId
  | .onEmbedEnd _ embedCallId _ _ => embedCallId ∉ s.embedEnds
  | _ => True

instance (s : Telemetry) : (event : Event) → Decidable (s.wellBehaved event)
  | .onStart _ event => inferInstanceAs (Decidable (event.callId ∉ s.starts ∧ colonFree event.callId))
  | .onEmbedEnd _ embedCallId _ _ => inferInstanceAs (Decidable (embedCallId ∉ s.embedEnds))
  | .onLanguageModelCallEnd _ _ _ _ | .onToolExecutionStart _ _ | .onToolExecutionEnd _ _ _ _ _ | .onEmbedStart _ _ _
  | .onRerankStart _ _ | .onRerankEnd _ _ | .onEnd _ | .onAbort _ | .onError _ | .executeTool _ _ _
  | .executeForeignTool _ | .resourceMapped _ _ _ => instDecidableTrue

end Telemetry

end Audr.VercelAi
