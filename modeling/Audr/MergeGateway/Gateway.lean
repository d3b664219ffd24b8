import Audr.JsRecord.Values
import Audr.Lib.Transition
import Audr.MergeGateway.Mapping
import Audr.Scopes

/-! `gateway.ts`: the facade over a Merge Gateway client. Any number of calls run at once, in
scopes of their own; a call's stream may be read by several iterations, which share one flag that
says whether the stream still needs attention. -/

namespace Audr.MergeGateway

open Metering (LlmUsage Cost)
open Scopes (Attribution AudrContext RunContext Scope mergeAttribution nest)

structure Emitter where
  component : String
  name : String
  version : String
  deriving DecidableEq, Repr

/-- `EMITTER`. -/
def emitter : Emitter := ⟨"router", "@openaudr/audr-adapter-merge-gateway", "0.2.0"⟩

inductive OperationName where
  | responsesCreate
  | embeddingsCreate
  deriving DecidableEq, Repr

inductive Modality where
  | text
  | image
  | audio
  | multimodal
  deriving DecidableEq, Repr

/-- `modalities.includes(name)`. -/
def includes (name : String) (modalities : List JsRecord.Value) : Bool :=
  modalities.any fun modality =>
    match modality with
    | .string text => text = name
    | _ => false

/-- `responseModality`; an omitted list means text. -/
def responseModality (params : JsRecord.Value) : Modality :=
  match params with
  | .object _ members =>
      match JsRecord.Value.field "modalities" members with
      | .array modalities =>
          let text := includes "text" modalities
          let image := includes "image" modalities
          let audio := includes "audio" modalities
          if ([text, image, audio].filter id).length > 1 then .multimodal
          else if image then .image
          else if audio then .audio
          else .text
      | _ => .text
  | _ => .text

/-- A metered call, resolved once when it starts. -/
structure Call where
  operation : OperationName
  modality : Modality
  attribution : Attribution
  run : Option RunContext
  startedAt : ℚ

/-- `#defaults`. -/
def defaultsOf (attributionDefaults : Option Attribution) : Attribution := mergeAttribution .empty attributionDefaults

/-- `#begin`; `none` for a call that is not metered. -/
def begin (defaults : Attribution) (scope : Scope) (operation : OperationName) (params : JsRecord.Value) (now : ℚ) :
    Option Call :=
  let attribution := mergeAttribution defaults (some scope.attribution)
  if attribution.environment = none then none
  else
    some
      { operation := operation
        modality :=
          match operation with
          | .responsesCreate => responseModality params
          | .embeddingsCreate => .text
        attribution := attribution
        run := scope.run
        startedAt := now }

/-! The record of a call. -/

structure ResourceMapping where
  provider : String
  name : String
  deriving DecidableEq, Repr

/-- How `client.record()` answers: queued or not, or it throws. -/
inductive Answer where
  | queued
  | refused
  | threw
  deriving DecidableEq, Repr

/-- What a record is made with besides the call and the result: the time, what `mapResource`
answers, with `none` where it throws, two fresh UUIDs, and the answer of the client. -/
structure Surroundings where
  now : ℚ
  mapped : Option (Option ResourceMapping)
  fresh : String × String
  answer : Answer

structure Record where
  emitter : Emitter
  durationMs : ℤ
  provider : String
  type : String
  name : String
  operation : String
  modality : Modality
  usage : LlmUsage
  cost : Option Cost
  runId : String
  spanId : String
  parentSpanId : Option String
  runName : Option String
  runType : String
  errorCode : Option String
  attribution : Attribution

/-- Why a stream produced no record. -/
inductive IncompleteReason where
  | errorFrame
  | ended
  | failed
  | abandoned
  | closed
  deriving DecidableEq, Repr

/-- What becomes of a call: a record handed to the client, or a diagnostic. -/
inductive Outcome where
  | recorded (record : Record) (answer : Answer)
  | attributionUnresolved
  | modelUnreported
  | streamIncomplete (reason : IncompleteReason)
  | hookFailed

/-- `Math.round`. -/
def round (q : ℚ) : ℤ := ⌊q + 1 / 2⌋

/-- The record `#record` builds for a resource. -/
def recordOf (call : Call) (result : GatewayResult) (resource : ResourceMapping) (around : Surroundings) : Record :=
  let generation : Bool := call.operation = .responsesCreate
  let id := result.id.getD around.fresh.1
  { emitter := emitter
    durationMs := round (around.now - call.startedAt)
    provider := resource.provider
    type := "model"
    name := resource.name
    operation := if generation then "generation" else "embedding"
    modality := call.modality
    usage := if generation then responseUsage result.usage else embeddingUsage result.usage
    cost := toCost result.usage
    runId :=
      match call.run with
      | some run => run.runId
      | none => if fitsRunId id then id else around.fresh.2
    spanId := (if generation then "response" else "embedding") ++ ":" ++ id
    parentSpanId := call.run.bind RunContext.parentSpanId
    runName := call.run.bind RunContext.name
    runType := if call.run.isNone then "single_call" else "agent_run"
    errorCode := if result.status = some "failed" then some responseFailedCode else none
    attribution := call.attribution }

/-- `#record`, inside `#guard`: an exception is reported. -/
def record (call : Call) (result : GatewayResult) (around : Surroundings) : Outcome :=
  match around.mapped with
  | none => .hookFailed
  | some mapped =>
      let name := (mapped.map ResourceMapping.name).or result.model
      match name with
      | none => .modelUnreported
      | some name =>
          if name = "" then .modelUnreported
          else
            let provider := (mapped.map ResourceMapping.provider).getD gatewayProvider
            .recorded (recordOf call result ⟨provider, name⟩ around) around.answer

/-! A call of the facade. -/

/-- How the loop over the native stream is being left when its iterator is closed. -/
inductive Leaving where
  | byReturn
  | byThrow
  deriving DecidableEq, Repr

/-- Where an iteration of a stream stands. `skipped` is one that was closed before it began. -/
inductive At where
  | unstarted
  | pulling
  | yielded
  | closing (leaving : Leaving)
  | done
  | skipped
  deriving DecidableEq, Repr

def At.leaving? : At → Option Leaving
  | .closing leaving => some leaving
  | _ => none

/-- How the loop ends once the native iterator is closed: what it throws is passed on, unless the
loop is left by an exception of its own. -/
def Leaving.reason (throws : Bool) : Leaving → IncompleteReason
  | .byReturn => if throws then .failed else .abandoned
  | .byThrow => .failed

/-- An iteration, and the frames its consumer has received; `none` is a frame that is `null`. -/
structure Iteration where
  at_ : At
  received : List (Option GatewayResult)

/-- What the native call resolves to. A stream says whether it has a `close`; a value may refuse
to be looked at, and a result of `none` cannot be read. -/
inductive Native where
  | stream (closable : Bool)
  | hidden
  | result (result : Option GatewayResult)

inductive Phase where
  | pending
  | rejected
  | answered (result : Option GatewayResult)
  | streaming (closable : Bool)

/-- A call, the number of the task it was made in, and what has become of it. `call` is `none`
for a call that is not metered. -/
structure Metered where
  task : Nat
  call : Option Call
  phase : Phase
  «open» : Bool
  iterations : List Iteration
  outcomes : List Outcome

/-- One thing that can happen to a call: its promise settles, the host begins an iteration of its
stream, uses one or closes the stream, or the native stream answers an iteration. -/
inductive CallAct where
  | rejects
  | resolves (native : Native) (around : Surroundings)
  | iterate
  | next (iteration : Nat)
  | «return» (iteration : Nat)
  | throw (iteration : Nat)
  | yields (iteration : Nat) (frame : Option GatewayResult) (around : Surroundings)
  | ends (iteration : Nat)
  | throws (iteration : Nat)
  | closes (iteration : Nat) (throws : Bool)
  | close

namespace Metered

/-- `incomplete`: the first call says why there is no record. -/
def incomplete (reason : IncompleteReason) (m : Metered) : Metered :=
  if m.open then { m with «open» := false, outcomes := m.outcomes ++ [.streamIncomplete reason] } else m

/-- `observe`. -/
def observe (call : Call) (frame : Option GatewayResult) (around : Surroundings) (m : Metered) : Metered :=
  match frame with
  | none => m
  | some result =>
      if result.object = some "response.done" then
        if m.open then { m with «open» := false, outcomes := m.outcomes ++ [record call result around] } else m
      else if result.object = some "response.error" then incomplete .errorFrame m
      else m

/-- Move an iteration that stands at one of some places. -/
def move (iteration : Nat) (next : Iteration → Option Iteration) (m : Metered) : Option Metered := do
  let before ← m.iterations[iteration]?
  let after ← next before
  return { m with iterations := m.iterations.set iteration after }

/-- The end of `measure`, once the native call has settled. -/
def settle (call : Call) (native : Native) (around : Surroundings) (m : Metered) : Metered :=
  match native with
  | .stream closable => { m with phase := .streaming closable, «open» := true }
  | .hidden => { m with phase := .answered none, outcomes := m.outcomes ++ [.hookFailed] }
  | .result none => { m with phase := .answered none, outcomes := m.outcomes ++ [.hookFailed] }
  | .result (some result) =>
      { m with phase := .answered (some result), outcomes := m.outcomes ++ [record call result around] }

/-- One step of a call. -/
def step (m : Metered) : CallAct → Option Metered
  | .rejects => if m.phase matches .pending then some { m with phase := .rejected } else none
  | .resolves native around =>
      if m.phase matches .pending then
        match m.call with
        | none => some { m with phase := .answered none }
        | some call => some (settle call native around m)
      else none
  | .iterate =>
      if m.phase matches .streaming _ then some { m with iterations := m.iterations ++ [⟨.unstarted, []⟩] } else none
  | .next iteration =>
      m.move iteration fun before =>
        match before.at_ with
        | .unstarted | .yielded => some { before with at_ := .pulling }
        | _ => none
  | .return iteration =>
      m.move iteration fun before =>
        match before.at_ with
        | .unstarted => some { before with at_ := .skipped }
        | .yielded => some { before with at_ := .closing .byReturn }
        | _ => none
  | .throw iteration =>
      m.move iteration fun before =>
        match before.at_ with
        | .unstarted => some { before with at_ := .skipped }
        | .yielded => some { before with at_ := .closing .byThrow }
        | _ => none
  | .yields iteration frame around => do
      let call ← m.call
      let moved ← m.move iteration fun before =>
        if before.at_ = .pulling then some ⟨.yielded, before.received ++ [frame]⟩ else none
      return observe call frame around moved
  | .ends iteration => do
      let moved ← m.move iteration fun before => if before.at_ = .pulling then some { before with at_ := .done } else none
      return incomplete .ended moved
  | .throws iteration => do
      let moved ← m.move iteration fun before => if before.at_ = .pulling then some { before with at_ := .done } else none
      return incomplete .failed moved
  | .closes iteration throws => do
      let before ← m.iterations[iteration]?
      let leaving ← before.at_.leaving?
      let moved ← m.move iteration fun before => some { before with at_ := .done }
      return incomplete (leaving.reason throws) moved
  | .close => if m.phase matches .streaming true then some (incomplete .closed m) else none

end Metered

/-! The facade. -/

/-- An asynchronous context: the contexts it was opened in, from the outermost, and its store. -/
structure Task where
  path : List (Option AudrContext)
  scope : Scope

structure Gateway where
  clock : ℚ
  tasks : List Task
  calls : List Metered

/-- The host opens a scope in a task, or makes a call there; or something happens to a call. -/
inductive Act where
  | withAudr (task : Nat) (context : Option AudrContext)
  | create (task : Nat) (operation : OperationName) (params : JsRecord.Value) (now : ℚ)
  | call (number : Nat) (act : CallAct)

/-- The time an act reads the clock, if it does. -/
def Act.now? : Act → Option ℚ
  | .create _ _ _ now => some now
  | .call _ (.resolves _ around) => some around.now
  | .call _ (.yields _ _ around) => some around.now
  | _ => none

namespace Gateway

/-- Outside of all scopes, before the first call. -/
def fresh : Gateway := ⟨0, [⟨[], Scopes.empty⟩], []⟩

/-- One step, with the clock aside. -/
def move (attributionDefaults : Option Attribution) (s : Gateway) : Act → Option Gateway
  | .withAudr task context => do
      let around ← s.tasks[task]?
      return { s with tasks := s.tasks ++ [⟨around.path ++ [context], nest around.scope context⟩] }
  | .create task operation params now => do
      let around ← s.tasks[task]?
      let call := begin (defaultsOf attributionDefaults) around.scope operation params now
      let outcomes := if call.isNone then [Outcome.attributionUnresolved] else []
      return { s with calls := s.calls ++ [⟨task, call, .pending, false, [], outcomes⟩] }
  | .call number act => do
      let before ← s.calls[number]?
      let after ← before.step act
      return { s with calls := s.calls.set number after }

/-- One step. The clock does not go back. -/
def step (attributionDefaults : Option Attribution) (s : Gateway) (act : Act) : Option Gateway :=
  match act.now? with
  | none => s.move attributionDefaults act
  | some now => if s.clock ≤ now then ({ s with clock := now } : Gateway).move attributionDefaults act else none

end Gateway

end Audr.MergeGateway
