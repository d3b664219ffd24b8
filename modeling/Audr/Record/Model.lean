import Audr.JsRecord.Schema
import Audr.Lib.Vocabulary
import Audr.Record.Attribution
import Audr.Record.Moment

/-! The record of the Python package: what an instance of its models holds once Pydantic has
checked the fields it was built from. -/

namespace Audr.Record

open JsRecord (providerPattern currencyPattern finiteValue)

/-! The kinds of fields. -/

/-- A string of bounded length, counted in code points. -/
structure BoundedText (least : Nat) (most : Option Nat) where
  text : String
  long : least ≤ text.toList.length
  short : ∀ limit ∈ most, text.toList.length ≤ limit
  deriving DecidableEq

/-- A string Pydantic matches against a pattern. -/
structure Matching (pattern : String → Bool) where
  text : String
  admitted : pattern text = true
  deriving DecidableEq

/-- A `float` of at least zero, as Pydantic compares it: not a number is let through. -/
structure Amount (most : Option ℚ) where
  value : Double
  representable : ∀ q, value = .finite q → Double.Representable q
  nonneg : value ≠ .infinite true ∧ ∀ q, value = .finite q → 0 ≤ q
  short : ∀ limit ∈ most, value ≠ .infinite false ∧ ∀ q, value = .finite q → q ≤ limit

inductive Component where
  | harness
  | router
  | provider
  deriving DecidableEq, Repr

instance : Vocabulary Component where
  members := [.harness, .router, .provider]
  word
    | .harness => "harness"
    | .router => "router"
    | .provider => "provider"
  complete := by
    intro component
    cases component <;> simp
  distinct := by simp

inductive ResourceType where
  | model
  | tool
  deriving DecidableEq, Repr

instance : Vocabulary ResourceType where
  members := [.model, .tool]
  word
    | .model => "model"
    | .tool => "tool"
  complete := by
    intro type
    cases type <;> simp
  distinct := by simp

inductive Operation where
  | generation
  | embedding
  | reranking
  | toolExecution
  | retrieval
  deriving DecidableEq, Repr

instance : Vocabulary Operation where
  members := [.generation, .embedding, .reranking, .toolExecution, .retrieval]
  word
    | .generation => "generation"
    | .embedding => "embedding"
    | .reranking => "reranking"
    | .toolExecution => "tool_execution"
    | .retrieval => "retrieval"
  complete := by
    intro operation
    cases operation <;> simp
  distinct := by simp

inductive Modality where
  | text
  | image
  | audio
  | multimodal
  deriving DecidableEq, Repr

instance : Vocabulary Modality where
  members := [.text, .image, .audio, .multimodal]
  word
    | .text => "text"
    | .image => "image"
    | .audio => "audio"
    | .multimodal => "multimodal"
  complete := by
    intro modality
    cases modality <;> simp
  distinct := by simp

inductive RunType where
  | agentRun
  | workflow
  | singleCall
  deriving DecidableEq, Repr

instance : Vocabulary RunType where
  members := [.agentRun, .workflow, .singleCall]
  word
    | .agentRun => "agent_run"
    | .workflow => "workflow"
    | .singleCall => "single_call"
  complete := by
    intro type
    cases type <;> simp
  distinct := by simp

inductive RunOutcome where
  | resolved
  | escalated
  | abandoned
  | failed
  deriving DecidableEq, Repr

instance : Vocabulary RunOutcome where
  members := [.resolved, .escalated, .abandoned, .failed]
  word
    | .resolved => "resolved"
    | .escalated => "escalated"
    | .abandoned => "abandoned"
    | .failed => "failed"
  complete := by
    intro outcome
    cases outcome <;> simp
  distinct := by simp

instance : Vocabulary Environment where
  members := [.production, .staging, .development, .test, .evaluation]
  word := Environment.toString
  complete := by
    intro environment
    cases environment <;> simp
  distinct := by simp [Environment.toString]

/-! Extension counters. -/

/-- `$` also matches before a newline that ends the text. -/
def pyEnd (test : List Char → Bool) (text : List Char) : Bool :=
  test text || (text.getLast? = some '\n' && test text.dropLast)

/-- `_EXTENSION`. -/
def extensionKey (key : String) : Bool := pyEnd (fun text => JsRecord.extensionPattern (String.ofList text)) key.toList

/-- A number that is no `bool`, is finite and is not below zero. -/
def Counted : Python.Number → Prop
  | .int n => 0 ≤ n
  | .float value => ∃ q, finiteValue value = some q ∧ 0 ≤ q ∧ Double.Representable q

/-- `model_extra` of an `ExtensibleBase`, once `_check_extensions` has passed. -/
structure Extensions where
  entries : List (String × Python.Number)
  distinct : (entries.map Prod.fst).Nodup
  named : ∀ entry ∈ entries, extensionKey entry.1 = true
  counted : ∀ entry ∈ entries, Counted entry.2

/-! The blocks of a record. -/

structure Emitter where
  component : Component
  name : BoundedText 1 none
  version : BoundedText 1 none

structure Timing where
  eventTime : Moment
  receivedTime : Option Moment
  durationMs : Option Nat

structure Resource where
  provider : Matching providerPattern
  type : ResourceType
  name : BoundedText 1 none
  nameSpace : Option (BoundedText 1 none)
  operation : Operation
  modality : Option Modality
  keyName : Option String
  region : Option String
  deployment : Option (BoundedText 1 none)

structure Run where
  runId : BoundedText 8 (some 64)
  name : Option (BoundedText 1 none)
  spanId : BoundedText 1 none
  parentSpanId : Option (BoundedText 1 none)
  step : Option Nat
  traceId : Option String
  runType : Option RunType
  errorCode : Option (BoundedText 1 none)
  errorReason : Option (BoundedText 0 (some 32))
  outcome : Option RunOutcome

/-- What Pydantic has checked of an `Attribution`. -/
structure Attribution.Checked (attribution : Attribution) : Prop where
  accountId : ∀ id ∈ attribution.accountId, 1 ≤ id.toList.length
  featureId : ∀ id ∈ attribution.featureId, 1 ≤ id.toList.length
  few : ∀ labels ∈ attribution.labels, labels.length ≤ 20
  distinct : ∀ labels ∈ attribution.labels, (labels.map Prod.fst).Nodup
  each : ∀ labels ∈ attribution.labels, ∀ label ∈ labels,
    Attribution.labelKey label.1 = true ∧ Attribution.labelValue label.2 = true

structure LlmUsage where
  inputTokens : Option Nat
  outputTokens : Option Nat
  cacheReadTokens : Option Nat
  cacheWriteTokens : Option Nat
  reasoningTokens : Option Nat
  requests : Option Nat
  imagesProcessed : Option Nat
  audioInputSeconds : Option (Amount none)
  audioOutputSeconds : Option (Amount none)
  extra : Extensions

structure ToolUsage where
  type : Option (BoundedText 1 none)
  callCount : Option Nat
  sandboxTime : Option (Amount none)
  extra : Extensions

structure Usage where
  llm : Option LlmUsage
  tool : Option ToolUsage

structure LlmCost where
  totalTokenCost : Amount none
  inputTokenCost : Option (Amount none)
  outputTokenCost : Option (Amount none)
  cacheReadCost : Option (Amount none)
  cacheWriteCost : Option (Amount none)
  reasoningCost : Option (Amount none)

structure ToolCost where
  type : Option (BoundedText 1 none)
  callCost : Option (Amount none)
  sandboxCost : Option (Amount none)
  extra : Extensions

structure Cost where
  totalCost : Amount none
  currency : Matching currencyPattern
  llm : Option LlmCost
  tool : Option ToolCost
  originalCost : Option (Amount none)
  discountAmount : Option (Amount none)
  discountPercent : Option (Amount (some 100))

/-- `AUDR`: the version and the identifier are checked by `validate` only, and an emitter may
still be missing. -/
structure AUDR where
  specVersion : String
  recordId : String
  emitter : Option Emitter
  corrects : Option (BoundedText 8 (some 64))
  timing : Timing
  resource : Resource
  run : Run
  attribution : { attribution : Attribution // attribution.Checked }
  usage : Usage
  cost : Option Cost

end Audr.Record
