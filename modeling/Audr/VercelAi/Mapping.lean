import Audr.JsRecord.Values
import Mathlib.Data.List.DropRight

/-! `mapping.ts` of the Vercel AI adapter: counters, durations and providers as records have
them, and the ids of spans. -/

namespace Audr.VercelAi

open JsRecord (Value)

/-- Written to `run.error_code` on a failed tool execution. -/
def toolErrorCode : String := "VERCEL_AI_TOOL_ERROR"

/-- `resource.provider` for every client-side tool. -/
def toolProvider : String := "self-hosted"

/-- A character of `[a-z0-9-]`. -/
def slugChar (c : Char) : Bool := c.isLower || c.isDigit || c = '-'

/-- Each entry matches the id itself and every `<id>.<api>` below it. -/
def providerAliases : List (List String × String) :=
  [(["gateway"], "vercel-ai-gateway"), (["azure"], "azure-openai"),
    (["amazon-bedrock", "bedrock", "bedrock-mantle"], "aws-bedrock"),
    (["google.vertex", "googleVertex", "vertex"], "google-vertex")]

/-- A finite integer that is not negative. -/
def counter : Value → Option ℚ
  | .number (.finite q) => if q.isInt ∧ 0 ≤ q then some q else none
  | .number .negativeZero => some 0
  | _ => none

/-- Whole milliseconds; `Math.round` takes the upper one of two that are as near. -/
def durationMs : Value → Option Double
  | .number (.finite q) => if 0 ≤ q then some (.finite ⌊q + 1 / 2⌋) else none
  | .number .negativeZero => some .negativeZero
  | _ => none

/-- The counters of an AI SDK usage. -/
structure LanguageModelUsage where
  inputTokens : Value
  noCacheTokens : Value
  cacheReadTokens : Value
  cacheWriteTokens : Value
  outputTokens : Value
  textTokens : Value
  reasoningTokens : Value

structure LlmUsage where
  inputTokens : Option ℚ
  outputTokens : Option ℚ
  cacheReadTokens : Option ℚ
  cacheWriteTokens : Option ℚ
  reasoningTokens : Option ℚ
  requests : Nat
  deriving DecidableEq

def subtract (total : Option ℚ) (part : ℚ) : Option ℚ :=
  total.map fun total => max (Double.nearest (total - part)) 0

/-- Input without cache reads and writes, output without reasoning. -/
def toLlmUsage (usage : LanguageModelUsage) : LlmUsage :=
  let cacheRead := counter usage.cacheReadTokens
  let cacheWrite := counter usage.cacheWriteTokens
  let reasoning := counter usage.reasoningTokens
  let cached := Double.nearest (cacheRead.getD 0 + cacheWrite.getD 0)
  { inputTokens := (counter usage.noCacheTokens).or (subtract (counter usage.inputTokens) cached)
    outputTokens := (counter usage.textTokens).or (subtract (counter usage.outputTokens) (reasoning.getD 0))
    cacheReadTokens := cacheRead
    cacheWriteTokens := cacheWrite
    reasoningTokens := reasoning
    requests := 1 }

def isProviderSlug (slug : String) : Bool := !slug.toList.isEmpty && slug.toList.all slugChar

/-- Runs of other characters replaced by one dash. -/
def dashed : Bool → List Char → List Char
  | _, [] => []
  | within, c :: rest =>
      if slugChar c then c :: dashed false rest
      else if within then dashed true rest
      else '-' :: dashed true rest

/-- `providerSlug`; `toLowerCase` is that of the language. -/
def providerSlug (toLowerCase : String → String) (provider : String) : Option String :=
  let under (id : String) : Bool := provider = id || (id ++ ".").toList.isPrefixOf provider.toList
  match providerAliases.find? fun entry => entry.1.any under with
  | some entry => some entry.2
  | none =>
      let head := String.ofList (provider.toList.takeWhile fun c => c ≠ '.')
      let slug := ((dashed false (toLowerCase head).toList).dropWhile fun c => c = '-').rdropWhile fun c => c = '-'
      if slug.isEmpty then none else some (String.ofList slug)

def unsupportedOperations : List String := ["ai.generateObject", "ai.streamObject"]

def isSupportedOperation (operationId : String) : Bool := operationId ∉ unsupportedOperations

inductive RunType where
  | agentRun
  | singleCall
  deriving DecidableEq, Repr

def runTypeFor (operationId : String) : RunType :=
  if operationId = "ai.generateText" ∨ operationId = "ai.streamText" then .agentRun else .singleCall

def modelSpanId (callId : String) (index : Nat) : String := "model:" ++ callId ++ ":" ++ toString index

def toolSpanId (callId : String) (index : Nat) (toolCallId : String) : String :=
  "tool:" ++ callId ++ ":" ++ toString index ++ ":" ++ toolCallId

def embedSpanId (embedCallId : String) : String := "embed:" ++ embedCallId

def rerankSpanId (callId : String) (index : Nat) : String := "rerank:" ++ callId ++ ":" ++ toString index

/-! What a span id was made of. -/

/-- The parts of a span id. -/
inductive Span where
  | model (callId : String) (index : Nat)
  | tool (callId : String) (index : Nat) (toolCallId : String)
  | embed (embedCallId : String)
  | rerank (callId : String) (index : Nat)
  deriving DecidableEq

def Span.id : Span → String
  | .model callId index => modelSpanId callId index
  | .tool callId index toolCallId => toolSpanId callId index toolCallId
  | .embed embedCallId => embedSpanId embedCallId
  | .rerank callId index => rerankSpanId callId index

/-- The call a span belongs to; an embedding has an id of its own. -/
def Span.callId? : Span → Option String
  | .model callId _ => some callId
  | .tool callId _ _ => some callId
  | .embed _ => none
  | .rerank callId _ => some callId

def colonFree (text : String) : Prop := ':' ∉ text.toList

instance (text : String) : Decidable (colonFree text) := inferInstanceAs (Decidable (':' ∉ text.toList))

/-- A text without colons ends at the first one. -/
theorem append_colon_inj {a b x y : List Char} (first : ':' ∉ a) (second : ':' ∉ b)
    (same : a ++ ':' :: x = b ++ ':' :: y) : a = b ∧ x = y := by
  induction a generalizing b with
  | nil =>
    cases b with
    | nil => exact ⟨rfl, (List.cons.inj same).2⟩
    | cons d rest => exact absurd ((List.cons.inj same).1 ▸ List.mem_cons_self) second
  | cons c tail ih =>
    cases b with
    | nil => exact absurd ((List.cons.inj same).1 ▸ List.mem_cons_self) first
    | cons d rest =>
      obtain ⟨rfl, later⟩ := List.cons.inj same
      obtain ⟨rfl, rest_⟩ := ih (fun inside => first (List.mem_cons_of_mem _ inside))
        (fun inside => second (List.mem_cons_of_mem _ inside)) later
      exact ⟨rfl, rest_⟩

theorem toList_index (index : Nat) : (toString index).toList = Nat.toDigits 10 index := by
  rw [Nat.toString_eq_repr, Nat.repr, String.toList_ofList]

theorem colonFree_index (index : Nat) : colonFree (toString index) := by
  intro inside
  rw [toList_index] at inside
  have digit : ':'.isDigit = true := Nat.isDigit_of_mem_toDigits (b := 10) (by decide) (by decide) inside
  exact absurd digit (by decide)

theorem toList_index_inj {m n : Nat} (same : (toString m).toList = (toString n).toList) : m = n := by
  rw [toList_index, toList_index] at same
  calc m = Nat.ofDigitChars 10 (Nat.toDigits 10 m) 0 := (Nat.ofDigitChars_ten_toDigits).symm
    _ = Nat.ofDigitChars 10 (Nat.toDigits 10 n) 0 := by rw [same]
    _ = n := Nat.ofDigitChars_ten_toDigits

/-- A call id, a colon and an index. -/
theorem numbered_inj {a b : String} {m n : Nat} (first : colonFree a) (second : colonFree b)
    (same : a.toList ++ ':' :: (toString m).toList = b.toList ++ ':' :: (toString n).toList) : a = b ∧ m = n := by
  obtain ⟨calls, indices⟩ := append_colon_inj first second same
  exact ⟨String.toList_inj.mp calls, toList_index_inj indices⟩

/-- Calls without colons in their ids have different spans under different span ids. -/
theorem Span.id_inj {a b : Span} (first : ∀ callId ∈ a.callId?, colonFree callId)
    (second : ∀ callId ∈ b.callId?, colonFree callId) (same : a.id = b.id) : a = b := by
  have spelled := String.toList_inj.mpr same
  cases a with
  | model callId index =>
    cases b with
    | model other_ place =>
      simp only [Span.id, modelSpanId, String.toList_append] at spelled
      obtain ⟨rfl, rfl⟩ := numbered_inj (first _ rfl) (second _ rfl) (by simpa using spelled)
      rfl
    | tool => simp [Span.id, modelSpanId, toolSpanId] at spelled
    | embed => simp [Span.id, modelSpanId, embedSpanId] at spelled
    | rerank => simp [Span.id, modelSpanId, rerankSpanId] at spelled
  | tool callId index toolCallId =>
    cases b with
    | model => simp [Span.id, modelSpanId, toolSpanId] at spelled
    | tool other_ place named =>
      have parts : callId.toList ++ ':' :: ((toString index).toList ++ ':' :: toolCallId.toList) =
          other_.toList ++ ':' :: ((toString place).toList ++ ':' :: named.toList) := by
        simpa [Span.id, toolSpanId] using spelled
      obtain ⟨calls, rest⟩ := append_colon_inj (first _ rfl) (second _ rfl) parts
      obtain ⟨indices, names⟩ := append_colon_inj (colonFree_index index) (colonFree_index place) rest
      rw [String.toList_inj.mp calls, toList_index_inj indices, String.toList_inj.mp names]
    | embed => simp [Span.id, toolSpanId, embedSpanId] at spelled
    | rerank => simp [Span.id, toolSpanId, rerankSpanId] at spelled
  | embed embedCallId =>
    cases b with
    | model => simp [Span.id, modelSpanId, embedSpanId] at spelled
    | tool => simp [Span.id, toolSpanId, embedSpanId] at spelled
    | embed other_ =>
      have ids : embedCallId.toList = other_.toList := by simpa [Span.id, embedSpanId] using spelled
      rw [String.toList_inj.mp ids]
    | rerank => simp [Span.id, embedSpanId, rerankSpanId] at spelled
  | rerank callId index =>
    cases b with
    | model => simp [Span.id, modelSpanId, rerankSpanId] at spelled
    | tool => simp [Span.id, toolSpanId, rerankSpanId] at spelled
    | embed => simp [Span.id, embedSpanId, rerankSpanId] at spelled
    | rerank other_ place =>
      simp only [Span.id, rerankSpanId, String.toList_append] at spelled
      obtain ⟨rfl, rfl⟩ := numbered_inj (first _ rfl) (second _ rfl) (by simpa using spelled)
      rfl

end Audr.VercelAi
