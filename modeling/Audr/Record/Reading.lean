import Audr.Record.Agreement
import Audr.Record.Loading

/-! What Pydantic builds from a record that was written in Python. -/

namespace Audr.Record

open Fields (present)
open Vocabulary (word ofWord ofWord_word)

variable {library : Library} {pydantic : Pydantic} {value : Python.Value} {values : List (String × Python.Value)}
  {fields : List (String × Option Dump)} {extra : List (String × Python.Number)} {name : String}

/-! Fields of a block. -/

namespace Holds

variable {A : Type} {check : Python.Value → Option A} {dump : Dump} {shown : A → Dump} {held : Option A}

theorem found (holds : Holds library fields extra values) (listed : (name, some dump) ∈ fields) :
    ∃ value, Json.get? name values = some value ∧ Loaded library dump value := by
  have same : Option.Rel (Loaded library) (some dump) (Json.get? name values) := holds.field _ listed
  cases read : Json.get? name values with
  | none =>
    rw [read] at same
    cases same
  | some value =>
    rw [read] at same
    cases same with
    | some loaded => exact ⟨value, rfl, loaded⟩

theorem absent (holds : Holds library fields extra values) (listed : (name, none) ∈ fields) : Json.get? name values = none := by
  have same : Option.Rel (Loaded library) none (Json.get? name values) := holds.field _ listed
  cases read : Json.get? name values with
  | none => rfl
  | some value =>
    rw [read] at same
    cases same

theorem required_related (holds : Holds library fields extra values) (name : String) {relation : A → Prop}
    (reads : ∀ {value}, Loaded library dump value → ∃ found, check value = some found ∧ relation found)
    (listed : (name, some dump) ∈ fields) : ∃ found, requiredField check name values = some found ∧ relation found := by
  obtain ⟨value, read, loaded⟩ := holds.found listed
  rw [requiredField, read]
  exact reads loaded

theorem required (holds : Holds library fields extra values) (name : String) {found : A}
    (reads : ∀ {value}, Loaded library dump value → check value = some found) (listed : (name, some dump) ∈ fields) :
    requiredField check name values = some found := by
  obtain ⟨value, read, loaded⟩ := holds.found listed
  rw [requiredField, read]
  exact reads loaded

theorem defaulted (holds : Holds library fields extra values) (name : String) {default' found : A}
    (reads : ∀ {value}, Loaded library dump value → check value = some found) (listed : (name, some dump) ∈ fields) :
    defaultedField check default' name values = some found := by
  obtain ⟨value, read, loaded⟩ := holds.found listed
  rw [defaultedField, read]
  exact reads loaded

theorem loaded_null : ¬ Loaded library dump .null := by
  intro loaded
  cases loaded

theorem optional_related (holds : Holds library fields extra values) (name : String) {B : Type}
    {check : Python.Value → Option B} {relation : A → B → Prop}
    (reads : ∀ a ∈ held, ∀ {value}, Loaded library (shown a) value → ∃ b, check value = some b ∧ relation a b)
    (listed : (name, held.map shown) ∈ fields) :
    ∃ found, optionalField check name values = some found ∧ Option.Rel relation held found := by
  cases held with
  | none =>
    rw [optionalField, holds.absent listed]
    exact ⟨none, rfl, .none⟩
  | some a =>
    obtain ⟨value, read, loaded⟩ := holds.found listed
    obtain ⟨b, checked, related⟩ := reads a rfl loaded
    have given : optionalField check name values = (check value).map some := by
      rw [optionalField, read]
      cases value with
      | null => exact absurd loaded loaded_null
      | _ => rfl
    rw [given, checked]
    exact ⟨some b, rfl, .some related⟩

theorem optional_map (holds : Holds library fields extra values) (name : String) {B : Type}
    {check : Python.Value → Option B} (image : A → B)
    (reads : ∀ a ∈ held, ∀ {value}, Loaded library (shown a) value → check value = some (image a))
    (listed : (name, held.map shown) ∈ fields) : optionalField check name values = some (held.map image) := by
  have all : ∃ found, optionalField check name values = some found ∧ Option.Rel (fun a b => image a = b) held found :=
    holds.optional_related name (fun a given _ loaded => ⟨image a, reads a given loaded, rfl⟩) listed
  obtain ⟨found, read, related⟩ := all
  cases related with
  | none => exact read
  | some same =>
    rw [read, ← same]
    rfl

theorem optional (holds : Holds library fields extra values) (name : String)
    (reads : ∀ a ∈ held, ∀ {value}, Loaded library (shown a) value → check value = some a)
    (listed : (name, held.map shown) ∈ fields) : optionalField check name values = some held := by
  have image := holds.optional_map name id reads listed
  rw [Option.map_id] at image
  exact image

/-- There is nothing but the fields. -/
theorem closed (holds : Holds library fields [] values) : closedTo (fields.map Prod.fst) values = true := by
  apply List.all_eq_true.mpr
  intro entry member
  have listed := (holds.only entry member).resolve_right List.not_mem_nil
  exact decide_eq_true listed

end Holds

/-! Single values. -/

theorem text_loaded {least : Nat} {most : Option Nat} (text : BoundedText least most)
    (loaded : Loaded library (.text text.text) value) : checkText least most value = some text := by
  cases loaded
  exact dif_pos ⟨text.long, text.short⟩

theorem string_loaded (text : String) (loaded : Loaded library (.text text) value) : checkString value = some text := by
  cases loaded
  rfl

theorem matching_loaded {pattern : String → Bool} (text : Matching pattern) (loaded : Loaded library (.text text.text) value) :
    checkMatching pattern value = some text := by
  cases loaded
  exact dif_pos text.admitted

theorem word_loaded {E : Type} [Vocabulary E] (e : E) (loaded : Loaded library (.text (word e)) value) :
    checkWord E value = some e := by
  cases loaded
  exact ofWord_word e

theorem count_loaded (n : Nat) (loaded : Loaded library (.count n) value) : checkCount pydantic value = some n := by
  cases loaded
  simp [checkCount, pydantic.int_int]

theorem amount_loaded {most : Option ℚ} (amount : Amount most) (loaded : Loaded library (.amount amount) value) :
    checkAmount pydantic most value = some amount := by
  cases loaded
  have read := pydantic.float_float amount.value amount.representable
  have low : notBelow amount.value = true := by
    cases same : amount.value with
    | finite q => exact decide_eq_true (amount.nonneg.2 q same)
    | infinite negative =>
      cases negative with
      | false => rfl
      | true => exact absurd same amount.nonneg.1
    | _ => rfl
  have high : notAbove most amount.value = true := by
    cases same : amount.value with
    | finite q =>
      rw [notAbove, Option.all_eq_true]
      intro limit given
      exact decide_eq_true ((amount.short limit given).2 q same)
    | infinite negative =>
      cases negative with
      | false =>
        cases most with
        | none => rfl
        | some limit => exact absurd same (amount.short limit rfl).1
      | true => rfl
    | _ => rfl
  unfold checkAmount
  split
  next number found =>
    have value' : number = amount.value := Option.some.inj (found.symm.trans read)
    subst value'
    rw [dif_pos ⟨low, high⟩]
  next missing =>
    rw [read] at missing
    cases missing

/-- A moment in whole milliseconds, on a clock of UTC. -/
def Moment.rounded (moment : Moment) : Moment := ⟨moment.utc / 1000 * 1000, 0⟩

theorem moment_loaded {moment : Moment} (modern : 1000 ≤ (clockParts moment.utc.toNat).year)
    (loaded : Loaded library (.datetime moment) value) : checkMoment pydantic value = some moment.rounded := by
  cases loaded with
  | datetime inside =>
    have small : moment.utc.toNat < momentsEnd := by omega
    rw [clockText_eq library small modern, checkMoment, pydantic.datetime_text _ small modern, Moment.rounded]
    congr 2
    omega

/-! Blocks without extras. -/

theorem emitter_loaded (emitter : Emitter) (loaded : Loaded library emitter.dump value) : checkEmitter value = some emitter := by
  obtain ⟨values, rfl, holds⟩ := block_holds (separate_nil (by simp [Emitter.fields])) loaded
  have component := holds.required "component" (word_loaded emitter.component) (by simp [Emitter.fields])
  have name := holds.required "name" (text_loaded emitter.name) (by simp [Emitter.fields])
  have version := holds.required "version" (text_loaded emitter.version) (by simp [Emitter.fields])
  have closed : closedTo ["component", "name", "version"] values = true := holds.closed
  simp [checkEmitter, checkBlock, component, name, version, closed]

theorem resource_loaded (resource : Resource) (loaded : Loaded library resource.dump value) :
    checkResource value = some resource := by
  obtain ⟨values, rfl, holds⟩ := block_holds (resource_separate resource) loaded
  have provider := holds.required "provider" (matching_loaded resource.provider) (by simp [Resource.fields])
  have type := holds.required "type" (word_loaded resource.type) (by simp [Resource.fields])
  have name := holds.required "name" (text_loaded resource.name) (by simp [Resource.fields])
  have nameSpace : optionalField (checkText 1 none) "namespace" values = some resource.nameSpace :=
    holds.optional _ (fun a _ => text_loaded a) (by simp [Resource.fields])
  have operation := holds.required "operation" (word_loaded resource.operation) (by simp [Resource.fields])
  have modality : optionalField (checkWord Modality) "modality" values = some resource.modality :=
    holds.optional _ (fun a _ => word_loaded a) (by simp [Resource.fields])
  have keyName : optionalField checkString "key_name" values = some resource.keyName :=
    holds.optional _ (fun a _ => string_loaded a) (by simp [Resource.fields])
  have region : optionalField checkString "region" values = some resource.region :=
    holds.optional _ (fun a _ => string_loaded a) (by simp [Resource.fields])
  have deployment : optionalField (checkText 1 none) "deployment" values = some resource.deployment :=
    holds.optional _ (fun a _ => text_loaded a) (by simp [Resource.fields])
  have closed : closedTo ["provider", "type", "name", "namespace", "operation", "modality", "key_name", "region",
    "deployment"] values = true := holds.closed
  simp [checkResource, checkBlock, provider, type, name, nameSpace, operation, modality, keyName, region, deployment,
    closed]

theorem run_loaded (run : Run) (loaded : Loaded library run.dump value) : checkRun pydantic value = some run := by
  obtain ⟨values, rfl, holds⟩ := block_holds (run_separate run) loaded
  have runId := holds.required "run_id" (text_loaded run.runId) (by simp [Run.fields])
  have name : optionalField (checkText 1 none) "name" values = some run.name :=
    holds.optional _ (fun a _ => text_loaded a) (by simp [Run.fields])
  have spanId := holds.required "span_id" (text_loaded run.spanId) (by simp [Run.fields])
  have parentSpanId : optionalField (checkText 1 none) "parent_span_id" values = some run.parentSpanId :=
    holds.optional _ (fun a _ => text_loaded a) (by simp [Run.fields])
  have step : optionalField (checkCount pydantic) "step" values = some run.step :=
    holds.optional _ (fun a _ => count_loaded a) (by simp [Run.fields])
  have traceId : optionalField checkString "trace_id" values = some run.traceId :=
    holds.optional _ (fun a _ => string_loaded a) (by simp [Run.fields])
  have runType : optionalField (checkWord RunType) "run_type" values = some run.runType :=
    holds.optional _ (fun a _ => word_loaded a) (by simp [Run.fields])
  have errorCode : optionalField (checkText 1 none) "error_code" values = some run.errorCode :=
    holds.optional _ (fun a _ => text_loaded a) (by simp [Run.fields])
  have errorReason : optionalField (checkText 0 (some 32)) "error_reason" values = some run.errorReason :=
    holds.optional _ (fun a _ => text_loaded a) (by simp [Run.fields])
  have outcome : optionalField (checkWord RunOutcome) "outcome" values = some run.outcome :=
    holds.optional _ (fun a _ => word_loaded a) (by simp [Run.fields])
  have closed : closedTo ["run_id", "name", "span_id", "parent_span_id", "step", "trace_id", "run_type", "error_code",
    "error_reason", "outcome"] values = true := holds.closed
  simp [checkRun, checkBlock, runId, name, spanId, parentSpanId, step, traceId, runType, errorCode, errorReason,
    outcome, closed]

theorem llmCost_loaded (cost : LlmCost) (loaded : Loaded library cost.dump value) :
    checkLlmCost pydantic value = some cost := by
  obtain ⟨values, rfl, holds⟩ := block_holds (separate_nil (by simp [LlmCost.fields])) loaded
  have totalTokenCost : requiredField (checkAmount pydantic none) "total_token_cost" values = some cost.totalTokenCost :=
    holds.required _ (amount_loaded cost.totalTokenCost) (by simp [LlmCost.fields])
  have inputTokenCost : optionalField (checkAmount pydantic none) "input_token_cost" values = some cost.inputTokenCost :=
    holds.optional _ (fun a _ => amount_loaded a) (by simp [LlmCost.fields])
  have outputTokenCost : optionalField (checkAmount pydantic none) "output_token_cost" values = some cost.outputTokenCost :=
    holds.optional _ (fun a _ => amount_loaded a) (by simp [LlmCost.fields])
  have cacheReadCost : optionalField (checkAmount pydantic none) "cache_read_cost" values = some cost.cacheReadCost :=
    holds.optional _ (fun a _ => amount_loaded a) (by simp [LlmCost.fields])
  have cacheWriteCost : optionalField (checkAmount pydantic none) "cache_write_cost" values = some cost.cacheWriteCost :=
    holds.optional _ (fun a _ => amount_loaded a) (by simp [LlmCost.fields])
  have reasoningCost : optionalField (checkAmount pydantic none) "reasoning_cost" values = some cost.reasoningCost :=
    holds.optional _ (fun a _ => amount_loaded a) (by simp [LlmCost.fields])
  have closed : closedTo ["total_token_cost", "input_token_cost", "output_token_cost", "cache_read_cost",
    "cache_write_cost", "reasoning_cost"] values = true := holds.closed
  simp [checkLlmCost, checkBlock, totalTokenCost, inputTokenCost, outputTokenCost, cacheReadCost, cacheWriteCost,
    reasoningCost, closed]

/-! Moments. -/

namespace Timing

def moments (timing : Timing) : List Moment := timing.eventTime :: timing.receivedTime.toList

def rounded (timing : Timing) : Timing :=
  { timing with eventTime := timing.eventTime.rounded, receivedTime := timing.receivedTime.map Moment.rounded }

end Timing

theorem timing_loaded {now : Moment} (timing : Timing)
    (modern : ∀ moment ∈ timing.moments, 1000 ≤ (clockParts moment.utc.toNat).year)
    (loaded : Loaded library timing.dump value) : checkTiming pydantic now value = some timing.rounded := by
  obtain ⟨values, rfl, holds⟩ := block_holds (timing_separate timing) loaded
  obtain ⟨event, read, shown⟩ := holds.found (by simp [Timing.fields] : ("event_time", some (.datetime timing.eventTime)) ∈ timing.fields)
  have eventTime : checkMoment pydantic event = some timing.eventTime.rounded :=
    moment_loaded (modern _ List.mem_cons_self) shown
  have receivedTime : optionalField (checkMoment pydantic) "received_time" values =
      some (timing.receivedTime.map Moment.rounded) := by
    have reads : ∀ a ∈ timing.receivedTime, ∀ {value}, Loaded library (.datetime a) value →
        checkMoment pydantic value = some a.rounded := by
      intro a given value loaded
      exact moment_loaded (modern a (by simp [Timing.moments, Option.mem_def.mp given])) loaded
    exact holds.optional_map _ Moment.rounded reads (by simp [Timing.fields])
  have durationMs : optionalField (checkCount pydantic) "duration_ms" values = some timing.durationMs :=
    holds.optional _ (fun a _ => count_loaded a) (by simp [Timing.fields])
  have closed : closedTo ["event_time", "received_time", "duration_ms"] values = true := holds.closed
  simp [checkTiming, checkBlock, read, eventTime, receivedTime, durationMs, closed, Timing.rounded]

/-! Blocks with extras. -/

/-- The same extras, in any order. -/
def Extensions.Same (a b : Extensions) : Prop := b.entries.Perm a.entries

theorem extra_numbers {entries : List (String × Python.Number)}
    (each : ∀ entry ∈ entries, extensionKey entry.1 = true ∧ Counted entry.2) :
    (entries.map fun entry => (entry.1, Json.num entry.2)).mapM checkExtra = some entries := by
  induction entries with
  | nil => rfl
  | cons entry rest ih =>
    have first : checkExtra (entry.1, .num entry.2) = some entry := if_pos (each entry List.mem_cons_self)
    have others := ih fun other member => each other (List.mem_cons_of_mem _ member)
    rw [List.map_cons, List.mapM_cons, first, others]
    rfl

theorem extensions_loaded {extra : Extensions} (separate : Separate fields extra.entries)
    (holds : Holds library fields extra.entries values) :
    ∃ found, checkExtensions (fields.map Prod.fst) values = some found ∧ extra.Same found := by
  let image (entry : String × Python.Number) : String × Python.Value := (entry.1, .num entry.2)
  have once : values.Nodup := List.Nodup.of_map _ holds.distinct
  have once' : (extra.entries.map image).Nodup := by
    apply List.Nodup.of_map Prod.fst
    rw [List.map_map]
    exact extra.distinct
  have rest : (values.filter fun entry => decide (entry.1 ∉ fields.map Prod.fst)).Perm (extra.entries.map image) := by
    apply (List.perm_ext_iff_of_nodup (once.filter _) once').mpr
    intro entry
    rw [List.mem_filter, decide_eq_true_eq]
    constructor
    · intro outside
      obtain ⟨source, member, same⟩ := List.mem_map.mp ((holds.only entry outside.1).resolve_left outside.2)
      have listed := List.inj_on_of_nodup_map holds.distinct outside.1 (holds.added source member) same.symm
      exact List.mem_map.mpr ⟨source, member, listed.symm⟩
    · intro inside
      obtain ⟨source, member, rfl⟩ := List.mem_map.mp inside
      exact ⟨holds.added source member, separate.apart source member⟩
  obtain ⟨found, order, listed⟩ := Fields.exists_map_of_perm rest
  have each : ∀ entry ∈ found, extensionKey entry.1 = true ∧ Counted entry.2 := by
    intro entry member
    have member := order.mem_iff.mp member
    exact ⟨extra.named entry member, extra.counted entry member⟩
  have distinct : (found.map Prod.fst).Nodup := (order.map Prod.fst).nodup_iff.mpr extra.distinct
  have read := extra_numbers each
  apply Exists.intro ⟨found, distinct, fun entry member => (each entry member).1, fun entry member => (each entry member).2⟩
  constructor
  · unfold checkExtensions
    rw [listed]
    simp only [image, read]
    exact dif_pos ⟨distinct, each⟩
  · exact order

/-! Blocks with extras, and what holds them. -/

/-- The same usage, with its extras in any order. -/
structure LlmUsage.Same (a b : LlmUsage) : Prop where
  fields : { a with extra := b.extra } = b
  extra : a.extra.Same b.extra

structure ToolUsage.Same (a b : ToolUsage) : Prop where
  fields : { a with extra := b.extra } = b
  extra : a.extra.Same b.extra

structure ToolCost.Same (a b : ToolCost) : Prop where
  fields : { a with extra := b.extra } = b
  extra : a.extra.Same b.extra

structure Usage.Same (a b : Usage) : Prop where
  llm : Option.Rel LlmUsage.Same a.llm b.llm
  tool : Option.Rel ToolUsage.Same a.tool b.tool

structure Cost.Same (a b : Cost) : Prop where
  fields : { a with tool := b.tool } = b
  tool : Option.Rel ToolCost.Same a.tool b.tool

/-- The same attribution, with its labels in any order. -/
structure Attribution.Same (a b : Attribution) : Prop where
  fields : { a with labels := b.labels } = b
  labels : Option.Rel (fun labels found : List (String × String) => found.Perm labels) a.labels b.labels

/-- The same record, with extras and labels in any order. -/
structure AUDR.Same (a b : AUDR) : Prop where
  fields : { a with attribution := b.attribution, usage := b.usage, cost := b.cost } = b
  attribution : a.attribution.val.Same b.attribution.val
  usage : a.usage.Same b.usage
  cost : Option.Rel Cost.Same a.cost b.cost

theorem llmUsage_loaded (usage : LlmUsage) (loaded : Loaded library usage.dump value) :
    ∃ found, checkLlmUsage pydantic value = some found ∧ usage.Same found := by
  obtain ⟨values, rfl, holds⟩ := block_holds (llmUsage_separate usage) loaded
  have inputTokens : optionalField (checkCount pydantic) "input_tokens" values = some usage.inputTokens :=
    holds.optional _ (fun a _ => count_loaded a) (by simp [LlmUsage.fields])
  have outputTokens : optionalField (checkCount pydantic) "output_tokens" values = some usage.outputTokens :=
    holds.optional _ (fun a _ => count_loaded a) (by simp [LlmUsage.fields])
  have cacheReadTokens : optionalField (checkCount pydantic) "cache_read_tokens" values = some usage.cacheReadTokens :=
    holds.optional _ (fun a _ => count_loaded a) (by simp [LlmUsage.fields])
  have cacheWriteTokens : optionalField (checkCount pydantic) "cache_write_tokens" values = some usage.cacheWriteTokens :=
    holds.optional _ (fun a _ => count_loaded a) (by simp [LlmUsage.fields])
  have reasoningTokens : optionalField (checkCount pydantic) "reasoning_tokens" values = some usage.reasoningTokens :=
    holds.optional _ (fun a _ => count_loaded a) (by simp [LlmUsage.fields])
  have requests : optionalField (checkCount pydantic) "requests" values = some usage.requests :=
    holds.optional _ (fun a _ => count_loaded a) (by simp [LlmUsage.fields])
  have imagesProcessed : optionalField (checkCount pydantic) "images_processed" values = some usage.imagesProcessed :=
    holds.optional _ (fun a _ => count_loaded a) (by simp [LlmUsage.fields])
  have audioInputSeconds : optionalField (checkAmount pydantic none) "audio_input_seconds" values = some usage.audioInputSeconds :=
    holds.optional _ (fun a _ => amount_loaded a) (by simp [LlmUsage.fields])
  have audioOutputSeconds : optionalField (checkAmount pydantic none) "audio_output_seconds" values = some usage.audioOutputSeconds :=
    holds.optional _ (fun a _ => amount_loaded a) (by simp [LlmUsage.fields])
  obtain ⟨found, extra, same⟩ := extensions_loaded (llmUsage_separate usage) holds
  have extra : checkExtensions llmUsageNames values = some found := extra
  apply Exists.intro { usage with extra := found }
  constructor
  · simp [checkLlmUsage, checkBlock, inputTokens, outputTokens, cacheReadTokens, cacheWriteTokens, reasoningTokens,
      requests, imagesProcessed, audioInputSeconds, audioOutputSeconds, extra]
  · exact ⟨rfl, same⟩

theorem toolUsage_loaded (usage : ToolUsage) (loaded : Loaded library usage.dump value) :
    ∃ found, checkToolUsage pydantic value = some found ∧ usage.Same found := by
  obtain ⟨values, rfl, holds⟩ := block_holds (toolUsage_separate usage) loaded
  have type : optionalField (checkText 1 none) "type" values = some usage.type :=
    holds.optional _ (fun a _ => text_loaded a) (by simp [ToolUsage.fields])
  have callCount : optionalField (checkCount pydantic) "call_count" values = some usage.callCount :=
    holds.optional _ (fun a _ => count_loaded a) (by simp [ToolUsage.fields])
  have sandboxTime : optionalField (checkAmount pydantic none) "sandbox_time" values = some usage.sandboxTime :=
    holds.optional _ (fun a _ => amount_loaded a) (by simp [ToolUsage.fields])
  obtain ⟨found, extra, same⟩ := extensions_loaded (toolUsage_separate usage) holds
  have extra : checkExtensions ["type", "call_count", "sandbox_time"] values = some found := extra
  apply Exists.intro { usage with extra := found }
  constructor
  · simp [checkToolUsage, checkBlock, type, callCount, sandboxTime, extra]
  · exact ⟨rfl, same⟩

theorem toolCost_loaded (cost : ToolCost) (loaded : Loaded library cost.dump value) :
    ∃ found, checkToolCost pydantic value = some found ∧ cost.Same found := by
  obtain ⟨values, rfl, holds⟩ := block_holds (toolCost_separate cost) loaded
  have type : optionalField (checkText 1 none) "type" values = some cost.type :=
    holds.optional _ (fun a _ => text_loaded a) (by simp [ToolCost.fields])
  have callCost : optionalField (checkAmount pydantic none) "call_cost" values = some cost.callCost :=
    holds.optional _ (fun a _ => amount_loaded a) (by simp [ToolCost.fields])
  have sandboxCost : optionalField (checkAmount pydantic none) "sandbox_cost" values = some cost.sandboxCost :=
    holds.optional _ (fun a _ => amount_loaded a) (by simp [ToolCost.fields])
  obtain ⟨found, extra, same⟩ := extensions_loaded (toolCost_separate cost) holds
  have extra : checkExtensions ["type", "call_cost", "sandbox_cost"] values = some found := extra
  apply Exists.intro { cost with extra := found }
  constructor
  · simp [checkToolCost, checkBlock, type, callCost, sandboxCost, extra]
  · exact ⟨rfl, same⟩

theorem usage_loaded (usage : Usage) (loaded : Loaded library usage.dump value) :
    ∃ found, checkUsage pydantic value = some found ∧ usage.Same found := by
  obtain ⟨values, rfl, holds⟩ := block_holds (usage_separate usage) loaded
  have llm : ∃ found, optionalField (checkLlmUsage pydantic) "llm" values = some found ∧
      Option.Rel LlmUsage.Same usage.llm found :=
    holds.optional_related _ (fun a _ => llmUsage_loaded a) (by simp [Usage.fields])
  have tool : ∃ found, optionalField (checkToolUsage pydantic) "tool" values = some found ∧
      Option.Rel ToolUsage.Same usage.tool found :=
    holds.optional_related _ (fun a _ => toolUsage_loaded a) (by simp [Usage.fields])
  obtain ⟨llm, readLlm, sameLlm⟩ := llm
  obtain ⟨tool, readTool, sameTool⟩ := tool
  have closed : closedTo ["llm", "tool"] values = true := holds.closed
  apply Exists.intro ⟨llm, tool⟩
  constructor
  · simp [checkUsage, checkBlock, readLlm, readTool, closed]
  · exact ⟨sameLlm, sameTool⟩

theorem cost_loaded (cost : Cost) (loaded : Loaded library cost.dump value) :
    ∃ found, checkCost pydantic value = some found ∧ cost.Same found := by
  obtain ⟨values, rfl, holds⟩ := block_holds (cost_separate cost) loaded
  have totalCost : requiredField (checkAmount pydantic none) "total_cost" values = some cost.totalCost :=
    holds.required _ (amount_loaded cost.totalCost) (by simp [Cost.fields])
  have currency := holds.required "currency" (matching_loaded cost.currency) (by simp [Cost.fields])
  have llm : optionalField (checkLlmCost pydantic) "llm" values = some cost.llm :=
    holds.optional _ (fun a _ => llmCost_loaded a) (by simp [Cost.fields])
  have tool : ∃ found, optionalField (checkToolCost pydantic) "tool" values = some found ∧
      Option.Rel ToolCost.Same cost.tool found :=
    holds.optional_related _ (fun a _ => toolCost_loaded a) (by simp [Cost.fields])
  have originalCost : optionalField (checkAmount pydantic none) "original_cost" values = some cost.originalCost :=
    holds.optional _ (fun a _ => amount_loaded a) (by simp [Cost.fields])
  have discountAmount : optionalField (checkAmount pydantic none) "discount_amount" values = some cost.discountAmount :=
    holds.optional _ (fun a _ => amount_loaded a) (by simp [Cost.fields])
  have discountPercent : optionalField (checkAmount pydantic (some 100)) "discount_percent" values =
      some cost.discountPercent :=
    holds.optional _ (fun a _ => amount_loaded a) (by simp [Cost.fields])
  obtain ⟨tool, read, same⟩ := tool
  have closed : closedTo ["total_cost", "currency", "llm", "tool", "original_cost", "discount_amount",
    "discount_percent"] values = true := holds.closed
  apply Exists.intro { cost with tool := tool }
  constructor
  · simp [checkCost, checkBlock, totalCost, currency, llm, read, originalCost, discountAmount, discountPercent, closed]
  · exact ⟨rfl, same⟩

/-! Attribution. -/

theorem Holds.attributionText (holds : Holds library fields [] values) (name : String) {least : Nat} {held : Option String}
    (long : ∀ text ∈ held, least ≤ text.toList.length) (listed : (name, held.map .text) ∈ fields) :
    Attribution.checkString name least values = .ok held := by
  unfold Attribution.checkString
  cases held with
  | none => rw [holds.absent listed]
  | some text =>
    obtain ⟨value, read, loaded⟩ := holds.found listed
    cases loaded
    rw [read]
    exact if_pos (long text rfl)

theorem Holds.environment (holds : Holds library fields [] values) {held : Option Environment}
    (listed : ("environment", held.map fun environment => .text (word environment)) ∈ fields) :
    Attribution.checkEnvironment values = .ok held := by
  unfold Attribution.checkEnvironment
  cases held with
  | none => rw [holds.absent listed]
  | some environment =>
    obtain ⟨value, read, loaded⟩ := holds.found listed
    cases loaded
    rw [read]
    cases environment <;> rfl

theorem labelEntries_texts {labels : List (String × String)}
    (each : ∀ label ∈ labels, Attribution.labelKey label.1 = true ∧ Attribution.labelValue label.2 = true) :
    Attribution.labelEntries (labels.map fun label => (label.1, .str label.2)) = some labels := by
  induction labels with
  | nil => rfl
  | cons label rest ih =>
    obtain ⟨key, text⟩ := each label List.mem_cons_self
    have others := ih fun other member => each other (List.mem_cons_of_mem _ member)
    simp [Attribution.labelEntries, key, text, others]

/-- Labels are loaded in another order. -/
theorem labels_loaded {labels : List (String × String)} (distinct : (labels.map Prod.fst).Nodup)
    (loaded : Loaded library (labelsDump labels) value) :
    ∃ found : List (String × String), found.Perm labels ∧ value = .obj (found.map fun label => (label.1, .str label.2)) := by
  obtain ⟨entries, rfl, names, -, each⟩ := dict_holds loaded
  let image (label : String × String) : String × Python.Value := (label.1, .str label.2)
  have same : entries.Perm (labels.map image) := by
    have keys : (labels.map image).map Prod.fst = labels.map Prod.fst := by
      rw [List.map_map]
      rfl
    apply Fields.perm_of_names
    · rw [List.map_map] at names
      exact keys ▸ names
    · exact keys ▸ distinct
    · intro entry member
      obtain ⟨label, inside, rfl⟩ := List.mem_map.mp member
      obtain ⟨value, listed, text⟩ := each (List.mem_map.mpr ⟨label, inside, rfl⟩)
      cases text
      exact listed
  obtain ⟨found, order, listed⟩ := Fields.exists_map_of_perm same
  exact ⟨found, order, congrArg Json.obj listed⟩

theorem attribution_loaded (attribution : { attribution : Attribution // attribution.Checked })
    (loaded : Loaded library attribution.val.dump value) :
    ∃ found, checkAttribution value = some found ∧ attribution.val.Same found.val := by
  obtain ⟨attribution, checked⟩ := attribution
  obtain ⟨values, rfl, holds⟩ := block_holds (attribution_separate attribution) loaded
  have environment := @Holds.environment _ _ _ holds attribution.environment (by simp [Attribution.dumpFields])
  have userId := @Holds.attributionText _ _ _ holds "user_id" 0 attribution.userId (by simp) (by simp [Attribution.dumpFields])
  have accountId := holds.attributionText "account_id" checked.accountId (by simp [Attribution.dumpFields])
  have subscriptionId :=
    @Holds.attributionText _ _ _ holds "subscription_id" 0 attribution.subscriptionId (by simp) (by simp [Attribution.dumpFields])
  have featureId := holds.attributionText "feature_id" checked.featureId (by simp [Attribution.dumpFields])
  have labels : ∃ found, Attribution.checkLabels values = .ok found ∧
      Option.Rel (fun labels found : List (String × String) => found.Perm labels) attribution.labels found := by
    have listed : ("labels", attribution.labels.map labelsDump) ∈ attribution.dumpFields := by simp [Attribution.dumpFields]
    unfold Attribution.checkLabels
    cases held : attribution.labels with
    | none =>
      rw [held] at listed
      rw [holds.absent listed]
      exact ⟨none, rfl, .none⟩
    | some labels =>
      rw [held] at listed
      obtain ⟨value, read, shown⟩ := holds.found listed
      obtain ⟨found, order, rfl⟩ := labels_loaded (checked.distinct labels held) shown
      have entries := labelEntries_texts fun label member => checked.each labels held label (order.mem_iff.mp member)
      have few : found.length ≤ 20 := order.length_eq.trans_le (checked.few labels held)
      rw [read]
      simp only [entries, if_pos few]
      exact ⟨some found, rfl, .some order⟩
  obtain ⟨labels, read, same⟩ := labels
  have known : Attribution.checkExtra values = .ok () := by
    have none : (values.find? fun entry => entry.1 ∉ Attribution.fields) = none := by
      apply List.find?_eq_none.mpr
      intro entry member
      have listed : entry.1 ∈ Attribution.fields := (holds.only entry member).resolve_right List.not_mem_nil
      simp [listed]
    rw [Attribution.checkExtra, none]
  have model : Attribution.modelValidate values = .ok { attribution with labels := labels } := by
    simp [Attribution.modelValidate, environment, userId, accountId, subscriptionId, featureId, read, known, bind, Except.bind,
      pure, Except.pure]
  have before : ∀ found ∈ labels, ∃ before ∈ attribution.labels, found.Perm before := by
    intro found given
    rw [Option.mem_def.mp given] at same
    cases held : attribution.labels with
    | none =>
      rw [held] at same
      cases same
    | some before =>
      rw [held] at same
      cases same with
      | some order => exact ⟨before, rfl, order⟩
  have checked' : { attribution with labels := labels }.Checked := by
    constructor
    · exact checked.accountId
    · exact checked.featureId
    · intro found given
      obtain ⟨labels, held, order⟩ := before found given
      exact order.length_eq.trans_le (checked.few labels held)
    · intro found given
      obtain ⟨labels, held, order⟩ := before found given
      exact (order.map Prod.fst).nodup_iff.mpr (checked.distinct labels held)
    · intro found given label member
      obtain ⟨labels, held, order⟩ := before found given
      exact checked.each labels held label (order.mem_iff.mp member)
  apply Exists.intro ⟨{ attribution with labels := labels }, checked'⟩
  constructor
  · simp [checkAttribution, checkBlock, model, checked']
  · exact ⟨rfl, same⟩

/-! Records. -/

/-- A record with its moments in whole milliseconds of UTC. -/
def AUDR.rounded (record : AUDR) : AUDR := { record with timing := record.timing.rounded }

theorem record_loaded {minted : Minted} (record : AUDR)
    (modern : ∀ moment ∈ record.timing.moments, 1000 ≤ (clockParts moment.utc.toNat).year)
    (loaded : Loaded library record.dump value) :
    ∃ values found, value = .obj values ∧ Json.get? "spec_version" values = some (.str record.specVersion) ∧
      modelValidate pydantic minted values = some found ∧ record.rounded.Same found := by
  obtain ⟨values, rfl, holds⟩ := block_holds (record_separate record) loaded
  obtain ⟨version', read, shown⟩ := holds.found
    (by simp [AUDR.fields] : ("spec_version", some (.text record.specVersion)) ∈ record.fields)
  have version : defaultedField checkString specVersion "spec_version" values = some record.specVersion :=
    holds.defaulted _ (string_loaded record.specVersion) (by simp [AUDR.fields])
  have recordId : defaultedField checkString minted.recordId "record_id" values = some record.recordId :=
    holds.defaulted _ (string_loaded record.recordId) (by simp [AUDR.fields])
  have emitter : optionalField checkEmitter "emitter" values = some record.emitter :=
    holds.optional _ (fun a _ => emitter_loaded a) (by simp [AUDR.fields])
  have corrects : optionalField (checkText 8 (some 64)) "corrects" values = some record.corrects :=
    holds.optional _ (fun a _ => text_loaded a) (by simp [AUDR.fields])
  have timing : requiredField (checkTiming pydantic minted.now) "timing" values = some record.timing.rounded :=
    holds.required _ (timing_loaded record.timing modern) (by simp [AUDR.fields])
  have resource := holds.required "resource" (resource_loaded record.resource) (by simp [AUDR.fields])
  have run : requiredField (checkRun pydantic) "run" values = some record.run :=
    holds.required _ (run_loaded record.run) (by simp [AUDR.fields])
  have attribution : ∃ found, requiredField checkAttribution "attribution" values = some found ∧
      record.attribution.val.Same found.val :=
    holds.required_related _ (attribution_loaded record.attribution) (by simp [AUDR.fields])
  have usage : ∃ found, requiredField (checkUsage pydantic) "usage" values = some found ∧ record.usage.Same found :=
    holds.required_related _ (usage_loaded record.usage) (by simp [AUDR.fields])
  have cost : ∃ found, optionalField (checkCost pydantic) "cost" values = some found ∧ Option.Rel Cost.Same record.cost found :=
    holds.optional_related _ (fun a _ => cost_loaded a) (by simp [AUDR.fields])
  obtain ⟨attribution, readAttribution, sameAttribution⟩ := attribution
  obtain ⟨usage, readUsage, sameUsage⟩ := usage
  obtain ⟨cost, readCost, sameCost⟩ := cost
  have closed : closedTo ["spec_version", "record_id", "emitter", "corrects", "timing", "resource", "run", "attribution",
    "usage", "cost"] values = true := holds.closed
  apply Exists.intro values
  apply Exists.intro { record.rounded with attribution := attribution, usage := usage, cost := cost }
  refine ⟨rfl, ?_, ?_, ?_⟩
  · cases shown
    exact read
  · simp [modelValidate, version, recordId, emitter, corrects, timing, resource, run, readAttribution, readUsage, readCost,
      closed, AUDR.rounded]
  · exact ⟨rfl, sameAttribution, sameUsage, sameCost⟩

end Audr.Record
