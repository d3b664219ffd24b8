import Audr.Record.Interchange
import Audr.Record.Patterns

/-! Both packages agree on records built in Python, but for what Python's own checks let
through. -/

namespace Audr.Record

open JsRecord (Conformant ReadTimestamp recordRule valueAt versionPattern recordIdentifier)
open Vocabulary (word words)

variable {library : Library} {numerals : Numerals} {record : AUDR} {now : Int}

/-- A record `validate` finds nothing wrong with. -/
structure Valid (library : Library) (now : Int) (record : AUDR) : Prop where
  version : supportedVersion library record.specVersion = true
  recordId : isRecordIdentifier record.recordId = true
  corrects : ∀ id ∈ record.corrects, isRecordIdentifier id.text = true
  emitter : record.emitter.isSome = true
  precise : record.timing.eventTime.belowMillisecond = 0
  timely : record.timing.eventTime.utc ≤ now + futureSkew
  unreceived : record.timing.receivedTime = none
  single : record.usage.llm.isNone ≠ record.usage.tool.isNone
  llm : ∀ usage ∈ record.usage.llm, usage.isEmpty = false
  tool : ∀ usage ∈ record.usage.tool, usage.isEmpty = false
  ofModel : record.resource.operation.ofModel = true → record.resource.type = .model ∧
    record.resource.modality.isSome = true ∧ record.usage.llm.isSome = true ∧ (∀ cost ∈ record.cost, cost.tool = none) ∧
    record.resource.nameSpace = none
  ofTool : record.resource.operation.ofModel = false → record.resource.type = .tool ∧ record.usage.tool.isSome = true ∧
    ∀ cost ∈ record.cost, cost.llm = none
  traceId : ∀ id ∈ record.run.traceId, isTraceId id = true
  environment : record.attribution.val.environment.isSome = true
  account : record.attribution.val.environment = some .production → record.attribution.val.accountId.isSome = true
  userId : ∀ id ∈ record.attribution.val.userId, '@' ∉ id.toList

theorem issueUnless_nil {holds : Bool} {code : ErrorCode} {path : String} : issueUnless holds code path = [] ↔ holds = true := by
  cases holds <;> simp [issueUnless]

theorem attributionIssues_nil {attribution : Attribution} (checked : attribution.Checked) :
    attributionIssues attribution = [] ↔ attribution.environment.isSome = true ∧
      (attribution.environment = some .production → attribution.accountId.isSome = true) ∧
      ∀ id ∈ attribution.userId, '@' ∉ id.toList := by
  have account : attribution.accountId.getD "" ≠ "" ↔ attribution.accountId.isSome = true := by
    cases held : attribution.accountId with
    | none => simp
    | some id =>
      have long := checked.accountId id held
      simp only [Option.getD_some, Option.isSome_some, iff_true, ne_eq]
      rintro rfl
      simp at long
  rw [attributionIssues, List.map_eq_nil_iff, Attribution.issues, List.append_eq_nil_iff, ← and_assoc]
  apply and_congr
  · cases attribution.environment with
    | none => simp
    | some environment => cases environment <;> simp [← account]
  · cases attribution.userId <;> simp

theorem shapeIssues_nil : shapeIssues record = [] ↔
    (record.usage.llm.isNone ≠ record.usage.tool.isNone ∧ (∀ usage ∈ record.usage.llm, usage.isEmpty = false) ∧
      ∀ usage ∈ record.usage.tool, usage.isEmpty = false) ∧
    (record.resource.operation.ofModel = true → record.resource.type = .model ∧
      record.resource.modality.isSome = true ∧ record.usage.llm.isSome = true ∧
      (∀ cost ∈ record.cost, cost.tool = none) ∧ record.resource.nameSpace = none) ∧
    (record.resource.operation.ofModel = false → record.resource.type = .tool ∧ record.usage.tool.isSome = true ∧
      ∀ cost ∈ record.cost, cost.llm = none) := by
  unfold shapeIssues
  cases record.resource.operation.ofModel with
  | true =>
    simp only [List.append_eq_nil_iff, issueUnless_nil, decide_eq_true_eq, Option.all_eq_true, bne_iff_ne,
      Bool.not_eq_true', Option.isNone_iff_eq_none, if_true, forall_const, Bool.true_eq_false, IsEmpty.forall_iff, and_true,
      and_assoc]
    simp
  | false =>
    simp only [List.append_eq_nil_iff, issueUnless_nil, decide_eq_true_eq, Option.all_eq_true, bne_iff_ne,
      Bool.not_eq_true', Option.isNone_iff_eq_none, Bool.false_eq_true, if_false, forall_const, IsEmpty.forall_iff, and_assoc]
    simp

/-- What `validate` checks. -/
theorem validate_nil : record.validate library now = [] ↔ Valid library now record := by
  rw [AUDR.validate, JsRecord.eraseDups_nil_iff]
  simp only [List.append_eq_nil_iff, attributionIssues_nil record.attribution.property, shapeIssues_nil, envelopeIssues,
    emitterIssues, timingIssues, runIssues, issueUnless_nil, decide_eq_true_eq, Option.all_eq_true,
    Option.isNone_iff_eq_none]
  constructor
  · intro clean
    obtain ⟨⟨⟨⟨⟨⟨⟨version, recordId⟩, corrects⟩, emitter⟩, ⟨precise, timely⟩, unreceived⟩,
      ⟨single, llm, tool⟩, ofModel, ofTool⟩, traceId⟩, environment, account, userId⟩ := clean
    exact ⟨version, recordId, corrects, emitter, precise, timely, unreceived, single, llm, tool, ofModel, ofTool, traceId,
      environment, account, userId⟩
  · intro valid
    exact ⟨⟨⟨⟨⟨⟨⟨valid.version, valid.recordId⟩, valid.corrects⟩, valid.emitter⟩, ⟨valid.precise, valid.timely⟩,
      valid.unreceived⟩, ⟨valid.single, valid.llm, valid.tool⟩, valid.ofModel, valid.ofTool⟩, valid.traceId⟩,
      valid.environment, valid.account, valid.userId⟩

/-! The view of a record. -/

theorem record_separate (record : AUDR) : Separate record.fields [] := separate_nil (by simp [AUDR.fields])

/-- The value of a field of a block of a record. -/
theorem valueAt_inner {outer inner : List (String × Option Dump)} {extra : List (String × Python.Number)}
    {name field : String} {held : Option Dump} (separate : Separate outer []) (separate' : Separate inner extra)
    (listed : (name, some (.block inner extra)) ∈ outer) (listed' : (field, held) ∈ inner) :
    valueAt (view library (.block outer [])) [name, field] = shown library held := by
  rw [valueAt_block separate listed, shown_some, valueAt_block separate' listed', valueAt]

theorem resource_separate (resource : Resource) : Separate resource.fields [] := separate_nil (by simp [Resource.fields])
theorem run_separate (run : Run) : Separate run.fields [] := separate_nil (by simp [Run.fields])
theorem timing_separate (timing : Timing) : Separate timing.fields [] := separate_nil (by simp [Timing.fields])
theorem usage_separate (usage : Usage) : Separate usage.fields [] := separate_nil (by simp [Usage.fields])
theorem cost_separate (cost : Cost) : Separate cost.fields [] := separate_nil (by simp [Cost.fields])

section

variable (library record)

theorem resource_value {name : String} {held : Option Dump} (listed : (name, held) ∈ record.resource.fields) :
    valueAt (view library record.dump) ["resource", name] = shown library held :=
  valueAt_inner (record_separate record) (resource_separate record.resource) (by simp [AUDR.fields, Resource.dump]) listed

theorem usage_value {name : String} {held : Option Dump} (listed : (name, held) ∈ record.usage.fields) :
    valueAt (view library record.dump) ["usage", name] = shown library held :=
  valueAt_inner (record_separate record) (usage_separate record.usage) (by simp [AUDR.fields, Usage.dump]) listed

/-- A cost that is left out has no fields. -/
theorem cost_value {name : String} {held : Cost → Option Dump} (listed : ∀ cost, (name, held cost) ∈ cost.fields) :
    valueAt (view library record.dump) ["cost", name] = shown library (record.cost.bind held) := by
  cases given : record.cost with
  | none =>
    rw [AUDR.dump, valueAt_block (record_separate record) (by simp [AUDR.fields, given]; rfl)]
    rfl
  | some cost =>
    apply valueAt_inner (record_separate record) (cost_separate cost) _ (listed cost)
    simp [AUDR.fields, given, Cost.dump]

end

/-! Conformance. -/

/-- A whole number of milliseconds, on its clock and ahead of UTC. -/
def Moment.Whole (moment : Moment) : Prop := moment.wall % 1000 = 0 ∧ moment.ahead % 1000 = 0

theorem clockText_scan {micros : Nat} (inside : micros < momentsEnd) (modern : 1000 ≤ (clockParts micros).year) :
    Timestamp.scan (clockText library micros).toList = some (clockParts micros) := by
  rw [clockText_eq library inside modern, String.toList_ofList]
  exact Timestamp.scan_eq_some.mpr ⟨clockParts_fits inside, rfl⟩

/-- Both packages find the same moments too far ahead. -/
theorem readTimestamp_iff {moment : Moment} (inside : 0 ≤ moment.utc ∧ moment.utc < momentsEnd)
    (modern : 1000 ≤ (clockParts moment.utc.toNat).year) (whole : moment.Whole) :
    ReadTimestamp (sinceEpochMs now) (clockText library moment.utc.toNat) ↔ moment.utc ≤ now + futureSkew := by
  have within : moment.utc.toNat < momentsEnd := by omega
  have real := clockParts_real within
  have early : ¬(clockParts moment.utc.toNat).year ≤ 99 := by omega
  have read := JsRecord.readParts_eq early
  have ranged : JsRecord.inRange (clockParts moment.utc.toNat) = true := by
    rw [JsRecord.inRange_iff, read]
    exact real
  have exact' : JsRecord.epochMs (clockParts moment.utc.toNat) = sinceEpochMs moment.utc := by
    rw [JsRecord.epochMs_eq (clockParts_fits within), read, clockParts_milliseconds within, Int.toNat_of_nonneg inside.1]
  have digits : (clockParts moment.utc.toNat).fraction.drop 3 = [] := by
    apply List.drop_eq_nil_of_le
    exact (Timestamp.padded_length (by omega) (by decide)).le
  have moments : ReadTimestamp (sinceEpochMs now) (clockText library moment.utc.toNat) ↔
      sinceEpochMs moment.utc ≤ sinceEpochMs now + 5 * 60 * 1000 := by
    rw [ReadTimestamp, clockText_scan within modern]
    simp [ranged, exact', digits]
  obtain ⟨wall, ahead⟩ := whole
  rw [moments]
  simp only [sinceEpochMs, Moment.utc, epochMicros, microsPerDay, futureSkew] at *
  push_cast
  omega

/-- Which values the branches of the schema look at. -/
structure Shapes (library : Library) (record : AUDR) : Prop where
  type : ∀ type : ResourceType, valueAt (view library record.dump) ["resource", "type"] = .string (word type) ↔
    record.resource.type = type
  modality : (valueAt (view library record.dump) ["resource", "modality"]).isDefined = record.resource.modality.isSome
  nameSpace : (valueAt (view library record.dump) ["resource", "namespace"]).isDefined = record.resource.nameSpace.isSome
  llm : (valueAt (view library record.dump) ["usage", "llm"]).isDefined = record.usage.llm.isSome
  tool : (valueAt (view library record.dump) ["usage", "tool"]).isDefined = record.usage.tool.isSome
  llmCost : (valueAt (view library record.dump) ["cost", "llm"]).isDefined = false ↔ ∀ cost ∈ record.cost, cost.llm = none
  toolCost : (valueAt (view library record.dump) ["cost", "tool"]).isDefined = false ↔ ∀ cost ∈ record.cost, cost.tool = none

theorem shapes (library : Library) (record : AUDR) : Shapes library record := by
  constructor
  · intro type
    rw [resource_value library record (by simp [Resource.fields]; rfl), shown_some, view, JsRecord.Value.string.injEq]
    exact Vocabulary.word_injective.eq_iff
  · rw [resource_value library record (by simp [Resource.fields]; rfl), shown_isDefined, Option.isSome_map]
  · rw [resource_value library record (by simp [Resource.fields]; rfl), shown_isDefined, Option.isSome_map]
  · rw [usage_value library record (by simp [Usage.fields]; rfl), shown_isDefined, Option.isSome_map]
  · rw [usage_value library record (by simp [Usage.fields]; rfl), shown_isDefined, Option.isSome_map]
  · rw [@cost_value library record _ (fun cost => cost.llm.map LlmCost.dump) (by simp [Cost.fields]), shown_isDefined]
    cases record.cost <;> simp
  · rw [@cost_value library record _ (fun cost => cost.tool.map ToolCost.dump) (by simp [Cost.fields]), shown_isDefined]
    cases record.cost <;> simp

theorem block_formed {fields : List (String × Option Dump)} {extra : List (String × Python.Number)}
    (separate : Separate fields extra) (each : ∀ field ∈ fields, ∀ dump ∈ field.2, dump.Formed)
    (counted : ∀ entry ∈ extra, Sensible entry.2) : (Dump.block fields extra).Formed := by
  apply Dump.Formed.dict
  · rw [List.map_append, List.map_map]
    exact separate.nodup
  · intro entry member
    rcases List.mem_append.mp member with field | extension
    · obtain ⟨name, dump⟩ := entry
      exact each (name, some dump) (Fields.mem_present.mp field) dump rfl
    · obtain ⟨source, listed, rfl⟩ := List.mem_map.mp extension
      exact .number (counted source listed)

theorem count_formed (n : Nat) : (Dump.count n).Formed := .number (Int.natCast_nonneg n)

theorem amount_formed {most : Option ℚ} (amount : Amount most) : (Dump.amount amount).Formed :=
  .number fun q same => ⟨amount.nonneg.2 q same, amount.representable q same⟩

theorem Extensions.sensible (extra : Extensions) : ∀ entry ∈ extra.entries, Sensible entry.2 :=
  fun entry member => counted_sensible (extra.counted entry member)

theorem labels_formed {attribution : Attribution} (checked : attribution.Checked) :
    ∀ labels ∈ attribution.labels, (labelsDump labels).Formed := by
  intro labels held
  apply Dump.Formed.dict
  · rw [List.map_map]
    exact checked.distinct labels held
  · intro entry member
    obtain ⟨label, -, rfl⟩ := List.mem_map.mp member
    exact .text _

theorem llmUsage_formed (usage : LlmUsage) : usage.dump.Formed := by
  apply block_formed (llmUsage_separate usage) _ usage.extra.sensible
  simp [LlmUsage.fields, count_formed, amount_formed]

theorem toolUsage_formed (usage : ToolUsage) : usage.dump.Formed := by
  apply block_formed (toolUsage_separate usage) _ usage.extra.sensible
  simp [ToolUsage.fields, count_formed, amount_formed, Dump.Formed.text]

theorem usage_formed (usage : Usage) : usage.dump.Formed := by
  apply block_formed (usage_separate usage) _ (by simp)
  simp [Usage.fields, llmUsage_formed, toolUsage_formed]

theorem llmCost_formed (cost : LlmCost) : cost.dump.Formed := by
  apply block_formed (separate_nil (by simp [LlmCost.fields])) _ (by simp)
  simp [LlmCost.fields, amount_formed]

theorem toolCost_formed (cost : ToolCost) : cost.dump.Formed := by
  apply block_formed (toolCost_separate cost) _ cost.extra.sensible
  simp [ToolCost.fields, amount_formed, Dump.Formed.text]

theorem cost_formed (cost : Cost) : cost.dump.Formed := by
  apply block_formed (cost_separate cost) _ (by simp)
  simp [Cost.fields, llmCost_formed, toolCost_formed, amount_formed, Dump.Formed.text]

theorem timing_formed (timing : Timing) : timing.dump.Formed := by
  apply block_formed (timing_separate timing) _ (by simp)
  simp [Timing.fields, count_formed, Dump.Formed.datetime]

theorem attribution_formed (attribution : { attribution : Attribution // attribution.Checked }) :
    attribution.val.dump.Formed := by
  have labels := labels_formed attribution.property
  simp only [Option.mem_def] at labels
  apply block_formed (attribution_separate attribution.val) _ (by simp)
  simp [Attribution.dumpFields, Dump.Formed.text]
  exact labels

theorem record_formed (record : AUDR) : record.dump.Formed := by
  have emitter : ∀ emitter : Emitter, emitter.dump.Formed := fun emitter => by
    apply block_formed (separate_nil (by simp [Emitter.fields])) _ (by simp)
    simp [Emitter.fields, Dump.Formed.text]
  have resource : record.resource.dump.Formed := by
    apply block_formed (resource_separate record.resource) _ (by simp)
    simp [Resource.fields, Dump.Formed.text]
  have run : record.run.dump.Formed := by
    apply block_formed (run_separate record.run) _ (by simp)
    simp [Run.fields, count_formed, Dump.Formed.text]
  apply block_formed (record_separate record) _ (by simp)
  simp [AUDR.fields, emitter, timing_formed, resource, run, attribution_formed, usage_formed, cost_formed,
    Dump.Formed.text]

/-- An embedding of the first of January 2025, in one request. -/
def embeddingRecord : AUDR where
  specVersion := "1.1.0"
  recordId := "01ARZ3NDEKTSV4RRFFQ69G5FAV"
  emitter := some ⟨.harness, ⟨"demo", by simp, by simp⟩, ⟨"1", by simp, by simp⟩⟩
  corrects := none
  timing := ⟨⟨63871286400123000, 0⟩, none, none⟩
  resource :=
    ⟨⟨"openai", by decide +kernel⟩, .model, ⟨"e", by simp, by simp⟩, none, .embedding, some .text, none, none, none⟩
  run := ⟨⟨"run-0001", by simp, by simp⟩, none, ⟨"s", by simp, by simp⟩, none, none, none, none, none, none, none⟩
  attribution := ⟨⟨some .test, none, none, none, none, none⟩, by constructor <;> simp⟩
  usage := ⟨some ⟨none, none, none, none, none, some 1, none, none, none, ⟨[], by simp, by simp, by simp⟩⟩, none⟩
  cost := none

def embeddingText : JsRecord.Text :=
  .obj
    [("attribution", .obj [("environment", .str "test")]),
      ("emitter", .obj [("component", .str "harness"), ("name", .str "demo"), ("version", .str "1")]),
      ("record_id", .str "01ARZ3NDEKTSV4RRFFQ69G5FAV"),
      ("resource", .obj
        [("modality", .str "text"), ("name", .str "e"), ("operation", .str "embedding"), ("provider", .str "openai"),
          ("type", .str "model")]),
      ("run", .obj [("run_id", .str "run-0001"), ("span_id", .str "s")]),
      ("spec_version", .str "1.1.0"),
      ("timing", .obj [("event_time", .str "2025-01-01T00:00:00.123Z")]),
      ("usage", .obj [("llm", .obj [("requests", .num (.int false 1))])])]

end Audr.Record
