import Audr.Chargebee.Labels
import Audr.PyChargebee.Flatten

/-! One record flattened in both languages: when each loses nothing, and when both give the same
properties. -/

namespace Audr.Chargebee

open JsRecord Paths Properties
open JsRecord.Value (SameNumber)
open PyChargebee (Refusal flattenAudr flattenAudr_placed flattenAudr_raises)
open Record (AUDR Mirrors Placed Reads Spelled embeddingRecord timeTexts view)

/-- The same text, or equal numbers. -/
def SameScalar : Json Double → Json Double → Prop
  | .num x, .num y => SameNumber x y
  | x, y => x = y

/-- The same property map: the same names, and the same value under each. -/
structure SameProperties (output other : Output) : Prop where
  names : (output.map Prod.fst).Perm (other.map Prod.fst)
  values : ∀ {name x y}, (name, x) ∈ output → (name, y) ∈ other → SameScalar x y

/-- A result in Python that refuses labels that coincide, and otherwise has one property for each
field, with the field's value. -/
def ExactThere (separator : String) (record : Value) : Except Refusal Output → Prop
  | .error (.invalid message) => LabelsCoincide record ∧ ∃ path, message = collision path
  | .error (.raised _) => False
  | .ok output => ¬LabelsCoincide record ∧ Named output ∧
      ∃ fields, (mapValues some fields).Perm (fieldProperties separator record) ∧ SameProperties fields output

/-- Two results with the same properties, or that both refuse. -/
def SameMap : Except String Output → Except Refusal Output → Prop
  | .ok output, .ok other => SameProperties output other
  | .error _, .error (.invalid _) => True
  | _, _ => False

/-- What flattening promises of a record that both packages hold. -/
structure Lossless (stringify : Value → String) (library : Record.Library) (dumps : Value → Option String)
    (separator : String) (record : Value) (audr : AUDR) : Prop where
  typescript : Exact separator record (flattenRecord stringify separator record)
  python : ExactThere separator record (flattenAudr library dumps separator audr)
  same : SameMap (flattenRecord stringify separator record) (flattenAudr library dumps separator audr)

variable {stringify : Value → String} {library : Record.Library} {dumps : Value → Option String} {separator : String}
  {record : Value} {audr : AUDR}

/-- What Python writes of a record can be flattened. -/
theorem flattenable_view (valid : Flattenable record) (mirrors : audr.Mirrors record) :
    Flattenable (view library audr.dump) where
  formed := Mirrors.formed mirrors valid.formed
  shaped := Mirrors.shaped mirrors valid.formed valid.shaped
  admits leaf member := by
    obtain ⟨held, found⟩ := Mirrors.leaf mirrors leaf member
    exact valid.admits (leaf.1, held) found
  object := by
    rw [AUDR.dump, Record.Dump.block, view]
    exact ⟨_, rfl⟩

/-- Both languages see the same labels. -/
theorem mem_labelNames_view (valid : Flattenable record) (mirrors : audr.Mirrors record) {label : String} :
    label ∈ labelNames (view library audr.dump) ↔ label ∈ labelNames record := by
  rw [mem_labelNames (flattenable_view valid mirrors), mem_labelNames valid]
  constructor
  · rintro ⟨leaf, member, path⟩
    obtain ⟨held, found⟩ := Mirrors.leaf mirrors leaf member
    exact ⟨_, found, path⟩
  · rintro ⟨leaf, member, path⟩
    obtain ⟨shown, found, -⟩ := Mirrors.shown mirrors valid.formed leaf member
    exact ⟨_, found, path⟩

theorem coincide_view (valid : Flattenable record) (mirrors : audr.Mirrors record) :
    LabelsCoincide (view library audr.dump) ↔ LabelsCoincide record := by
  simp only [LabelsCoincide, mem_labelNames_view valid mirrors]

/-- Labels that coincide are refused. -/
theorem Exact.refuses {result : Except String Output} (exact : Exact separator record result)
    (coincide : LabelsCoincide record) : ∃ path, result = .error (collision path) := by
  cases result with
  | error message =>
    obtain ⟨path, rfl⟩ := exact.2
    exact ⟨path, rfl⟩
  | ok output => exact absurd coincide exact.1

/-- Labels that do not are flattened. -/
theorem Exact.flattens {result : Except String Output} (exact : Exact separator record result)
    (apart : ¬LabelsCoincide record) : ∃ output, result = .ok output ∧ Named output ∧
      (mapValues some output).Perm (fieldProperties separator record) := by
  cases result with
  | error message => exact absurd exact.1 apart
  | ok output => exact ⟨output, rfl, exact.2⟩

/-- A property is that of a field. -/
theorem mem_properties {output : Output} (fields : (mapValues some output).Perm (fieldProperties separator record))
    {name : String} {x : Json Double} :
    (name, x) ∈ output ↔ ∃ leaf ∈ leaves record, joined separator (rewrittenPath "" leaf.1) = name ∧ scalar? leaf.2 = some x := by
  have listed : (name, x) ∈ output ↔ (name, some x) ∈ mapValues some output := by
    rw [Properties.mem_mapValues]
    constructor
    · exact fun member => ⟨_, member, rfl⟩
    · rintro ⟨⟨_, y⟩, member, same⟩
      cases same
      exact member
  rw [listed, fields.mem_iff, fieldProperties, List.mem_map]
  simp [Prod.ext_iff]

theorem mem_names {output : Output} (fields : (mapValues some output).Perm (fieldProperties separator record)) {name : String} :
    name ∈ output.map Prod.fst ↔ ∃ leaf ∈ leaves record, joined separator (rewrittenPath "" leaf.1) = name := by
  have names := fields.map Prod.fst
  rw [Properties.map_fst_mapValues] at names
  rw [names.mem_iff, fieldProperties, List.map_map, List.mem_map]
  exact Iff.rfl

/-- The properties of a record are those of what Python writes of it, where each leaf is written
as the record has it. -/
theorem sameProperties_view (valid : Flattenable record)
    (mirrors : Mirrors (fun moment text => Record.clockText library moment.utc.toNat = text) audr.dump record)
    {output other : Output} (named : Named output) (named' : Named other)
    (fields : (mapValues some output).Perm (fieldProperties separator record))
    (fields' : (mapValues some other).Perm (fieldProperties separator (view library audr.dump))) :
    SameProperties output other := by
  have distinct : ((leaves record).map fun leaf => joined separator (rewrittenPath "" leaf.1)).Nodup := by
    have names := (fields.map Prod.fst).nodup_iff.mp (by simpa using named.distinct)
    rw [fieldProperties, List.map_map] at names
    exact names
  refine ⟨?_, ?_⟩
  · apply (List.perm_ext_iff_of_nodup named.distinct named'.distinct).mpr
    intro name
    rw [mem_names fields, mem_names fields']
    constructor
    · rintro ⟨leaf, member, spelled⟩
      obtain ⟨shown, found, -⟩ := @Mirrors.shown library _ _ _ mirrors valid.formed leaf member
      exact ⟨_, found, spelled⟩
    · rintro ⟨leaf, member, spelled⟩
      obtain ⟨held, found⟩ := Mirrors.leaf mirrors leaf member
      exact ⟨_, found, spelled⟩
  · intro name x y first second
    obtain ⟨leaf, member, named, held⟩ := (mem_properties fields).mp first
    obtain ⟨⟨path, value⟩, member', named', held'⟩ := (mem_properties fields').mp second
    obtain ⟨under, found⟩ := Mirrors.leaf mirrors _ member'
    obtain rfl : leaf = (path, under) := List.inj_on_of_nodup_map distinct member found (named.trans named'.symm)
    obtain ⟨shown, inside, told⟩ := @Mirrors.shown library _ _ _ mirrors valid.formed _ member
    obtain rfl : shown = value := leaves_functional (Mirrors.formed mirrors valid.formed) inside member'
    dsimp only at held held' told
    cases told with
    | number equal =>
      cases held
      cases held'
      exact Or.imp Eq.symm And.symm equal
    | text =>
      cases held
      cases held'
      exact rfl
    | datetime read =>
      cases held
      cases held'
      exact congrArg Json.str read.symm

/-- Properties that are the same in both languages hold the times as Python writes them. -/
theorem spelled_of_same (valid : Flattenable record) (mirrors : audr.Mirrors record) {output other : Output}
    (fields : (mapValues some output).Perm (fieldProperties separator record))
    (fields' : (mapValues some other).Perm (fieldProperties separator (view library audr.dump)))
    (same : SameProperties output other) : ∀ text ∈ timeTexts record, Spelled library text := by
  intro text member
  obtain ⟨path, written, held, shown, spelled⟩ := @Record.AUDR.Mirrors.time library _ _ mirrors valid.formed _ member
  have here : (path ++ [], Value.string text) ∈ leaves record := by
    rw [mem_leaves_valueAt path valid.formed, held]
    exact List.mem_singleton_self _
  have there : (path ++ [], Value.string written) ∈ leaves (view library audr.dump) := by
    rw [mem_leaves_valueAt path (Mirrors.formed mirrors valid.formed), shown]
    exact List.mem_singleton_self _
  have property := (mem_properties fields).mpr ⟨_, here, rfl, rfl⟩
  have property' := (mem_properties fields').mpr ⟨_, there, rfl, rfl⟩
  have equal : Json.str text = .str written := same.values property property'
  exact spelled.mp (Json.str.inj equal).symm

/-- Both languages refuse labels that coincide. -/
theorem lossless_of_coincide {here : Except String Output} {there : Except String Output}
    (exact : Exact separator record here) (exact' : Exact separator (view library audr.dump) there)
    (valid : Flattenable record) (mirrors : audr.Mirrors record) (coincide : LabelsCoincide record) :
    ExactThere separator record (there.mapError .invalid) ∧ SameMap here (there.mapError .invalid) := by
  obtain ⟨path, refused⟩ := exact.refuses coincide
  obtain ⟨path', refused'⟩ := exact'.refuses ((coincide_view valid mirrors).mpr coincide)
  rw [refused, refused']
  exact ⟨⟨coincide, path', rfl⟩, trivial⟩

/-- Labels that stay apart are flattened alike where the times are spelled alike. -/
theorem lossless_of_apart {here there : Except String Output} (exact : Exact separator record here)
    (exact' : Exact separator (view library audr.dump) there) (valid : Flattenable record) (mirrors : audr.Mirrors record)
    (apart : ¬LabelsCoincide record) (spelled : ∀ text ∈ timeTexts record, Spelled library text) :
    ExactThere separator record (there.mapError .invalid) ∧ SameMap here (there.mapError .invalid) := by
  obtain ⟨output, flat, named, fields⟩ := exact.flattens apart
  obtain ⟨other, flat', named', fields'⟩ := exact'.flattens fun coincide => apart ((coincide_view valid mirrors).mp coincide)
  have same := sameProperties_view valid (mirrors.spelled valid.formed spelled) named named' fields fields'
  rw [flat, flat']
  exact ⟨⟨apart, named', output, fields, same⟩, same⟩

/-- Flattening keeps its promise in TypeScript exactly when no label is named like the prototype, or
when other labels coincide anyway; and in both languages exactly when, besides, Python can write
the times of the record, and writes them as the record has them where labels do not coincide. -/
theorem flatten_exact_iff (stringify : Value → String) (library : Record.Library) (dumps : Value → Option String)
    (separator : String) (record : Value) (valid : SchemaValid record) (under : Underscores separator) :
    (Exact separator record (flattenRecord stringify separator record) ↔
      (∀ label ∈ labelNames record, rewrite label ≠ "__proto__") ∨
        ∃ a ∈ labelNames record, ∃ b ∈ labelNames record, a ≠ b ∧ rewrite a = rewrite b ∧ rewrite a ≠ "__proto__") ∧
    ∀ audr : AUDR, audr.Mirrors record →
      (Lossless stringify library dumps separator record audr ↔
        (∀ text ∈ timeTexts record, Placed text) ∧
          ((∀ label ∈ labelNames record, rewrite label ≠ "__proto__") ∧ (∀ text ∈ timeTexts record, Spelled library text) ∨
            ∃ a ∈ labelNames record, ∃ b ∈ labelNames record, a ≠ b ∧ rewrite a = rewrite b ∧ rewrite a ≠ "__proto__")) := by
  have flat := flattenable valid
  have typescript := flattenBy_exact (plainObjects_lawful stringify) flat under
  simp only [decide_eq_true_eq] at typescript
  refine ⟨typescript, fun audr mirrors => ?_⟩
  have there : Exact separator (view library audr.dump) (PyChargebee.flatten dumps separator (view library audr.dump)) :=
    (flattenBy_exact (dicts_lawful dumps) (flattenable_view flat mirrors) under).mpr (.inl fun _ _ => rfl)
  constructor
  · intro lossless
    obtain ⟨here, python, same⟩ := lossless
    have placed : ∀ text ∈ timeTexts record, Placed text := by
      by_contra unplaced
      obtain ⟨exception, raised⟩ := flattenAudr_raises mirrors valid.formed unplaced
      rw [raised] at python
      exact python
    rw [flattenAudr_placed mirrors valid.formed placed] at same
    refine ⟨placed, ?_⟩
    by_cases coincide : LabelsCoincide record
    · refine (typescript.mp here).elim (fun free => .inr ?_) .inr
      obtain ⟨a, first, b, second, differ, alike⟩ := coincide
      exact ⟨a, first, b, second, differ, alike, free a first⟩
    · refine (typescript.mp here).imp_left fun free => ⟨free, ?_⟩
      obtain ⟨output, flattened, -, fields⟩ := here.flattens coincide
      obtain ⟨other, flattened', -, fields'⟩ := there.flattens fun coincide' =>
        coincide ((coincide_view flat mirrors).mp coincide')
      rw [flattened, flattened'] at same
      exact spelled_of_same flat mirrors fields fields' same
  · intro condition
    obtain ⟨placed, condition⟩ := condition
    have here := typescript.mpr (condition.imp_left And.left)
    have both : ExactThere separator record (flattenAudr library dumps separator audr) ∧
        SameMap (flattenRecord stringify separator record) (flattenAudr library dumps separator audr) := by
      rw [flattenAudr_placed mirrors valid.formed placed]
      by_cases coincide : LabelsCoincide record
      · exact lossless_of_coincide here there flat mirrors coincide
      · rcases condition with ⟨-, spelled⟩ | ⟨a, first, b, second, differ, alike, -⟩
        · exact lossless_of_apart here there flat mirrors coincide spelled
        · exact absurd ⟨a, first, b, second, differ, alike⟩ coincide
    exact ⟨here, both.1, both.2⟩

theorem labelledRecord_valid {labels : List String} (distinct : labels.Nodup)
    (clean : schemaErrors (asJson none (labelledRecord labels)) = []) : SchemaValid (labelledRecord labels) :=
  ⟨(labelledRecord_formed distinct).1, (labelledRecord_formed distinct).2, clean⟩

/-- A record of a text request in Python. -/
def sampleAudr (moment : Record.Moment) (attribution : { attribution : Record.Attribution // attribution.Checked }) : AUDR :=
  { embeddingRecord with
    emitter := embeddingRecord.emitter.map ({ · with version := ⟨"1.0.0", by simp, by simp⟩ })
    timing := ⟨moment, none, none⟩
    resource := { embeddingRecord.resource with name := ⟨"gpt", by simp, by simp⟩, operation := .generation }
    attribution := attribution
    usage := { embeddingRecord.usage with llm := embeddingRecord.usage.llm.map ({ · with requests := some 0 }) } }

theorem sampleAudr_mirrors {moment : Record.Moment} {attribution : { attribution : Record.Attribution // attribution.Checked }}
    {eventTime : String} {attributed : Value} {more : List (String × Value)} (time : Reads moment eventTime)
    (absent : ∀ entry ∈ more, entry.2 = .undefined) (once : (("run_id" :: "span_id" :: more.map Prod.fst)).Nodup)
    (mirrors : Mirrors Reads attribution.val.dump attributed) :
    (sampleAudr moment attribution).Mirrors (.object true
      [("spec_version", .string "1.1.0"),
        ("record_id", .string "01ARZ3NDEKTSV4RRFFQ69G5FAV"),
        ("emitter", .object true
          [("component", .string "harness"), ("name", .string "demo"), ("version", .string "1.0.0")]),
        ("timing", .object true [("event_time", .string eventTime)]),
        ("resource", .object true
          [("provider", .string "openai"), ("type", .string "model"), ("name", .string "gpt"),
            ("operation", .string "generation"), ("modality", .string "text")]),
        ("usage", .object true [("llm", .object true [("requests", .number (.finite 0))])]),
        ("run", .object true (("run_id", .string "run-0001") :: ("span_id", .string "s") :: more)),
        ("attribution", attributed)]) := by
  have count : Mirrors Reads (.count 0) (.number (.finite 0)) := .number rfl
  have text : ∀ text, Mirrors Reads (.text text) (.string text) := .text
  apply Mirrors.of_fields
  · simp
  · simp [sampleAudr, embeddingRecord, AUDR.fields]
  · simp [sampleAudr, embeddingRecord, AUDR.fields]
  · simp only [sampleAudr, embeddingRecord, AUDR.fields, Fields.present_some, Fields.present_none, Fields.present_nil,
      Option.map_some, Option.map_none, List.map_nil, List.append_nil, List.forall_mem_cons, List.not_mem_nil,
      IsEmpty.forall_iff, implies_true, and_true]
    refine ⟨text _, text _, ?_, ?_, ?_, ?_, mirrors, ?_⟩
    · apply Mirrors.of_fields
      · simp
      · simp [Record.Emitter.fields]
      · simp [Record.Emitter.fields]
      · simp only [Record.Emitter.fields, Fields.present_some, Fields.present_nil, List.map_nil, List.append_nil,
          List.forall_mem_cons, List.not_mem_nil, IsEmpty.forall_iff, implies_true, and_true]
        exact ⟨text _, text _, text _⟩
    · apply Mirrors.of_fields
      · simp
      · simp [Record.Timing.fields]
      · simp [Record.Timing.fields]
      · simpa [Record.Timing.fields, Value.field] using Mirrors.datetime time
    · apply Mirrors.of_fields
      · simp
      · simp [Record.Resource.fields]
      · simp [Record.Resource.fields]
      · simp only [Record.Resource.fields, Fields.present_some, Fields.present_none, Fields.present_nil, Option.map_some,
          Option.map_none, List.map_nil, List.append_nil, List.forall_mem_cons, List.not_mem_nil, IsEmpty.forall_iff,
          implies_true, and_true]
        exact ⟨text _, text _, text _, text _, text _⟩
    · apply Mirrors.of_fields
      · simpa using once
      · simp [Record.Run.fields]
      · simp only [List.forall_mem_cons]
        refine ⟨by simp [Record.Run.fields], by simp [Record.Run.fields], fun entry member defined => ?_⟩
        rw [absent entry member] at defined
        cases defined
      · simp only [Record.Run.fields, Fields.present_some, Fields.present_none, Fields.present_nil, Option.map_none,
          List.map_nil, List.append_nil, List.forall_mem_cons, List.not_mem_nil, IsEmpty.forall_iff, implies_true, and_true]
        exact ⟨text _, text _⟩
    · apply Mirrors.of_fields
      · simp
      · simp [Record.Usage.fields]
      · simp [Record.Usage.fields]
      · simp only [Record.Usage.fields, Fields.present_some, Fields.present_none, Fields.present_nil, Option.map_some,
          Option.map_none, List.map_nil, List.append_nil, List.forall_mem_cons, List.not_mem_nil, IsEmpty.forall_iff,
          implies_true, and_true]
        apply Mirrors.of_fields
        · simp
        · simp [Record.LlmUsage.fields]
        · simp [Record.LlmUsage.fields]
        · simpa [Record.LlmUsage.fields, Value.field] using count

def labelledAttribution (labels : List String) : Record.Attribution :=
  ⟨some .test, none, none, none, none, some (labels.map fun name => (name, name))⟩

def labelledAudr (labels : List String) (checked : (labelledAttribution labels).Checked) : AUDR :=
  sampleAudr ⟨63871286400000000, 0⟩ ⟨_, checked⟩

theorem labelledAudr_mirrors {labels : List String} (distinct : labels.Nodup) (checked : (labelledAttribution labels).Checked) :
    (labelledAudr labels checked).Mirrors (labelledRecord labels) := by
  have time : Reads ⟨63871286400000000, 0⟩ "2025-01-01T00:00:00.000Z" :=
    ⟨⟨2025, 1, 1, 0, 0, 0, ['0', '0', '0'], none⟩, by decide +kernel, by decide, by constructor <;> decide, by decide +kernel⟩
  have labelled : Mirrors Reads (Record.labelsDump (labels.map fun name => (name, name)))
      (.object true (labels.map fun name => (name, .string name))) := by
    rw [Record.labelsDump, List.map_map]
    apply Mirrors.dict
    · simpa [Function.comp_def] using distinct
    · simp [Value.isDefined]
    · intro name dump value first second
      obtain ⟨label, -, same⟩ := List.mem_map.mp first
      obtain ⟨label', -, same'⟩ := List.mem_map.mp second
      cases same
      cases same'
      exact .text _
  have attributed : Mirrors Reads (labelledAttribution labels).dump
      (.object true [("environment", .string "test"), ("labels", .object true (labels.map fun name => (name, .string name)))]) := by
    apply Mirrors.of_fields
    · simp
    · simp [labelledAttribution, Record.Attribution.dumpFields]
    · simp [labelledAttribution, Record.Attribution.dumpFields]
    · simp only [labelledAttribution, Record.Attribution.dumpFields, Fields.present_some, Fields.present_none,
        Fields.present_nil, Option.map_some, Option.map_none, List.map_nil, List.append_nil, List.forall_mem_cons,
        List.not_mem_nil, IsEmpty.forall_iff, implies_true, and_true]
      exact ⟨.text _, labelled⟩
  exact @sampleAudr_mirrors _ _ _ _ [("name", .undefined)] time (by simp) (by simp) attributed

/-- A record with labels that are rewritten. -/
theorem flatten_exact_labelled : Lossless (fun _ => "") Record.Library.plain (fun _ => some "") "_"
    (labelledRecord ["cost-center", "team.name"]) (labelledAudr ["cost-center", "team.name"] (by decide +kernel)) :=
  ((flatten_exact_iff _ _ _ _ _ (labelledRecord_valid (by decide) (by decide +kernel)) (by decide)).2 _
    (labelledAudr_mirrors (by decide) _)).mpr ⟨by decide +kernel, .inl (by decide +kernel)⟩

/-- A label that is rewritten to the name of the prototype is lost. -/
theorem flatten_prototype : ¬∀ stringify library dumps separator record audr, SchemaValid record → Underscores separator →
    AUDR.Mirrors audr record → Lossless stringify library dumps separator record audr := by
  intro all
  have valid := @labelledRecord_valid ["--proto--"] (by decide) (by decide +kernel)
  have lossless := all (fun _ => "") Record.Library.plain (fun _ => some "") "__" _ _ valid (by decide)
    (labelledAudr_mirrors (by decide) (by decide +kernel))
  have kept := (flattenBy_exact (plainObjects_lawful _) (flattenable valid) (by decide)).mp lossless.typescript
  revert kept
  decide +kernel

end Audr.Chargebee
