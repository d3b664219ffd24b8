import Audr.JsRecord.Leaves
import Audr.Record.Agreement
import Audr.Record.Instant
import Audr.Record.Loading

/-! Records that both packages hold: the Python one has what the TypeScript one has, with moments
in place of their texts. -/

namespace Audr.Record

open JsRecord (Value leaves leavesOf Shaped valueAt finiteValue)
open JsRecord.Value (SameNumber)
open Properties (mapValues)

/-- The number both languages have, without rounding. -/
def Equals : Python.Number → Double → Prop
  | .int n, double => finiteValue double = some (n : ℚ)
  | .float value, double => SameNumber value double ∧ value.isFinite = true

/-- What is dumped in Python is what JavaScript has: the same numbers and texts under the same names,
and moments that are read from the texts there. Undefined members count as absent. -/
inductive Mirrors (reads : Moment → String → Prop) : Dump → Value → Prop
  | number {number : Python.Number} {double : Double} (equals : Equals number double) :
      Mirrors reads (.number number) (.number double)
  | datetime {moment : Moment} {text : String} (read : reads moment text) : Mirrors reads (.datetime moment) (.string text)
  | text (text : String) : Mirrors reads (.text text) (.string text)
  | dict {members : List (String × Dump)} {plain : Bool} {values : List (String × Value)}
      (distinct : (members.map Prod.fst).Nodup)
      (names : ∀ name, name ∈ members.map Prod.fst ↔ ∃ value, (name, value) ∈ values ∧ value.isDefined = true)
      (each : ∀ {name dump value}, (name, dump) ∈ members → (name, value) ∈ values → Mirrors reads dump value) :
      Mirrors reads (.dict members) (.object plain values)

/-- The Python package holds a record of the TypeScript package. -/
def AUDR.Mirrors (audr : AUDR) (record : Value) : Prop := Record.Mirrors Reads audr.dump record

mutual

/-- The moments of a dump, each with the names that lead to it. -/
def moments : Dump → List (List String × Moment)
  | .datetime moment => [([], moment)]
  | .dict members => momentsOf members
  | .number _ => []
  | .text _ => []

def momentsOf : List (String × Dump) → List (List String × Moment)
  | [] => []
  | (name, dump) :: rest => (moments dump).map (fun held => (name :: held.1, held.2)) ++ momentsOf rest

end

variable {library : Library} {reads told : Moment → String → Prop} {dump : Dump} {value : Value}

theorem Mirrors.isDefined (mirrors : Mirrors reads dump value) : value.isDefined = true := by
  cases mirrors <;> rfl

/-! Numbers. -/

/-- A number that is a double is read back as that double. -/
theorem Equals.jsNumber {number : Python.Number} {double : Double} (equals : Equals number double)
    (formed : (Value.number double).WellFormed) : SameNumber (jsNumber number) double ∧ (jsNumber number).isFinite = true := by
  cases number with
  | float value => exact equals
  | int n =>
    have literal : (Literal.int (decide (n < 0)) n.natAbs).value = n := by
      have magnitude : (((n.natAbs : ℚ≥0) : ℚ)) = |(n : ℚ)| := by
        rw [NNRat.cast_natCast, Nat.cast_natAbs, Int.cast_abs]
      simp only [Literal.value, Literal.negative, Literal.magnitude, decide_eq_true_eq, magnitude]
      split
      next low => rw [abs_of_neg (by exact_mod_cast low), neg_neg]
      next high => rw [abs_of_nonneg (by exact_mod_cast not_lt.mp high)]
    have exact' : Double.ofRat n = .finite n := by
      cases formed with
      | number representable =>
        have same : _ = (n : ℚ) := Option.some.inj equals
        exact same ▸ representable
      | special other =>
        cases double with
        | finite q => exact absurd rfl (other q)
        | negativeZero =>
          have zero : (0 : ℚ) = n := Option.some.inj equals
          rw [← zero]
          exact Double.representable_zero
        | _ => cases equals
    have read : Record.jsNumber (.int n) = .finite n := by
      rw [Record.jsNumber, Literal.double, literal, exact', if_neg]
      rintro ⟨zero, negative⟩
      have none : n = 0 := by
        injection zero with zero
        exact_mod_cast zero
      simp [none, Literal.negative] at negative
    rw [read]
    refine ⟨?_, rfl⟩
    cases double with
    | finite q => exact .inl (congrArg Double.finite (Option.some.inj equals).symm)
    | negativeZero =>
      have zero : (0 : ℚ) = n := Option.some.inj equals
      exact .inr ⟨.inl (congrArg Double.finite zero.symm), .inr rfl⟩
    | _ => cases equals

/-! What is dumped, as JavaScript reads it. -/

theorem mem_viewMembers {members : List (String × Dump)} {name : String} : (name, value) ∈ viewMembers library members ↔
    ∃ dump, (name, dump) ∈ members ∧ view library dump = value := by
  rw [viewMembers_eq, Properties.mem_mapValues]
  constructor
  · rintro ⟨⟨_, dump⟩, member, same⟩
    obtain ⟨rfl, rfl⟩ := Prod.mk.inj same
    exact ⟨dump, member, rfl⟩
  · rintro ⟨dump, member, rfl⟩
    exact ⟨(name, dump), member, rfl⟩

/-- The member of an object that a dumped one mirrors. -/
theorem exists_member {members : List (String × Dump)} {values : List (String × Value)} {name : String}
    (names : ∀ name, name ∈ members.map Prod.fst ↔ ∃ value, (name, value) ∈ values ∧ value.isDefined = true)
    (listed : (name, dump) ∈ members) : ∃ value, (name, value) ∈ values := by
  obtain ⟨value, member, -⟩ := (names name).mp (List.mem_map_of_mem listed)
  exact ⟨value, member⟩

theorem Mirrors.formed (mirrors : Mirrors reads dump value) (formed : value.WellFormed) : (view library dump).WellFormed := by
  induction mirrors with
  | number equals =>
    obtain ⟨same, finite⟩ := equals.jsNumber formed
    rw [view]
    obtain same | ⟨zero, -⟩ := same
    · exact same ▸ formed
    · rcases zero with zero | zero
      · exact zero ▸ .number Double.representable_zero
      · exact zero ▸ .special (by simp)
  | datetime => exact .string _
  | text => exact .string _
  | dict distinct names each ih =>
    obtain - | - | - | - | - | - | - | ⟨-, formed⟩ := formed
    rw [view]
    apply Value.WellFormed.object
    · rw [viewMembers_eq, Properties.map_fst_mapValues]
      exact distinct
    · rintro ⟨name, shown⟩ member
      obtain ⟨dump, listed, rfl⟩ := mem_viewMembers.mp member
      obtain ⟨value, held⟩ := exists_member names listed
      exact ih listed held (formed _ held)

theorem Mirrors.shaped {key : String} (mirrors : Mirrors reads dump value) (formed : value.WellFormed) (shaped : Shaped key value) :
    Shaped key (view library dump) := by
  induction mirrors generalizing key with
  | number equals => exact .number key (equals.jsNumber formed).2
  | datetime => exact .string key _
  | text => exact .string key _
  | dict distinct names each ih =>
    obtain - | - | - | - | - | - | - | ⟨-, formed⟩ := formed
    rw [view]
    obtain - | - | - | texts | ⟨other, inner⟩ := shaped
    · apply Shaped.labels
      rintro ⟨name, shown⟩ member
      obtain ⟨dump, listed, rfl⟩ := mem_viewMembers.mp member
      obtain ⟨value, held⟩ := exists_member names listed
      obtain ⟨text, string⟩ := texts _ held
      have mirrors := each listed held
      rw [show value = .string text from string] at mirrors
      cases mirrors with
      | datetime => exact ⟨_, rfl⟩
      | text => exact ⟨_, rfl⟩
    · apply Shaped.object other
      rintro ⟨name, shown⟩ member
      obtain ⟨dump, listed, rfl⟩ := mem_viewMembers.mp member
      obtain ⟨value, held⟩ := exists_member names listed
      exact ih listed held (formed _ held) (inner _ held)

/-! Leaves. -/

/-- A leaf of what Python writes, beside that of the record. -/
inductive Told (reads : Moment → String → Prop) (library : Library) : Value → Value → Prop
  | number {x y : Double} (same : SameNumber x y) : Told reads library (.number x) (.number y)
  | text (text : String) : Told reads library (.string text) (.string text)
  | datetime {moment : Moment} {text : String} (read : reads moment text) :
      Told reads library (.string (clockText library moment.utc.toNat)) (.string text)

/-- What is written has a leaf for each of the record. -/
theorem Mirrors.shown (mirrors : Mirrors reads dump value) (formed : value.WellFormed) : ∀ leaf ∈ leaves value,
    ∃ shown, (leaf.1, shown) ∈ leaves (view library dump) ∧ Told reads library shown leaf.2 := by
  induction mirrors with
  | number equals =>
    intro leaf member
    rw [List.mem_singleton.mp member]
    exact ⟨_, List.mem_singleton_self _, .number (equals.jsNumber formed).1⟩
  | datetime read =>
    intro leaf member
    rw [List.mem_singleton.mp member]
    exact ⟨_, List.mem_singleton_self _, .datetime read⟩
  | text text =>
    intro leaf member
    rw [List.mem_singleton.mp member]
    exact ⟨_, List.mem_singleton_self _, .text text⟩
  | dict distinct names each ih =>
    obtain - | - | - | - | - | - | - | ⟨-, formed⟩ := formed
    intro leaf member
    obtain ⟨⟨name, value⟩, held, rest, found, spelled⟩ := JsRecord.mem_leavesOf.mp member
    have known := (names name).mpr ⟨value, held, JsRecord.isDefined_of_leaf found⟩
    obtain ⟨⟨_, dump⟩, listed, rfl⟩ := List.mem_map.mp known
    obtain ⟨shown, inside, told⟩ := ih listed held (formed _ held) _ found
    refine ⟨shown, ?_, told⟩
    rw [view, leaves, spelled]
    exact JsRecord.mem_leavesOf.mpr ⟨_, mem_viewMembers.mpr ⟨dump, listed, rfl⟩, rest, inside, rfl⟩

/-- The record has a leaf for each that is written. -/
theorem Mirrors.leaf (mirrors : Mirrors reads dump value) : ∀ leaf ∈ leaves (view library dump),
    ∃ held, (leaf.1, held) ∈ leaves value := by
  induction mirrors with
  | number =>
    intro leaf member
    rw [List.mem_singleton.mp member]
    exact ⟨_, List.mem_singleton_self _⟩
  | datetime =>
    intro leaf member
    rw [List.mem_singleton.mp member]
    exact ⟨_, List.mem_singleton_self _⟩
  | text =>
    intro leaf member
    rw [List.mem_singleton.mp member]
    exact ⟨_, List.mem_singleton_self _⟩
  | dict distinct names each ih =>
    intro leaf member
    rw [view] at member
    obtain ⟨⟨name, shown⟩, viewed, rest, found, spelled⟩ := JsRecord.mem_leavesOf.mp member
    obtain ⟨dump, listed, rfl⟩ := mem_viewMembers.mp viewed
    obtain ⟨value, held⟩ := exists_member names listed
    obtain ⟨under, inside⟩ := ih listed held _ found
    exact ⟨under, JsRecord.mem_leavesOf.mpr ⟨_, held, rest, inside, spelled⟩⟩

/-! Moments. -/

theorem momentsOf_eq (members : List (String × Dump)) :
    momentsOf members = members.flatMap fun entry => (moments entry.2).map fun held => (entry.1 :: held.1, held.2) := by
  induction members with
  | nil => rfl
  | cons entry rest ih =>
    obtain ⟨name, dump⟩ := entry
    rw [momentsOf, ih, List.flatMap_cons]

/-- Moments that are read from their texts in another way, too. -/
theorem Mirrors.mono (mirrors : Mirrors reads dump value) (formed : value.WellFormed)
    (implies : ∀ held ∈ moments dump, ∀ text, valueAt value held.1 = .string text → reads held.2 text → told held.2 text) :
    Mirrors told dump value := by
  induction mirrors with
  | number equals => exact .number equals
  | datetime read => exact .datetime (implies _ List.mem_cons_self _ rfl read)
  | text text => exact .text text
  | dict distinct names each ih =>
    obtain - | - | - | - | - | - | - | ⟨once, formed⟩ := formed
    apply Mirrors.dict distinct names
    intro name dump value listed held
    apply ih listed held (formed _ held)
    intro inner member text found read
    apply implies (name :: inner.1, inner.2)
    · rw [moments, momentsOf_eq, List.mem_flatMap]
      exact ⟨_, listed, List.mem_map.mpr ⟨inner, member, rfl⟩⟩
    · rw [valueAt, JsRecord.field_of_mem once held, found]
    · exact read

/-- What a record mirrors has finite numbers: it is written where its moments have a place in UTC. -/
theorem Mirrors.cleans_iff (mirrors : Mirrors reads dump value) :
    Cleans library dump ↔ ∀ held ∈ moments dump, 0 ≤ held.2.utc ∧ held.2.utc < momentsEnd := by
  induction mirrors with
  | number equals =>
    rename_i number double
    have all : Cleans library (.number number) := by
      cases number with
      | int n => exact ⟨_, rfl⟩
      | float value => exact ⟨_, if_pos equals.2⟩
    exact iff_of_true all (by simp [moments])
  | datetime read =>
    rw [moments]
    constructor
    · intro cleans held member
      rw [List.mem_singleton.mp member]
      exact cleans_moment cleans
    · intro inside
      have inside := inside _ List.mem_cons_self
      exact ⟨_, by rw [clean, toRfc3339Ms, if_pos inside]; rfl⟩
  | text text => exact iff_of_true ⟨_, rfl⟩ (by simp [moments])
  | dict distinct names each ih =>
    rename_i members _ _
    rw [moments, momentsOf_eq]
    constructor
    · intro cleans held member
      obtain ⟨⟨name, dump⟩, listed, inside⟩ := List.mem_flatMap.mp member
      obtain ⟨inner, found, rfl⟩ := List.mem_map.mp inside
      obtain ⟨value, held⟩ := exists_member names listed
      exact (ih listed held).mp (cleans_dict cleans _ listed) inner found
    · intro inside
      have all : ∀ entry ∈ members, ∃ plain, clean library entry.2 = .ok plain := by
        rintro ⟨name, dump⟩ listed
        obtain ⟨value, held⟩ := exists_member names listed
        apply (ih listed held).mpr
        intro inner found
        exact inside (name :: inner.1, inner.2)
          (List.mem_flatMap.mpr ⟨_, listed, List.mem_map.mpr ⟨inner, found, rfl⟩⟩)
      obtain ⟨values, cleaned⟩ := sequence_some all
      exact ⟨.obj values, by rw [clean, cleanMembers_eq, cleaned]; rfl⟩

/-! Fields. -/

/-- A field of a block, set or left out, as a record has it. -/
inductive Held (reads : Moment → String → Prop) : Option Dump → Value → Prop
  | some {dump : Dump} {value : Value} (mirrors : Mirrors reads dump value) : Held reads (some dump) value
  | none : Held reads none .undefined

theorem Held.text {text : String} (held : Held reads (Option.some (.text text)) value) : value = .string text := by
  cases held with
  | some mirrors =>
    cases mirrors with
    | text => rfl

theorem Held.datetime {moment : Moment} (held : Held reads (Option.some (.datetime moment)) value) :
    ∃ text, value = .string text ∧ reads moment text := by
  cases held with
  | some mirrors =>
    cases mirrors with
    | datetime read => exact ⟨_, rfl, read⟩

theorem valueAt_cons (value : Value) (name : String) (rest : List String) :
    valueAt value (name :: rest) = valueAt (valueAt value [name]) rest := by
  cases value with
  | object plain members => rfl
  | _ => cases rest <;> rfl

theorem Mirrors.field {fields : List (String × Option Dump)} {extra : List (String × Python.Number)} {name : String}
    {held : Option Dump} (mirrors : Mirrors reads (.block fields extra) value) (separate : Separate fields extra)
    (formed : value.WellFormed) (listed : (name, held) ∈ fields) : Held reads held (valueAt value [name]) := by
  cases mirrors with
  | dict distinct names each =>
    rename_i plain values
    obtain - | - | - | - | - | - | - | ⟨once, -⟩ := formed
    rw [valueAt, valueAt]
    cases held with
    | some dump =>
      have member : (name, dump) ∈ Fields.present fields ++ extra.map fun entry => (entry.1, Dump.number entry.2) :=
        List.mem_append_left _ (Fields.mem_present.mpr listed)
      obtain ⟨value, found⟩ := exists_member names member
      rw [JsRecord.field_of_mem once found]
      exact .some (each member found)
    | none =>
      have absent : (Value.field name values).isDefined = false := by
        rw [Bool.eq_false_iff]
        intro defined
        have known := (names name).mpr ⟨_, JsRecord.mem_of_field defined, defined⟩
        rw [List.map_append, List.map_map, List.mem_append, Fields.mem_names] at known
        rcases known with ⟨dump, inside⟩ | outside
        · have same := List.inj_on_of_nodup_map separate.named listed inside rfl
          cases same
        · obtain ⟨entry, member, rfl⟩ := List.mem_map.mp outside
          exact separate.apart entry member (List.mem_map.mpr ⟨_, listed, rfl⟩)
      cases field : Value.field name values with
      | undefined => exact .none
      | _ => simp [field, Value.isDefined] at absent

/-- A mapping mirrors an object that has its members, whatever their order. -/
theorem Mirrors.of_fields {members : List (String × Dump)} {values : List (String × Value)}
    (once : (values.map Prod.fst).Nodup) (distinct : (members.map Prod.fst).Nodup)
    (known : ∀ entry ∈ values, entry.2.isDefined = true → entry.1 ∈ members.map Prod.fst)
    (each : ∀ member ∈ members, Mirrors reads member.2 (Value.field member.1 values)) :
    Mirrors reads (.dict members) (.object true values) := by
  apply Mirrors.dict distinct
  · intro name
    constructor
    · intro listed
      obtain ⟨member, inside, rfl⟩ := List.mem_map.mp listed
      have defined := (each member inside).isDefined
      exact ⟨_, JsRecord.mem_of_field defined, defined⟩
    · rintro ⟨value, listed, defined⟩
      exact known _ listed defined
  · intro name dump value listed held
    have mirrors := each _ listed
    rw [JsRecord.field_of_mem once held] at mirrors
    exact mirrors

/-- The text a moment was read from, and the one it is written as, stand where the moment does. -/
theorem Mirrors.moment (mirrors : Mirrors reads dump value) (formed : value.WellFormed) : ∀ held ∈ moments dump,
    ∃ text, valueAt value held.1 = .string text ∧ reads held.2 text ∧
      valueAt (view library dump) held.1 = .string (clockText library held.2.utc.toNat) := by
  induction mirrors with
  | number => exact nofun
  | text => exact nofun
  | datetime read =>
    intro held member
    rw [List.mem_singleton.mp member]
    exact ⟨_, rfl, read, rfl⟩
  | dict distinct names each ih =>
    obtain - | - | - | - | - | - | - | ⟨once, formed⟩ := formed
    intro held member
    rw [moments, momentsOf_eq] at member
    obtain ⟨⟨name, dump⟩, listed, inside⟩ := List.mem_flatMap.mp member
    obtain ⟨inner, found, rfl⟩ := List.mem_map.mp inside
    obtain ⟨value, held⟩ := exists_member names listed
    obtain ⟨text, spelled, read, written⟩ := ih listed held (formed _ held) inner found
    refine ⟨text, ?_, read, ?_⟩
    · rw [valueAt, JsRecord.field_of_mem once held, spelled]
    · rw [view, valueAt, JsRecord.field_of_mem _ (mem_viewMembers.mpr ⟨dump, listed, rfl⟩), written]
      rw [viewMembers_eq, Properties.map_fst_mapValues]
      exact distinct

/-! The moments of a record. -/

theorem moments_block {fields : List (String × Option Dump)} {extra : List (String × Python.Number)} :
    moments (.block fields extra) =
      fields.flatMap fun field => (field.2.elim [] moments).map fun held => (field.1 :: held.1, held.2) := by
  have extras : (extra.map fun entry => (entry.1, Dump.number entry.2)).flatMap (fun entry =>
      (moments entry.2).map fun held => (entry.1 :: held.1, held.2)) = [] := by
    simp [List.flatMap_map, moments]
  rw [Dump.block, moments, momentsOf_eq, List.flatMap_append, extras, List.append_nil]
  induction fields with
  | nil => rfl
  | cons field rest ih =>
    obtain ⟨name, held⟩ := field
    cases held with
    | none => simpa using ih
    | some dump => simpa using ih

theorem elim_timeless {A B : Type} {f : A → List B} (none : ∀ x, f x = []) (held : Option A) : held.elim [] f = [] := by
  cases held with
  | none => rfl
  | some x => exact none x

theorem timeless_amount {most : Option ℚ} (amount : Amount most) : moments (.amount amount) = [] := by
  rw [Dump.amount, moments]

theorem timeless_count (n : Nat) : moments (.count n) = [] := by
  rw [Dump.count, moments]

theorem timeless_labels (labels : List (String × String)) : moments (labelsDump labels) = [] := by
  simp [labelsDump, moments, momentsOf_eq, List.flatMap_map]

/-- A block none of whose fields has a moment. -/
theorem timeless_block {fields : List (String × Option Dump)} {extra : List (String × Python.Number)}
    (none : ∀ field ∈ fields, field.2.elim [] moments = []) : moments (.block fields extra) = [] := by
  rw [moments_block, List.flatMap_eq_nil_iff]
  intro field listed
  rw [none field listed, List.map_nil]

theorem AUDR.moments_eq (record : AUDR) : moments record.dump = (["timing", "event_time"], record.timing.eventTime) ::
    record.timing.receivedTime.toList.map fun moment => (["timing", "received_time"], moment) := by
  have text : ∀ text, moments (.text text) = [] := fun text => rfl
  have emitter : ∀ emitter : Emitter, moments emitter.dump = [] := fun emitter =>
    timeless_block (by simp [Emitter.fields, text])
  have resource : moments record.resource.dump = [] := timeless_block (by simp [Resource.fields, text, elim_timeless])
  have run : moments record.run.dump = [] := timeless_block (by simp [Run.fields, text, elim_timeless, timeless_count])
  have attribution : moments record.attribution.val.dump = [] :=
    timeless_block (by simp [Attribution.dumpFields, text, elim_timeless, timeless_labels])
  have llm : ∀ usage : LlmUsage, moments usage.dump = [] := fun usage =>
    timeless_block (by simp [LlmUsage.fields, elim_timeless, timeless_count, timeless_amount])
  have tool : ∀ usage : ToolUsage, moments usage.dump = [] := fun usage =>
    timeless_block (by simp [ToolUsage.fields, text, elim_timeless, timeless_count, timeless_amount])
  have usage : moments record.usage.dump = [] := timeless_block (by simp [Usage.fields, elim_timeless, llm, tool])
  have llmCost : ∀ cost : LlmCost, moments cost.dump = [] := fun cost =>
    timeless_block (by simp [LlmCost.fields, elim_timeless, timeless_amount])
  have toolCost : ∀ cost : ToolCost, moments cost.dump = [] := fun cost =>
    timeless_block (by simp [ToolCost.fields, text, elim_timeless, timeless_amount])
  have cost : ∀ cost : Cost, moments cost.dump = [] := fun cost =>
    timeless_block (by simp [Cost.fields, text, elim_timeless, timeless_amount, llmCost, toolCost])
  have timing : moments record.timing.dump = (["event_time"], record.timing.eventTime) ::
      record.timing.receivedTime.toList.map fun moment => (["received_time"], moment) := by
    rw [Timing.dump, moments_block, Timing.fields]
    cases record.timing.receivedTime with
    | none => simp [moments, elim_timeless, timeless_count]
    | some moment => simp [moments, elim_timeless, timeless_count]
  rw [AUDR.dump, moments_block, AUDR.fields]
  simp [text, emitter, resource, run, attribution, usage, cost, timing, elim_timeless, Function.comp_def]

/-- Where a record may have times. -/
def timePaths : List (List String) := [["timing", "event_time"], ["timing", "received_time"]]

/-- The texts of the times of a record. -/
def timeTexts (record : Value) : List String :=
  timePaths.filterMap fun path =>
    match valueAt record path with
    | .string text => some text
    | _ => none

theorem mem_timeTexts {record : Value} {text : String} :
    text ∈ timeTexts record ↔ ∃ path ∈ timePaths, valueAt record path = .string text := by
  rw [timeTexts, List.mem_filterMap]
  apply exists_congr
  intro path
  apply and_congr_right
  intro _
  cases valueAt record path <;> simp

namespace AUDR.Mirrors

variable {audr : AUDR} {record : Value}

theorem field (mirrors : audr.Mirrors record) (formed : record.WellFormed) {name : String} {held : Option Dump}
    (listed : (name, held) ∈ audr.fields) : Held Reads held (valueAt record [name]) :=
  Record.Mirrors.field mirrors (record_separate audr) formed listed

/-- The texts of the times are those the moments were read from. -/
theorem mem_timeTexts (mirrors : audr.Mirrors record) (formed : record.WellFormed) {text : String} :
    text ∈ timeTexts record ↔ ∃ held ∈ moments audr.dump, valueAt record held.1 = .string text := by
  rw [Record.mem_timeTexts, AUDR.moments_eq]
  simp only [timePaths, List.mem_cons, List.not_mem_nil, or_false, exists_eq_or_imp, exists_eq_left, List.mem_map,
    Option.mem_toList]
  apply or_congr_right
  cases given : audr.timing.receivedTime with
  | some moment => simp
  | none =>
    obtain ⟨timing⟩ := mirrors.field formed (show ("timing", some audr.timing.dump) ∈ audr.fields by simp [AUDR.fields])
    have received := timing.field (timing_separate audr.timing) (JsRecord.valueAt_wellFormed _ formed)
      (show ("received_time", none) ∈ audr.timing.fields by simp [Timing.fields, given])
    rw [← valueAt_cons] at received
    have absent : valueAt record ["timing", "received_time"] = .undefined := by
      generalize valueAt record ["timing", "received_time"] = value at received
      cases received
      rfl
    simp [absent]

/-- `to_dict` raises nothing where the instants of the times have a date in UTC. -/
theorem cleans_iff (mirrors : audr.Mirrors record) (formed : record.WellFormed) :
    Cleans library audr.dump ↔ ∀ text ∈ timeTexts record, Placed text := by
  rw [Record.Mirrors.cleans_iff mirrors]
  constructor
  · intro inside text member
    obtain ⟨held, listed, spelled⟩ := (mirrors.mem_timeTexts formed).mp member
    obtain ⟨text', found, reads, -⟩ := @Record.Mirrors.moment library _ _ _ mirrors formed held listed
    obtain rfl : text' = text := Value.string.inj (found.symm.trans spelled)
    exact reads.placed_iff.mpr (inside held listed)
  · intro placed held listed
    obtain ⟨text, found, reads, -⟩ := @Record.Mirrors.moment library _ _ _ mirrors formed held listed
    exact reads.placed_iff.mp (placed text ((mirrors.mem_timeTexts formed).mpr ⟨held, listed, found⟩))

/-- Where the times are spelled as they are written, every leaf is written as the record has it. -/
theorem spelled (mirrors : audr.Mirrors record) (formed : record.WellFormed)
    (spelled : ∀ text ∈ timeTexts record, Spelled library text) :
    Record.Mirrors (fun moment text => clockText library moment.utc.toNat = text) audr.dump record := by
  apply Record.Mirrors.mono mirrors formed
  intro held listed text found reads
  exact reads.spelled_iff.mpr (spelled text ((mirrors.mem_timeTexts formed).mpr ⟨held, listed, found⟩))

/-- What is written in place of the text of a time. -/
theorem time (mirrors : audr.Mirrors record) (formed : record.WellFormed) {text : String} (member : text ∈ timeTexts record) :
    ∃ path written, valueAt record path = .string text ∧ valueAt (view library audr.dump) path = .string written ∧
      (written = text ↔ Spelled library text) := by
  obtain ⟨held, listed, spelled⟩ := (mirrors.mem_timeTexts formed).mp member
  obtain ⟨text', found, reads, written⟩ := @Record.Mirrors.moment library _ _ _ mirrors formed held listed
  obtain rfl : text' = text := Value.string.inj (found.symm.trans spelled)
  exact ⟨held.1, _, found, written, reads.spelled_iff⟩

end AUDR.Mirrors

end Audr.Record
