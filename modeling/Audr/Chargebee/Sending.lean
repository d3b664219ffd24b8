import Audr.Chargebee.Envelope

/-! Which events are sent, and when they are those the destination takes. -/

namespace Audr.Chargebee

open JsRecord Paths

/-- The sink's way to make events of records. -/
def encoder (stringify : Value → String) (separator : String) : Encoder ValidRecord where
  event := buildEvent stringify separator
  deduplicated made := (buildEvent_fields made).2.2

end Audr.Chargebee

namespace Audr.PyChargebee

open Chargebee
open Python (Number)
open Record (AUDR)

variable {codec : Codec} {library : Record.Library} {separator : String}

theorem buildEvent_fields {record : AUDR} {event : UsageEvent Number}
    (made : buildEvent codec library separator record = .ok event) :
    event.subscriptionId = record.attribution.val.subscriptionId.getD "" ∧ event.usageTimestamp = eventTimeMs record ∧
      event.deduplicationId = record.recordId := by
  unfold buildEvent at made
  simp only at made
  split at made
  · cases made
  · cases flat : flattenAudr library codec.dumps separator record with
    | error refusal =>
      rw [flat] at made
      cases made
    | ok output =>
      rw [flat] at made
      simp only [bind, Except.bind] at made
      split at made
      · cases made
      next found checked =>
        cases made
        cases valid : validateEvent (conventions codec.repr)
            ⟨record.attribution.val.subscriptionId.getD "", eventTimeMs record, record.recordId, output⟩ with
        | error message =>
          rw [valid] at checked
          cases checked
        | ok event =>
          rw [valid] at checked
          cases checked
          rw [validateEvent_eq valid]
          exact ⟨rfl, rfl, rfl⟩

/-- The sink's way to make events of records. -/
def encoder (codec : Codec) (library : Record.Library) (separator : String) : Encoder AUDR where
  event := buildEvent codec library separator
  deduplicated made := (buildEvent_fields made).2.2

end Audr.PyChargebee

namespace Audr.Chargebee

open JsRecord Paths

variable {I N : Type} {blank : String → Bool} {keep : String → Bool}

/-- Thirteen decimal digits. -/
def InRange (ms : Int) : Prop := 10 ^ 12 ≤ ms ∧ ms < 10 ^ 13

/-- Twelve decimal digits after a sign. -/
def Negative (ms : Int) : Prop := -10 ^ 12 < ms ∧ ms ≤ -10 ^ 11

instance (ms : Int) : Decidable (InRange ms) := inferInstanceAs (Decidable (_ ∧ _))

instance (ms : Int) : Decidable (Negative ms) := inferInstanceAs (Decidable (_ ∧ _))

/-- An event that is the record's and that the destination takes. -/
structure Fits (blank : String → Bool) (record : ValidRecord) (event : UsageEvent N) : Prop where
  timestamp : event.usageTimestamp = record.eventTimeMs
  digits : InRange event.usageTimestamp
  subscription : event.subscriptionId = record.subscriptionId
  named : blank event.subscriptionId = false
  short : event.subscriptionId.length ≤ maxSubscriptionIdLength
  deduplication : event.deduplicationId = record.recordId
  brief : event.deduplicationId.length ≤ maxDeduplicationIdLength

section Promises

variable {valid : I → ValidRecord} {raises : I → Prop} {made : I → Option (UsageEvent N)} {batch : List I}
  {looped : Option (List (String × Option String) × List (UsageEvent N))}
  {reported : List (String × Option String) → Prop}

end Promises

/-! The loops over the batch. -/

section Loops

variable {R : Type} [AudrRecord R] {record : R} {batch : List R}

end Loops

end Audr.Chargebee

namespace Audr.PyChargebee

open Chargebee
open Python (Number)

section Loops

variable {R : Type} [AudrRecord R] {record : R} {batch : List R}

/-- An exception that `deliver` does not catch. -/
def Encoder.raises (encoder : Encoder R) (record : R) : Prop := ∃ exception, encoder.event record = .error (.raised exception)

end Loops

end Audr.PyChargebee

namespace Audr.Chargebee

open JsRecord Paths
open Record (Placed)

variable {stringify : Value → String} {codec : PyChargebee.Codec} {library : Record.Library} {separator : String}

/-- What TypeScript refuses for its labels or its blank subscription. -/
def BarredHere (record : ValidRecord) : Prop := Barred trimsEmpty (· ≠ "__proto__") record

/-- The same, of Python. -/
def BarredThere (record : ValidRecord) : Prop := Barred PyChargebee.stripsEmpty (fun _ => true) record

instance (record : ValidRecord) : Decidable (BarredHere record) := inferInstanceAs (Decidable (Barred _ _ _))

instance (record : ValidRecord) : Decidable (BarredThere record) := inferInstanceAs (Decidable (Barred _ _ _))

/-! Blank texts. -/

namespace SharedRecord

theorem placed_iff (record : SharedRecord) :
    (∀ text ∈ Record.timeTexts record.valid.record, Placed text) ↔ Placed record.valid.eventTime := by
  rw [record.valid.timeTexts_eq]
  simp

end SharedRecord

/-! Both sinks. -/

/-- A record of which both sinks make what they promise, and the same: its event time has a date in
UTC unless it has no subscription; they bar it where its event time has a sign and twelve digits,
and bar it both or neither where it has thirteen digits. -/
def Alike (record : ValidRecord) : Prop :=
  (record.subscriptionId = "" ∨ Placed record.eventTime) ∧
    (record.subscriptionId.length ≤ maxSubscriptionIdLength →
      (Negative record.eventTimeMs → BarredHere record ∧ BarredThere record) ∧
        (InRange record.eventTimeMs → (BarredHere record ↔ BarredThere record)))

instance (record : ValidRecord) : Decidable (Alike record) := inferInstanceAs (Decidable (_ ∧ (_ → _ ∧ _)))

/-- A record of a subscription. -/
def subscribedRecord (eventTime subscription : String) : Value :=
  .object true
    [("spec_version", .string "1.1.0"),
      ("record_id", .string "01ARZ3NDEKTSV4RRFFQ69G5FAV"),
      ("emitter", .object true
        [("component", .string "harness"), ("name", .string "demo"), ("version", .string "1.0.0")]),
      ("timing", .object true [("event_time", .string eventTime)]),
      ("resource", .object true
        [("provider", .string "openai"), ("type", .string "model"), ("name", .string "gpt"),
          ("operation", .string "generation"), ("modality", .string "text")]),
      ("usage", .object true [("llm", .object true [("requests", .number (.finite 0))])]),
      ("run", .object true [("run_id", .string "run-0001"), ("span_id", .string "s")]),
      ("attribution", .object true [("environment", .string "test"), ("subscription_id", .string subscription)])]

theorem subscribedRecord_formed (eventTime subscription : String) : (subscribedRecord eventTime subscription).WellFormed := by
  have text : ∀ text, (Value.string text).WellFormed := .string
  have counter : (Value.number (.finite 0)).WellFormed := .number Double.representable_zero
  have requests : (Value.object true [("requests", Value.number (.finite 0))]).WellFormed := .object (by simp) (by simp [counter])
  refine .object (by simp) ?_
  simp only [List.forall_mem_cons, List.not_mem_nil, IsEmpty.forall_iff, implies_true, and_true]
  refine ⟨text _, text _, .object (by simp) ?_, .object (by simp) ?_, .object (by simp) ?_, .object (by simp) ?_,
    .object (by simp) ?_, .object (by simp) ?_⟩ <;> simp [text, requests]

theorem subscribedRecord_plain (eventTime subscription : String) : (subscribedRecord eventTime subscription).Plain := by
  have flat : ∀ text, (Value.string text).Plain := .string
  have requests : (Value.object true [("requests", Value.number (.finite 0))]).Plain := .object (by simp [Value.Plain.number])
  refine .object ?_
  simp only [List.forall_mem_cons, List.not_mem_nil, IsEmpty.forall_iff, implies_true, and_true]
  refine ⟨flat _, flat _, .object ?_, .object ?_, .object ?_, .object ?_, .object ?_, .object ?_⟩ <;> simp [flat, requests]

/-- A subscribed record that is valid at the start of 2026. -/
def subscribed (eventTime subscription : String)
    (accepted : validate 1767225600000 (subscribedRecord eventTime subscription) = []) : ValidRecord where
  record := subscribedRecord eventTime subscription
  now := 1767225600000
  formed := subscribedRecord_formed eventTime subscription
  flat := subscribedRecord_plain eventTime subscription
  accepted := accepted

def subscribedAttribution (subscription : String) : Record.Attribution :=
  ⟨some .test, none, none, some subscription, none, none⟩

theorem subscribedAttribution_checked (subscription : String) : (subscribedAttribution subscription).Checked := by
  constructor <;> exact nofun

/-- The same record in both languages. -/
def shared (eventTime subscription : String) (moment : Record.Moment) (reads : Record.Reads moment eventTime)
    (accepted : validate 1767225600000 (subscribedRecord eventTime subscription) = []) : SharedRecord where
  valid := subscribed eventTime subscription accepted
  audr := sampleAudr moment ⟨_, subscribedAttribution_checked subscription⟩
  mirrors := by
    have attributed : Record.Mirrors Record.Reads (subscribedAttribution subscription).dump
        (.object true [("environment", .string "test"), ("subscription_id", .string subscription)]) := by
      apply Record.Mirrors.of_fields
      · simp
      · simp [subscribedAttribution, Record.Attribution.dumpFields]
      · simp [subscribedAttribution, Record.Attribution.dumpFields]
      · simp only [subscribedAttribution, Record.Attribution.dumpFields, Fields.present_some, Fields.present_none,
          Fields.present_nil, Option.map_some, Option.map_none, List.map_nil, List.append_nil, List.forall_mem_cons,
          List.not_mem_nil, IsEmpty.forall_iff, implies_true, and_true]
        exact ⟨.text _, .text _⟩
    exact @sampleAudr_mirrors _ _ _ _ [] reads (by simp) (by simp) attributed

end Audr.Chargebee
