import Audr.Chargebee.Sink
import Audr.PyChargebee.Sink
import Audr.Verdicts

/-! What the accepted results of both sinks mean once a pipeline has applied them. -/

namespace Audr.Chargebee

variable {R : Type} [AudrRecord R]

/-- What a batch of the TypeScript sink is answered, where any event is sent, and that its
result is sound exactly when every id a refused record shares with an event is named. -/
theorem typeScript_sound {encoder : Encoder R} {text : Double → String} {maxAttempts : Nat} {closed : Bool}
    {batch : List (InFlight R)} {answers : Nat → Answer Body} {rejected : List (String × Option String)}
    {unknown : List String}
    (delivered : deliver encoder text maxAttempts closed (batch.map InFlight.record) answers =
      .accepted rejected unknown) :
    Sound encoder.refuses (idsOf (collect encoder (batch.map InFlight.record)).2)
        (settledReply maxAttempts answers) rejected unknown
        (Pipeline.counted batch (.accepted rejected unknown)) ↔
      SharedNamed encoder.refuses (batch.map InFlight.record) (settledReply maxAttempts answers) := by
  rw [Pipeline.counted_accepted]
  exact sound_iff (deliver_reports delivered).1 (collect_divided encoder _)

theorem python_sound {encoder : PyChargebee.Encoder R} {lib : PyChargebee.Library}
    {policy : PyChargebee.RetryPolicy} {closed : Bool} {batch : List (InFlight R)}
    {answers : Nat → Answer PyChargebee.Body} {rejected : List (String × Option String)} {unknown : List String}
    (delivered : PyChargebee.deliver encoder lib policy closed (batch.map InFlight.record) answers =
      .ok (.accepted rejected unknown)) :
    Sound encoder.refuses (PyChargebee.eventIds encoder (batch.map InFlight.record))
        (PyChargebee.settledReply policy answers) rejected unknown
        (PyPipeline.counted batch (.accepted rejected unknown)) ↔
      SharedNamed encoder.refuses (batch.map InFlight.record) (PyChargebee.settledReply policy answers) := by
  obtain ⟨refusedIds, divided, reports, -⟩ := PyChargebee.deliver_reports delivered
  rw [PyPipeline.counted_accepted]
  exact sound_iff reports divided

/-- An accepted result of either sink, applied by the pipeline of its language, is sound exactly
when the `207` named every id that a refused record of the batch shares with an event. The
reply the two conditions speak of is the one the settling answer gives, if any event is sent. -/
theorem outcome_sound (batch : List (InFlight R)) (rejected : List (String × Option String))
    (unknown : List String) :
    (∀ (encoder : Encoder R) (text : Double → String) (maxAttempts : Nat) (closed : Bool)
      (answers : Nat → Answer Body),
      deliver encoder text maxAttempts closed (batch.map InFlight.record) answers = .accepted rejected unknown →
      ((collect encoder (batch.map InFlight.record)).2 ≠ [] →
        (answers (settling answers 1 (maxAttempts - 1))).reply id = some (settledReply maxAttempts answers)) ∧
      (Sound encoder.refuses (idsOf (collect encoder (batch.map InFlight.record)).2)
          (settledReply maxAttempts answers) rejected unknown
          (Pipeline.counted batch (.accepted rejected unknown)) ↔
        SharedNamed encoder.refuses (batch.map InFlight.record) (settledReply maxAttempts answers))) ∧
    (∀ (encoder : PyChargebee.Encoder R) (lib : PyChargebee.Library) (policy : PyChargebee.RetryPolicy)
      (closed : Bool) (answers : Nat → Answer PyChargebee.Body),
      PyChargebee.deliver encoder lib policy closed (batch.map InFlight.record) answers =
        .ok (.accepted rejected unknown) →
      (PyChargebee.eventIds encoder (batch.map InFlight.record) ≠ [] →
        (answers (settling answers 1 (policy.maxAttempts - 1))).reply PyChargebee.parsed =
          some (PyChargebee.settledReply policy answers)) ∧
      (Sound encoder.refuses (PyChargebee.eventIds encoder (batch.map InFlight.record))
          (PyChargebee.settledReply policy answers) rejected unknown
          (PyPipeline.counted batch (.accepted rejected unknown)) ↔
        SharedNamed encoder.refuses (batch.map InFlight.record)
          (PyChargebee.settledReply policy answers))) := by
  constructor
  · intro encoder text maxAttempts closed answers delivered
    exact ⟨(deliver_reports delivered).2, typeScript_sound delivered⟩
  · intro encoder lib policy closed answers delivered
    obtain ⟨refusedIds, -, -, answered⟩ := PyChargebee.deliver_reports delivered
    exact ⟨answered, python_sound delivered⟩

/-- A record reduced to its id and to the field both sinks route it by. -/
structure Routed where
  recordId : String
  subscriptionId : Option String
  deriving DecidableEq, Repr

instance routedRecord : AudrRecord Routed := ⟨Routed.recordId⟩

/-- A record without a subscription is refused; any other has an event. -/
def Routed.event {N : Type} (record : Routed) : Except String (UsageEvent N) :=
  match record.subscriptionId with
  | none => .error "missing_subscription_id"
  | some subscription =>
      .ok
        { subscriptionId := subscription
          usageTimestamp := 1700000000000
          deduplicationId := record.recordId
          properties := [("spec_version", .str "0.1")] }

theorem Routed.event_id {N : Type} {record : Routed} {made : UsageEvent N} (event : record.event = .ok made) :
    made.deduplicationId = record.recordId := by
  unfold Routed.event at event
  split at event <;> cases event
  rfl

def routedEncoder : Encoder Routed := ⟨Routed.event, Routed.event_id⟩

def pyRoutedEncoder : PyChargebee.Encoder Routed where
  event record := record.event.mapError .invalid
  deduplicated := by
    intro record made event
    apply Routed.event_id (N := Python.Number)
    cases routed : (record.event : Except String (UsageEvent Python.Number)) with
    | error detail =>
      rw [routed] at event
      cases event
    | ok other =>
      rw [routed] at event
      cases event
      rfl

/-- A library for runs on fixed inputs: powers below the largest float are exact, a draw is
half the ceiling, and no header names a date. -/
def plainLibrary : PyChargebee.Library where
  pow base exponent := if base ^ exponent < Double.bound then some (base ^ exponent) else none
  uniform ceiling := ceiling / 2
  int text := text.toInt?
  secondsUntil _ := none
  str
    | .str value => .ok value
    | .null => .ok "None"
    | .bool value => .ok (if value then "True" else "False")
    | _ => .error .recursionError

/-- Two records of one id, the first without a subscription. -/
def sharedBatch : List (InFlight Routed) :=
  [⟨0, ⟨"r-1", none⟩, none⟩, ⟨1, ⟨"r-1", some "sub"⟩, none⟩]

/-- The second of them is sent and accepted, yet both pipelines count it dropped. -/
theorem shared_id_dropped :
    (deliver routedEncoder (fun _ => "") 3 false (sharedBatch.map InFlight.record)
        (fun _ => .response 202 none none) = .accepted [("r-1", some "missing_subscription_id")] [] ∧
      ¬ Sound routedEncoder.refuses (idsOf (collect routedEncoder (sharedBatch.map InFlight.record)).2)
        (settledReply 3 fun _ => .response 202 none none) [("r-1", some "missing_subscription_id")] []
        (Pipeline.counted sharedBatch (.accepted [("r-1", some "missing_subscription_id")] []))) ∧
    (PyChargebee.deliver pyRoutedEncoder plainLibrary .standard false (sharedBatch.map InFlight.record)
        (fun _ => .response 202 none (.ok none)) = .ok (.accepted [("r-1", some "missing_subscription_id")] []) ∧
      ¬ Sound pyRoutedEncoder.refuses (PyChargebee.eventIds pyRoutedEncoder (sharedBatch.map InFlight.record))
        (PyChargebee.settledReply .standard fun _ => .response 202 none (.ok none))
        [("r-1", some "missing_subscription_id")] []
        (PyPipeline.counted sharedBatch (.accepted [("r-1", some "missing_subscription_id")] []))) := by
  have unnamed : ∀ id, ¬ (Reply.all : Reply Double).names id ∧ ¬ (Reply.all : Reply Python.Number).names id :=
    fun id => ⟨fun named => named, fun named => named⟩
  refine ⟨⟨by decide, fun sound => ?_⟩, ⟨by decide, fun sound => ?_⟩⟩
  · rcases sound.dropped ⟨"r-1", some "sub"⟩ (by decide) with ⟨detail, refused⟩ | named
    · cases refused
    · exact (unnamed _).1 named
  · rcases sound.dropped ⟨"r-1", some "sub"⟩ (by decide) with ⟨detail, refused⟩ | named
    · cases refused
    · exact (unnamed _).2 named

/-- The shared batch, and a record of its own id. -/
def namedBatch : List (InFlight Routed) := sharedBatch ++ [⟨2, ⟨"r-2", some "sub"⟩, none⟩]

/-- An entry of `failed_events` that names the shared id. -/
def namingEntry {N : Type} : Json N := .obj [("deduplication_id", .str "r-1"), ("error_code", .str "duplicate")]

/-- An unavailable service, and then a `207`. -/
def namingAnswers {Body : Type} (absent body : Body) : Nat → Answer Body := fun attempt =>
  if attempt = 1 then .response 503 none absent else .response 207 none body

def namingBody {N : Type} : Json N := .obj [("failed_events", .arr [namingEntry])]

def namedRejections : List (String × Option String) :=
  [("r-1", some "missing_subscription_id"), ("r-1", some "duplicate")]

theorem namedBatch_shared {N : Type} {refused : Routed → Prop}
    (refuses : ∀ {record : Routed}, refused record → record.subscriptionId = none) :
    SharedNamed refused (namedBatch.map InFlight.record) (.listed [namingEntry] : Reply N) := by
  intro record member other present here there same
  have absent := refuses here
  simp only [namedBatch, sharedBatch, List.map_append, List.map_cons, List.map_nil, List.mem_append, List.mem_cons,
    List.not_mem_nil, or_false] at member
  rcases member with (rfl | rfl) | rfl
  · rw [← same]
    exact List.mem_cons_self
  · cases absent
  · cases absent

/-- Two records of one id, the first refused for its subscription, the second named by the `207`
that follows a retried answer, and one that is accepted. -/
theorem outcome_sound_accepted :
    (deliver routedEncoder (fun _ => "") 3 false (namedBatch.map InFlight.record) (namingAnswers none (some namingBody)) =
        .accepted namedRejections [] ∧
      Sound routedEncoder.refuses (idsOf (collect routedEncoder (namedBatch.map InFlight.record)).2)
        (settledReply 3 (namingAnswers none (some namingBody))) namedRejections []
        (Pipeline.counted namedBatch (.accepted namedRejections []))) ∧
    (PyChargebee.deliver pyRoutedEncoder plainLibrary .standard false (namedBatch.map InFlight.record)
        (namingAnswers (.ok none) (.ok (some namingBody))) = .ok (.accepted namedRejections []) ∧
      Sound pyRoutedEncoder.refuses (PyChargebee.eventIds pyRoutedEncoder (namedBatch.map InFlight.record))
        (PyChargebee.settledReply .standard (namingAnswers (.ok none) (.ok (some namingBody)))) namedRejections []
        (PyPipeline.counted namedBatch (.accepted namedRejections []))) := by
  have both := outcome_sound namedBatch namedRejections []
  have delivered : deliver routedEncoder (fun _ => "") 3 false (namedBatch.map InFlight.record)
      (namingAnswers none (some namingBody)) = .accepted namedRejections [] := by decide +kernel
  have delivered' : PyChargebee.deliver pyRoutedEncoder plainLibrary .standard false (namedBatch.map InFlight.record)
      (namingAnswers (.ok none) (.ok (some namingBody))) = .ok (.accepted namedRejections []) := by decide +kernel
  refine ⟨⟨delivered, (both.1 _ _ _ _ _ delivered).2.mpr ?_⟩, delivered', (both.2 _ _ _ _ _ delivered').2.mpr ?_⟩
  · apply namedBatch_shared
    intro record refused
    obtain ⟨detail, refused⟩ := refused
    cases given : record.subscriptionId with
    | none => rfl
    | some subscription => simp [routedEncoder, Routed.event, given] at refused
  · apply namedBatch_shared
    intro record refused
    obtain ⟨detail, refused⟩ := refused
    cases given : record.subscriptionId with
    | none => rfl
    | some subscription => simp [pyRoutedEncoder, Routed.event, given, Except.mapError] at refused

end Audr.Chargebee
