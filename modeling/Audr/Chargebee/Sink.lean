import Audr.Chargebee.Responses
import Audr.Lib.Double

/-! The TypeScript sink: `deliver`, `#send` and `#partial`. Transport, retry delays and
logging decide nothing of a result, so an answer for each attempt is all they leave here. -/

namespace Audr.Chargebee

/-- `RetryPolicy.classify`. -/
def classify : Nat → FailureClass := classifyBy transientStatuses

/-- A parsed body; `none` where `response.json()` rejects. -/
abbrev Body := Option (Json Double)

/-- `String(value)` where `errorCode` takes a value, given the text of a number. -/
def scalarText (text : Double → String) : Json Double → Option String
  | .str value => some value
  | .num value => some (text value)
  | .bool value => some (if value then "true" else "false")
  | _ => none

def errorCodeFields : List String := ["api_error_code", "error_code", "code"]

def errorCode (text : Double → String) (entry : List (String × Json Double)) : Option String :=
  errorCodeFields.findSome? fun field => (Json.get? field entry).bind (scalarText text)

/-- The loop of `#partial` over `failed_events`. -/
def matchFailed (text : Double → String) (ids : List String) (failed : List (Json Double)) : Matched :=
  matchEntries (errorCode text) ids failed {}

/-- `#partial`. -/
def partialResult (text : Double → String) (ids : List String) (body : Body) : BatchResult :=
  match body.bind failedEvents with
  | none => .accepted [] ids
  | some failed => (matchFailed text ids failed).result ids

/-- One turn of the loop of `#send`, once the request has ended. -/
def react (text : Double → String) (ids : List String) : Answer Body → Reaction
  | .closed => .settled .closed
  | .transportError name => .again name
  | .response status _ body =>
      if status = 207 then .settled (partialResult text ids body)
      else if status = 202 then .settled (.accepted [] [])
      else if status = 413 then .settled (.failed false (some "payload_too_large"))
      else
        match classify status with
        | .transient => .again ("http_" ++ toString status)
        | .credential => .settled (.failed false (some "auth"))
        | .permanent => .settled (.failed false (some ("http_" ++ toString status)))

/-- `#send` from an attempt on, with how many more may follow it. It returns the number of
the last attempt as well. -/
def sendFrom (text : Double → String) (ids : List String) (answers : Nat → Answer Body) (attempt : Nat) :
    Nat → BatchResult × Nat
  | 0 =>
      match react text ids (answers attempt) with
      | .settled result => (result, attempt)
      | .again detail => (.failed true (some detail), attempt)
  | left + 1 =>
      match react text ids (answers attempt) with
      | .settled result => (result, attempt)
      | .again _ => sendFrom text ids answers (attempt + 1) left

/-- `#send`. -/
def send (text : Double → String) (maxAttempts : Nat) (events : List (UsageEvent Double))
    (answers : Nat → Answer Body) : BatchResult × Nat :=
  sendFrom text (idsOf events) answers 1 (maxAttempts - 1)

/-- How records become events: an event, or the detail of a local refusal. -/
structure Encoder (R : Type) [AudrRecord R] where
  event : R → Except String (UsageEvent Double)
  deduplicated : ∀ {record made}, event record = .ok made → made.deduplicationId = AudrRecord.recordId record

section Delivery

variable {R : Type} [AudrRecord R]

/-- The loop of `deliver` over the batch. -/
def collect (encoder : Encoder R) : List R → List (String × Option String) × List (UsageEvent Double)
  | [] => ([], [])
  | record :: rest =>
      let (rejected, events) := collect encoder rest
      match encoder.event record with
      | .ok event => (rejected, event :: events)
      | .error detail => ((AudrRecord.recordId record, some detail) :: rejected, events)

/-- `deliver`. -/
def deliver (encoder : Encoder R) (text : Double → String) (maxAttempts : Nat) (closed : Bool)
    (batch : List R) (answers : Nat → Answer Body) : BatchResult :=
  if closed then .closed
  else
    let (rejected, events) := collect encoder batch
    if events.isEmpty then .accepted rejected []
    else
      match (send text maxAttempts events answers).1 with
      | .accepted more unknown => .accepted (rejected ++ more) unknown
      | other => other

/-- The record is refused without a request. -/
def Encoder.refuses (encoder : Encoder R) (record : R) : Prop := ∃ detail, encoder.event record = .error detail

theorem collect_divided (encoder : Encoder R) (batch : List R) :
    Divided encoder.refuses batch ((collect encoder batch).1.map Prod.fst) (idsOf (collect encoder batch).2) := by
  induction batch with
  | nil => constructor <;> simp [collect, idsOf]
  | cons record rest ih =>
    cases made : encoder.event record with
    | ok event =>
      have kept : ¬ encoder.refuses record := by
        rintro ⟨detail, refused⟩
        rw [made] at refused
        cases refused
      constructor
      · intro id
        simp [collect, made, ih.refusals, kept]
      · intro id
        have same := encoder.deduplicated made
        have later := ih.events id
        simp only [idsOf] at later
        simp [collect, made, idsOf, later, kept, same, eq_comm]
    | error detail =>
      have refused : encoder.refuses record := ⟨detail, made⟩
      constructor
      · intro id
        simp only [collect, made, List.map_cons, List.mem_cons, ih.refusals, exists_eq_or_imp, refused, true_and]
        rw [eq_comm]
      · intro id
        simp [collect, made, ih.events, refused]

end Delivery

section Requests

variable {text : Double → String} {ids : List String} {answers : Nat → Answer Body}

theorem retried_iff (text : Double → String) (ids : List String) (answer : Answer Body) :
    answer.retried = true ↔ ∃ detail, react text ids answer = .again detail := by
  cases answer with
  | closed => simp [Answer.retried, react]
  | transportError name => simp [Answer.retried, react]
  | response status retryAfter body =>
    simp only [Answer.retried, react, classify, classifyBy, decide_eq_true_eq]
    by_cases transient : status ∈ transientStatuses
    · have apart : status ≠ 207 ∧ status ≠ 202 ∧ status ≠ 413 := by
        refine ⟨?_, ?_, ?_⟩ <;> (rintro rfl; revert transient; decide)
      simp [transient, apart]
    · simp only [transient, if_false, false_iff, not_exists]
      intro detail
      split_ifs <;> simp

/-- `#send` reports what it makes of the settling answer, after as many requests. -/
theorem sendFrom_eq (attempt left : Nat) :
    sendFrom text ids answers attempt left =
      ((react text ids (answers (settling answers attempt left))).result, settling answers attempt left) := by
  induction left generalizing attempt with
  | zero =>
    unfold sendFrom settling
    cases react text ids (answers attempt) <;> rfl
  | succ left ih =>
    unfold sendFrom settling
    cases reaction : react text ids (answers attempt) with
    | settled result =>
      have settled : ¬ (answers attempt).retried = true := by
        rw [retried_iff text ids]
        simp [reaction]
      rw [if_neg settled, reaction]
      rfl
    | again detail =>
      have retried : (answers attempt).retried = true := (retried_iff text ids _).mpr ⟨detail, reaction⟩
      rw [if_pos retried]
      exact ih _

/-- A result for a `207` reports what its body says. -/
theorem partialResult_reports {body : Body} {rejected : List (String × Option String)} {unknown : List String}
    (accepted : partialResult text ids body = .accepted rejected unknown) :
    (∃ failed, body.bind failedEvents = some failed ∧ Reports [] ids (.listed failed) rejected unknown) ∨
      (body.bind failedEvents = none ∧ Reports [] ids (Reply.unreadable : Reply Double) rejected unknown) := by
  unfold partialResult at accepted
  cases payload : body.bind failedEvents with
  | none =>
    rw [payload] at accepted
    cases accepted
    refine .inr ⟨rfl, ?_, ?_⟩ <;> simp [Reply.names, Reply.conclusive]
  | some failed =>
    rw [payload] at accepted
    refine .inl ⟨failed, rfl, ?_⟩
    exact reports_matched accepted

theorem react_reports {answer : Answer Body} {rejected : List (String × Option String)} {unknown : List String}
    (accepted : (react text ids answer).result = .accepted rejected unknown) :
    ∃ reply, answer.reply id = some reply ∧ Reports [] ids reply rejected unknown := by
  cases answer with
  | closed => cases accepted
  | transportError name => cases accepted
  | response status retryAfter body =>
    simp only [react] at accepted
    by_cases multi : status = 207
    · rw [if_pos multi] at accepted
      rcases partialResult_reports accepted with ⟨failed, payload, reports⟩ | ⟨payload, reports⟩
      · refine ⟨_, ?_, reports⟩
        simp [Answer.reply, multi, payload]
      · refine ⟨_, ?_, reports⟩
        simp [Answer.reply, multi, payload]
    · rw [if_neg multi] at accepted
      by_cases all : status = 202
      · rw [if_pos all] at accepted
        cases accepted
        refine ⟨.all, by simp [Answer.reply, all], ?_, ?_⟩ <;> simp [Reply.names, Reply.conclusive]
      · rw [if_neg all] at accepted
        split_ifs at accepted
        · cases accepted
        · split at accepted <;> cases accepted

end Requests

/-- What the answer that settles a batch says. Where it says nothing the batch made no request
or has no accepted result. -/
def settledReply (maxAttempts : Nat) (answers : Nat → Answer Body) : Reply Double :=
  ((answers (settling answers 1 (maxAttempts - 1))).reply id).getD .all

variable {R : Type} [AudrRecord R]

/-- An accepted result reports the local refusals and what the settling answer says. -/
theorem deliver_reports {encoder : Encoder R} {text : Double → String} {maxAttempts : Nat} {closed : Bool}
    {batch : List R} {answers : Nat → Answer Body} {rejected : List (String × Option String)}
    {unknown : List String}
    (delivered : deliver encoder text maxAttempts closed batch answers = .accepted rejected unknown) :
    Reports ((collect encoder batch).1.map Prod.fst) (idsOf (collect encoder batch).2)
        (settledReply maxAttempts answers) rejected unknown ∧
      ((collect encoder batch).2 ≠ [] →
        (answers (settling answers 1 (maxAttempts - 1))).reply id = some (settledReply maxAttempts answers)) := by
  unfold deliver at delivered
  cases closed with
  | true => cases delivered
  | false =>
    simp only [Bool.false_eq_true, if_false] at delivered
    split at delivered
    next none =>
      cases delivered
      have empty := List.isEmpty_iff.mp none
      refine ⟨?_, fun sent => absurd empty sent⟩
      rw [empty]
      constructor <;> simp [idsOf]
    next some =>
      split at delivered
      next more unknown' sent =>
        cases delivered
        rw [send, sendFrom_eq] at sent
        obtain ⟨reply, said, reports⟩ := react_reports sent
        rw [settledReply, said, Option.getD_some]
        exact ⟨reports.with_refusals fun _ => Iff.rfl, fun _ => rfl⟩
      next other =>
        exact absurd delivered (other _ _)

end Audr.Chargebee
