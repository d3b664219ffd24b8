import Audr.PyChargebee.Retry

/-! The Python sink: `deliver`, `_send_batch` and `_success_outcome`. What it calls can raise,
and nothing in it catches more than an unreadable body. -/

namespace Audr.PyChargebee

open Python (Exception)
open Chargebee

theorem map_ok {ε α β : Type} {f : α → β} {x : Except ε α} {b : β} (mapped : x.map f = .ok b) :
    ∃ a, x = .ok a ∧ f a = b := by
  cases x with
  | error e => cases mapped
  | ok a => exact ⟨a, rfl, Except.ok.inj mapped⟩

/-- What `response.json()` does: a value, `none` for the errors that are caught, or any other
exception. -/
abbrev Body := Except Exception (Option Python.Value)

/-- `_first_error_code`. -/
def firstErrorCode (lib : Library) (entry : List (String × Python.Value)) : Except Exception (Option String) :=
  let present := ["api_error_code", "error_code", "code"].findSome? fun field =>
    match Json.get? field entry with
    | some .null => none
    | value => value
  match present with
  | some value => (lib.str value).map some
  | none => .ok none

/-- The loop of `_success_outcome` over `failed_events`. -/
def matchFailed (lib : Library) (ids : List String) : List Python.Value → Matched → Except Exception Matched
  | [], found => .ok found
  | rejection :: rest, found =>
      match identified rejection with
      | some (id, members) =>
          if id ∈ ids ∧ id ∉ found.rejectedIds then
            match firstErrorCode lib members with
            | .error exception => .error exception
            | .ok detail => matchFailed lib ids rest (found.reject ids id detail)
          else matchFailed lib ids rest found.miss
      | none => matchFailed lib ids rest found.miss

/-- `_success_outcome` for a `207`. -/
def successOutcome (lib : Library) (ids : List String) : Body → Except Exception BatchResult
  | .error exception => .error exception
  | .ok payload =>
      match payload.bind failedEvents with
      | none => .ok (.accepted [] ids)
      | some failed =>
          match matchFailed lib ids failed {} with
          | .error exception => .error exception
          | .ok found => .ok (found.result ids)

/-- One turn of the loop of `_send_batch`, once the request has ended. -/
def react (lib : Library) (ids : List String) : Answer Body → Except Exception Reaction
  | .closed => .ok (.settled .closed)
  | .transportError name => .ok (.again name)
  | .response status _ body =>
      if status = 202 then .ok (.settled (.accepted [] []))
      else if status = 207 then
        match successOutcome lib ids body with
        | .error exception => .error exception
        | .ok result => .ok (.settled result)
      else if status = 413 then .ok (.settled (.failed false (some "payload_too_large")))
      else
        match classify status with
        | .transient => .ok (.again ("http_" ++ toString status))
        | .credential => .ok (.settled (.failed false (some "auth")))
        | .permanent => .ok (.settled (.failed false (some ("http_" ++ toString status))))

/-- The `Retry-After` header an attempt is followed by. -/
def retryAfter : Answer Body → Option String
  | .response _ header _ => header
  | _ => none

/-- The loop of `_send_batch` from an attempt on, with how many more may follow it. -/
def sendFrom (lib : Library) (policy : RetryPolicy) (ids : List String) (answers : Nat → Answer Body)
    (attempt : Nat) : Nat → Except Exception (BatchResult × Nat)
  | 0 =>
      match react lib ids (answers attempt) with
      | .error exception => .error exception
      | .ok reaction => .ok (reaction.result, attempt)
  | left + 1 =>
      match react lib ids (answers attempt) with
      | .error exception => .error exception
      | .ok (.settled result) => .ok (result, attempt)
      | .ok (.again _) =>
          match delayFor lib policy attempt (retryAfter (answers attempt)) with
          | .error exception => .error exception
          | .ok _ => sendFrom lib policy ids answers (attempt + 1) left

/-- An `int` of more digits than the interpreter turns into text. -/
def intTooLong (n : Int) : Bool := decide (10 ^ 4300 ≤ |n|)

/-- Whether `json.dumps` prints a property. -/
def printable : Python.Value → Bool
  | .num (.int value) => !intTooLong value
  | _ => true

/-- `_encode_batch`, as far as it can raise. -/
def encodeBatch (events : List (UsageEvent Python.Number)) : Except Exception Unit :=
  if events.all fun event => event.properties.all fun property => printable property.2 then .ok ()
  else .error .valueError

/-- `_send_batch`. -/
def sendBatch (lib : Library) (policy : RetryPolicy) (events : List (UsageEvent Python.Number))
    (answers : Nat → Answer Body) : Except Exception (BatchResult × Nat) :=
  match encodeBatch events with
  | .error exception => .error exception
  | .ok _ => sendFrom lib policy (idsOf events) answers 1 (policy.maxAttempts - 1)

/-- Why a record has no event: the refusal `deliver` catches, or another exception. -/
inductive Refusal where
  | invalid (detail : String)
  | raised (exception : Exception)
  deriving DecidableEq, Repr

/-- How records become events. -/
structure Encoder (R : Type) [AudrRecord R] where
  event : R → Except Refusal (UsageEvent Python.Number)
  deduplicated : ∀ {record made}, event record = .ok made → made.deduplicationId = AudrRecord.recordId record

section Delivery

variable {R : Type} [AudrRecord R]

/-- The loop of `deliver` over the batch. -/
def collect (encoder : Encoder R) :
    List R → Except Exception (List (String × Option String) × List (UsageEvent Python.Number))
  | [] => .ok ([], [])
  | record :: rest =>
      match encoder.event record with
      | .error (.raised exception) => .error exception
      | .error (.invalid detail) =>
          (collect encoder rest).map fun later => ((AudrRecord.recordId record, some detail) :: later.1, later.2)
      | .ok event => (collect encoder rest).map fun later => (later.1, event :: later.2)

/-- `deliver`. -/
def deliver (encoder : Encoder R) (lib : Library) (policy : RetryPolicy) (closed : Bool) (batch : List R)
    (answers : Nat → Answer Body) : Except Exception BatchResult :=
  if closed then .ok .closed
  else if batch.isEmpty then .ok (.accepted [] [])
  else
    match collect encoder batch with
    | .error exception => .error exception
    | .ok (rejected, events) =>
        if events.isEmpty then .ok (.accepted rejected [])
        else
          match sendBatch lib policy events answers with
          | .error exception => .error exception
          | .ok (.accepted more unknown, _) => .ok (.accepted (rejected ++ more) unknown)
          | .ok (other, _) => .ok other

/-- The record is refused without a request. -/
def Encoder.refuses (encoder : Encoder R) (record : R) : Prop :=
  ∃ detail, encoder.event record = .error (.invalid detail)

theorem collect_divided {encoder : Encoder R} {batch : List R} {rejected : List (String × Option String)}
    {events : List (UsageEvent Python.Number)} (collected : collect encoder batch = .ok (rejected, events)) :
    Divided encoder.refuses batch (rejected.map Prod.fst) (idsOf events) := by
  induction batch generalizing rejected events with
  | nil =>
    cases collected
    constructor <;> simp [idsOf]
  | cons record rest ih =>
    cases made : encoder.event record with
    | ok event =>
      have kept : ¬ encoder.refuses record := by
        rintro ⟨detail, refused⟩
        rw [made] at refused
        cases refused
      obtain ⟨later, others, same⟩ := map_ok (by simpa only [collect, made] using collected)
      cases same
      constructor
      · intro id
        simp [(ih others).refusals, kept]
      · intro id
        have known := encoder.deduplicated made
        have later := (ih others).events id
        simp only [idsOf] at later
        simp [idsOf, later, kept, known, eq_comm]
    | error refusal =>
      cases refusal with
      | raised exception => simp [collect, made] at collected
      | invalid detail =>
        have refused : encoder.refuses record := ⟨detail, made⟩
        obtain ⟨later, others, same⟩ := map_ok (by simpa only [collect, made] using collected)
        cases same
        constructor
        · intro id
          simp only [List.map_cons, List.mem_cons, (ih others).refusals, exists_eq_or_imp, refused, true_and]
          rw [eq_comm]
        · intro id
          simp [(ih others).events, refused]

end Delivery

section Requests

variable {lib : Library} {policy : RetryPolicy} {ids : List String} {answers : Nat → Answer Body}

/-- What is reported of a rejected entry, where its error code is read. -/
def errorDetail (lib : Library) (entry : List (String × Python.Value)) : Option String :=
  (firstErrorCode lib entry).toOption.join

theorem matchFailed_eq {failed : List Python.Value} {found after : Matched}
    (matched : matchFailed lib ids failed found = .ok after) :
    after = matchEntries (errorDetail lib) ids failed found := by
  induction failed generalizing found with
  | nil =>
    cases matched
    rfl
  | cons rejection rest ih =>
    rw [matchFailed] at matched
    rw [matchEntries]
    cases named : identified rejection with
    | none =>
      rw [named] at matched
      exact ih matched
    | some pair =>
      obtain ⟨id, members⟩ := pair
      rw [named] at matched
      simp only at matched ⊢
      split at matched
      next fresh =>
        rw [if_pos fresh]
        cases code : firstErrorCode lib members with
        | error exception =>
          rw [code] at matched
          cases matched
        | ok detail =>
          rw [code] at matched
          rw [errorDetail, code]
          exact ih matched
      next known =>
        rw [if_neg known]
        exact ih matched

/-- A body as far as it was parsed. -/
def parsed (body : Body) : Option Python.Value := body.toOption.join

theorem react_reports {answer : Answer Body} {reaction : Reaction} {rejected : List (String × Option String)}
    {unknown : List String} (reacted : react lib ids answer = .ok reaction)
    (accepted : reaction.result = .accepted rejected unknown) :
    ∃ reply, answer.reply parsed = some reply ∧ Reports [] ids reply rejected unknown := by
  cases answer with
  | closed =>
    cases reacted
    cases accepted
  | transportError name =>
    cases reacted
    cases accepted
  | response status retryAfter body =>
    simp only [react] at reacted
    by_cases all : status = 202
    · rw [if_pos all] at reacted
      cases reacted
      cases accepted
      refine ⟨.all, by simp [Answer.reply, all], ?_, ?_⟩ <;> simp [Reply.names, Reply.conclusive]
    rw [if_neg all] at reacted
    by_cases multi : status = 207
    · rw [if_pos multi] at reacted
      cases body with
      | error exception => cases reacted
      | ok payload =>
        cases failing : payload.bind failedEvents with
        | none =>
          simp only [successOutcome, failing] at reacted
          cases reacted
          cases accepted
          refine ⟨.unreadable, ?_, ?_, ?_⟩
          · simp [Answer.reply, multi, parsed, Except.toOption, failing]
          · simp [Reply.names]
          · simp [Reply.names, Reply.conclusive]
        | some failed =>
          simp only [successOutcome, failing] at reacted
          cases matched : matchFailed lib ids failed {} with
          | error exception =>
            rw [matched] at reacted
            cases reacted
          | ok found =>
            rw [matched] at reacted
            cases reacted
            rw [Reaction.result, matchFailed_eq matched] at accepted
            refine ⟨.listed failed, ?_, reports_matched accepted⟩
            simp [Answer.reply, multi, parsed, Except.toOption, failing]
    · rw [if_neg multi] at reacted
      split_ifs at reacted
      · cases reacted
        cases accepted
      · split at reacted <;> (cases reacted; cases accepted)

theorem retried_iff (lib : Library) (ids : List String) (answer : Answer Body) :
    answer.retried = true ↔ ∃ detail, react lib ids answer = .ok (.again detail) := by
  cases answer with
  | closed => simp [Answer.retried, react]
  | transportError name => simp [Answer.retried, react]
  | response status retryAfter body =>
    simp only [Answer.retried, react, classify, classifyBy, decide_eq_true_eq]
    by_cases transient : status ∈ transientStatuses
    · have apart : status ≠ 207 ∧ status ≠ 202 ∧ status ≠ 413 := by
        refine ⟨?_, ?_, ?_⟩ <;> (rintro rfl; revert transient; decide)
      simp [transient, apart]
    · simp only [transient, if_false, false_iff, not_exists]
      intro detail
      split_ifs
      · simp
      · cases successOutcome lib ids body <;> simp
      · simp
      · simp
      · simp

theorem settling_ge (answers : Nat → Answer Body) (attempt left : Nat) : attempt ≤ settling answers attempt left := by
  induction left generalizing attempt with
  | zero => exact le_refl _
  | succ left ih =>
    unfold settling
    split
    · exact (Nat.le_succ _).trans (ih _)
    · exact le_refl _

/-- `_send_batch` returns exactly when it computes a delay after every answer that is retried
and reads the one that settles the batch, and then reports what it makes of that answer. -/
theorem sendFrom_ok (attempt left : Nat) (result : BatchResult) (last : Nat) :
    sendFrom lib policy ids answers attempt left = .ok (result, last) ↔
      last = settling answers attempt left ∧
      (∀ earlier, attempt ≤ earlier → earlier < last →
        ∃ delay, delayFor lib policy earlier (retryAfter (answers earlier)) = .ok delay) ∧
      ∃ reaction, react lib ids (answers last) = .ok reaction ∧ reaction.result = result := by
  induction left generalizing attempt with
  | zero =>
    unfold sendFrom settling
    cases reacted : react lib ids (answers attempt) with
    | error exception =>
      constructor
      · intro impossible
        cases impossible
      · rintro ⟨rfl, -, reaction, read, -⟩
        rw [reacted] at read
        cases read
    | ok reaction =>
      constructor
      · intro sent
        cases sent
        exact ⟨rfl, fun _ low high => by omega, reaction, reacted, rfl⟩
      · rintro ⟨rfl, -, other, read, rfl⟩
        rw [reacted] at read
        cases read
        rfl
  | succ left ih =>
    unfold sendFrom settling
    cases reacted : react lib ids (answers attempt) with
    | error exception =>
      have settled : ¬ (answers attempt).retried = true := by
        rw [retried_iff lib ids]
        simp [reacted]
      rw [if_neg settled]
      constructor
      · intro impossible
        cases impossible
      · rintro ⟨rfl, -, reaction, read, -⟩
        rw [reacted] at read
        cases read
    | ok reaction =>
      cases reaction with
      | settled here =>
        have settled : ¬ (answers attempt).retried = true := by
          rw [retried_iff lib ids]
          simp [reacted]
        rw [if_neg settled]
        constructor
        · intro sent
          cases sent
          exact ⟨rfl, fun _ low high => by omega, _, reacted, rfl⟩
        · rintro ⟨rfl, -, other, read, rfl⟩
          rw [reacted] at read
          cases read
          rfl
      | again detail =>
        have retried : (answers attempt).retried = true := (retried_iff lib ids _).mpr ⟨detail, reacted⟩
        rw [if_pos retried]
        have later := settling_ge answers (attempt + 1) left
        cases delayed : delayFor lib policy attempt (retryAfter (answers attempt)) with
        | error exception =>
          constructor
          · intro impossible
            cases impossible
          · rintro ⟨rfl, delays, -⟩
            obtain ⟨delay, computed⟩ := delays attempt (le_refl _) (by omega)
            rw [delayed] at computed
            cases computed
        | ok delay =>
          simp only
          rw [ih]
          refine and_congr_right fun same => and_congr_left fun _ => ?_
          constructor
          · intro delays earlier low high
            by_cases first : earlier = attempt
            · subst first
              exact ⟨delay, delayed⟩
            · exact delays earlier (by omega) high
          · intro delays earlier low high
            exact delays earlier (by omega) high

end Requests

/-- What the answer that settles a batch says. Where it says nothing the batch made no request
or has no accepted result. -/
def settledReply (policy : RetryPolicy) (answers : Nat → Answer Body) : Reply Python.Number :=
  ((answers (settling answers 1 (policy.maxAttempts - 1))).reply parsed).getD .all

variable {R : Type} [AudrRecord R]

/-- The events of a batch, where collecting them raises nothing. -/
def eventIds (encoder : Encoder R) (batch : List R) : List String :=
  match collect encoder batch with
  | .ok (_, events) => idsOf events
  | .error _ => []

/-- An accepted result reports the local refusals and what the settling answer says. -/
theorem deliver_reports {encoder : Encoder R} {lib : Library} {policy : RetryPolicy} {closed : Bool}
    {batch : List R} {answers : Nat → Answer Body} {rejected : List (String × Option String)}
    {unknown : List String}
    (delivered : deliver encoder lib policy closed batch answers = .ok (.accepted rejected unknown)) :
    ∃ refusedIds, Divided encoder.refuses batch refusedIds (eventIds encoder batch) ∧
      Reports refusedIds (eventIds encoder batch) (settledReply policy answers) rejected unknown ∧
      (eventIds encoder batch ≠ [] →
        (answers (settling answers 1 (policy.maxAttempts - 1))).reply parsed =
          some (settledReply policy answers)) := by
  unfold deliver at delivered
  cases closed with
  | true => cases delivered
  | false =>
    simp only [Bool.false_eq_true, if_false] at delivered
    split at delivered
    next empty =>
      cases delivered
      rw [List.isEmpty_iff.mp empty]
      refine ⟨[], ⟨?_, ?_⟩, ⟨?_, ?_⟩, ?_⟩ <;> simp [eventIds, collect, idsOf]
    next present =>
      cases collected : collect encoder batch with
      | error exception =>
        rw [collected] at delivered
        cases delivered
      | ok pair =>
        obtain ⟨early, events⟩ := pair
        have divided := collect_divided collected
        have sentIds : eventIds encoder batch = idsOf events := by
          unfold eventIds
          rw [collected]
        rw [collected] at delivered
        simp only at delivered
        refine ⟨early.map Prod.fst, sentIds ▸ divided, ?_⟩
        rw [sentIds]
        split at delivered
        next none =>
          cases delivered
          have empty := List.isEmpty_iff.mp none
          subst empty
          refine ⟨⟨?_, ?_⟩, ?_⟩ <;> simp [idsOf]
        next some =>
          split at delivered
          · cases delivered
          next more unknown' last sent =>
            cases delivered
            unfold sendBatch at sent
            split at sent
            · cases sent
            · obtain ⟨rfl, -, reaction, reacted, accepted⟩ := (sendFrom_ok _ _ _ _).mp sent
              obtain ⟨reply, said, reports⟩ := react_reports reacted accepted
              rw [settledReply, said, Option.getD_some]
              exact ⟨reports.with_refusals fun _ => Iff.rfl, fun _ => rfl⟩
          next other last unaccepted sent =>
            cases delivered
            exact (unaccepted _ _ rfl).elim

end Audr.PyChargebee
