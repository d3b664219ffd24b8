import Audr.Json
import Audr.Lib.CodeUnits
import Audr.Lib.Double

/-! Interpretation of Lago's responses: the class of a status, and which events of a request a
`422` names. -/

namespace Audr.Lago

inductive StatusClass where
  | accepted
  | unconfirmed
  | invalid
  | credential
  | forbidden
  | tooLarge
  | transient
  | permanent
  deriving DecidableEq, Repr

/-- `isTransient`. -/
def isTransient (status : Nat) : Bool := status = 408 || status = 429 || (500 ≤ status && status ≤ 599)

def classifyStatus (status : Nat) : StatusClass :=
  if status = 200 then .accepted
  else if 200 < status ∧ status < 300 then .unconfirmed
  else if status = 422 then .invalid
  else if status = 401 then .credential
  else if status = 403 then .forbidden
  else if status = 413 then .tooLarge
  else if isTransient status then .transient
  else .permanent

/-- What a `422` says about the events of one request, by position. -/
structure ValidationVerdict where
  duplicates : List Nat
  invalid : List (Nat × String)
  deriving DecidableEq, Repr

def duplicateField : String := "transaction_id"

def duplicateCode : String := "value_already_exist"

def fields : List String := [duplicateField, "external_subscription_id", "code", "timestamp", "properties"]

def codes : List String := [duplicateCode, "value_is_mandatory", "invalid_format"]

def expressionFailure : String := "event:expression_evaluation_failed"

def tooManyEvents : String := "too_many_events"

/-- A position as `INDEX` has it: decimal digits without a leading zero. -/
def position (key : String) : Option Nat :=
  match key.toList with
  | ['0'] => some 0
  | first :: rest =>
      if '1' ≤ first ∧ first ≤ '9' ∧ rest.all Char.isDigit then
        some ((first :: rest).foldl (fun value digit => 10 * value + (digit.toNat - '0'.toNat)) 0)
      else none
  | [] => none

/-- The member of an object, where the value is one. -/
def member (name : String) : Json Double → Option (Json Double)
  | .obj members => Json.get? name members
  | _ => none

/-- `error_details` as the code reads it, and its members. -/
def errorDetails (body : Option (Json Double)) : Option (List (String × Json Double)) :=
  match body.bind (member "error_details") with
  | some (.obj details) => some details
  | _ => none

/-- Whether a `422` refuses the whole request for holding more events than Lago accepts. -/
def exceedsBatchLimit (body : Option (Json Double)) : Bool :=
  match (errorDetails body).bind (Json.get? "events") with
  | some (.arr errors) => errors.any fun error => error = .str tooManyEvents
  | _ => false

/-- The codes of one field: a list that is not empty and holds strings only. -/
def fieldCodes : Option (Json Double) → Option (List String)
  | some (.arr (first :: rest)) =>
      (first :: rest).mapM fun code =>
        match code with
        | .str text => some text
        | _ => none
  | _ => none

/-- The pairs of field and code of one event's errors, fields in name order. -/
def errorPairs : Json Double → Option (List (String × String))
  | .obj errors => do
      let pairs ← (sortUnits (errors.map Prod.fst)).mapM fun field => do
        let found ← fieldCodes (Json.get? field errors)
        return found.map fun code => (field, code)
      if pairs.flatten.isEmpty then none else some pairs.flatten
  | _ => none

def allowed (names : List String) (name fallback : String) : String := if name ∈ names then name else fallback

/-- What one entry of `error_details` says of the event it names: `none` for a duplicate, or
the detail it is rejected with. -/
def entryVerdict (errors : Json Double) : Option (Option String) :=
  match errors with
  | .str _ => some (some expressionFailure)
  | other => do
      let pairs ← errorPairs other
      match pairs.find? fun pair => pair.1 ≠ duplicateField || pair.2 ≠ duplicateCode with
      | none => some none
      | some refusal =>
          some (some (allowed fields refusal.1 "event" ++ ":" ++ allowed codes refusal.2 "validation_error"))

/-- The loop of `parseValidationErrors` over the entries of `error_details`. -/
def readEntries (eventCount : Nat) : List (String × Json Double) → Option ValidationVerdict
  | [] => some ⟨[], []⟩
  | (key, errors) :: rest => do
      let index ← position key
      if eventCount ≤ index then none
      let verdict ← entryVerdict errors
      let later ← readEntries eventCount rest
      match verdict with
      | none => some { later with duplicates := index :: later.duplicates }
      | some detail => some { later with invalid := (index, detail) :: later.invalid }

/-- Read a `422` body into a verdict for each event it names, or `none` when it cannot be
trusted. -/
def parseValidationErrors (body : Option (Json Double)) (eventCount : Nat) : Option ValidationVerdict := do
  let details ← errorDetails body
  if details.isEmpty then none
  let verdict ← readEntries eventCount details
  return {
    duplicates := verdict.duplicates.insertionSort (· ≤ ·)
    invalid := verdict.invalid.insertionSort fun a b => a.1 ≤ b.1 }

theorem position_events : position "events" = none := by decide

/-- A body that refuses the whole request names no event. -/
theorem parse_of_exceeds {body : Option (Json Double)} (exceeds : exceedsBatchLimit body = true) (eventCount : Nat) :
    parseValidationErrors body eventCount = none := by
  have unread : ∀ details : List (String × Json Double), "events" ∈ details.map Prod.fst →
      readEntries eventCount details = none := by
    intro details named
    induction details with
    | nil => cases named
    | cons entry rest ih =>
      obtain ⟨key, errors⟩ := entry
      rcases List.mem_cons.mp named with rfl | later
      · simp [readEntries, position_events]
      · unfold readEntries
        rw [ih later]
        cases position key with
        | none => rfl
        | some index =>
          simp only [Option.bind_eq_bind, Option.bind_some]
          split
          · rfl
          · cases entryVerdict errors <;> rfl
  unfold exceedsBatchLimit at exceeds
  unfold parseValidationErrors
  cases found : errorDetails body with
  | none => rfl
  | some details =>
    rw [found] at exceeds
    have named : "events" ∈ details.map Prod.fst := by
      simp only [Option.bind_some] at exceeds
      cases member : Json.get? "events" details with
      | none =>
        rw [member] at exceeds
        cases exceeds
      | some errors =>
        obtain ⟨entry, searched, -⟩ := Option.map_eq_some_iff.mp member
        have same := List.find?_some searched
        simp only [decide_eq_true_eq] at same
        exact List.mem_map.mpr ⟨entry, List.mem_of_find?_eq_some searched, same⟩
    simp only [Option.bind_eq_bind, Option.bind_some, unread details named]
    split <;> rfl

end Audr.Lago
