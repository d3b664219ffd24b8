import Audr.Python

/-! The `Attribution` model of the Python package: the fields Pydantic checks when one is
built from a mapping, and the billability rules of `validate`. -/

namespace Audr.Record

open Python (Value)

inductive Environment where
  | production
  | staging
  | development
  | test
  | evaluation
  deriving DecidableEq, Repr

def Environment.ofString : String → Option Environment
  | "production" => some .production
  | "staging" => some .staging
  | "development" => some .development
  | "test" => some .test
  | "evaluation" => some .evaluation
  | _ => none

def Environment.toString : Environment → String
  | .production => "production"
  | .staging => "staging"
  | .development => "development"
  | .test => "test"
  | .evaluation => "evaluation"

structure Attribution where
  environment : Option Environment
  userId : Option String
  accountId : Option String
  subscriptionId : Option String
  featureId : Option String
  labels : Option (List (String × String))
  deriving DecidableEq, Repr

namespace Attribution

/-- `Attribution.model_fields`, in the order they are checked. -/
def fields : List String :=
  ["environment", "user_id", "account_id", "subscription_id", "feature_id", "labels"]

/-- A character of `[a-zA-Z0-9_.-]`. -/
def labelChar (c : Char) : Bool := c.isAlphanum || c = '_' || c = '.' || c = '-'

def labelKey (key : String) : Bool :=
  !key.toList.isEmpty && key.toList.all labelChar && key.toList.length ≤ 64

def labelValue (value : String) : Bool := value.toList.length ≤ 256

/-- An optional string of a minimal length; `null` is the same as absent. -/
def checkString (name : String) (least : Nat) (members : List (String × Value)) :
    Except String (Option String) :=
  match Json.get? name members with
  | none => .ok none
  | some .null => .ok none
  | some (.str text) => if least ≤ text.toList.length then .ok (some text) else .error name
  | some _ => .error name

def checkEnvironment (members : List (String × Value)) : Except String (Option Environment) :=
  match Json.get? "environment" members with
  | none => .ok none
  | some .null => .ok none
  | some (.str text) =>
      match Environment.ofString text with
      | some environment => .ok (some environment)
      | none => .error "environment"
  | some _ => .error "environment"

/-- The entries of a `labels` mapping, if each of them is a label. -/
def labelEntries : List (String × Value) → Option (List (String × String))
  | [] => some []
  | (key, .str value) :: rest =>
      if labelKey key && labelValue value then (labelEntries rest).map ((key, value) :: ·) else none
  | _ :: _ => none

def checkLabels (members : List (String × Value)) : Except String (Option (List (String × String))) :=
  match Json.get? "labels" members with
  | none => .ok none
  | some .null => .ok none
  | some (.obj entries) =>
      match labelEntries entries with
      | some labels => if labels.length ≤ 20 then .ok (some labels) else .error "labels"
      | none => .error "labels"
  | some _ => .error "labels"

/-- Unknown properties are reported after the errors of the fields. -/
def checkExtra (members : List (String × Value)) : Except String Unit :=
  match members.find? fun entry => entry.1 ∉ fields with
  | some entry => .error entry.1
  | none => .ok ()

/-- `Attribution.model_validate`; an error is the start of the first error's location. -/
def modelValidate (members : List (String × Value)) : Except String Attribution := do
  let environment ← checkEnvironment members
  let userId ← checkString "user_id" 0 members
  let accountId ← checkString "account_id" 1 members
  let subscriptionId ← checkString "subscription_id" 0 members
  let featureId ← checkString "feature_id" 1 members
  let labels ← checkLabels members
  checkExtra members
  return ⟨environment, userId, accountId, subscriptionId, featureId, labels⟩

/-- The codes of the issues `attribution_issues` reports. -/
inductive IssueCode where
  | required
  | nonPseudonymousId
  deriving DecidableEq, Repr

/-- `attribution_issues`, as the code and path of each. -/
def issues (attribution : Attribution) : List (IssueCode × String) :=
  (match attribution.environment with
    | none => [(.required, "/attribution/environment")]
    | some .production =>
        if attribution.accountId.getD "" = "" then [(.required, "/attribution/account_id")] else []
    | some _ => []) ++
  match attribution.userId with
  | some userId => if '@' ∈ userId.toList then [(.nonPseudonymousId, "/attribution/user_id")] else []
  | none => []

end Attribution

end Audr.Record
