import Audr.Record.Attribution

/-! `resolve_attribution` of the NeMo Relay adapter: the `audr` namespace of a scope's
metadata merged over the static defaults. -/

namespace Audr.NemoRelay

open Python (Value)
open Record (Attribution)

/-- `_audr_overrides`. An absent `metadata` is the same as `None`. -/
def audrOverrides (metadata : Option Value) : Except String (List (String × Value)) :=
  match metadata with
  | none => .ok []
  | some .null => .ok []
  | some (.obj members) =>
      match Json.get? "audr" members with
      | none => .ok []
      | some .null => .ok []
      | some (.obj overrides) => .ok overrides
      | some _ => .error "/metadata/audr"
  | some _ => .error "/metadata"

/-- `_metadata_pointer` and `_attribution_pointer`: only known fields are named. -/
def fieldPointer (base field : String) : String :=
  if field ∈ Attribution.fields then base ++ "/" ++ field else base

/-- `attribution_shape_issue`. -/
def attributionShapeIssue (attribution : Attribution) : Option String :=
  if attribution.issues.any fun issue => issue.1 = .nonPseudonymousId then some "user_id"
  else if attribution.accountId = some "" then some "account_id"
  else if attribution.subscriptionId = some "" then some "subscription_id"
  else if attribution.userId = some "" then some "user_id"
  else none

/-- `{**defaults, **supplied}`. -/
def mergeLabels (defaults supplied : List (String × String)) : List (String × String) :=
  defaults.map (fun entry => (entry.1, (supplied.lookup entry.1).getD entry.2)) ++
    supplied.filter fun entry => entry.1 ∉ defaults.map Prod.fst

/-- `_attribution_to_dict`, but for the labels. -/
def toMembers (attribution : Attribution) : List (String × Value) :=
  let string (name : String) (value : Option String) : List (String × Value) :=
    (value.map fun text => (name, .str text)).toList
  string "environment" (attribution.environment.map Record.Environment.toString) ++
    string "user_id" attribution.userId ++ string "account_id" attribution.accountId ++
    string "subscription_id" attribution.subscriptionId ++ string "feature_id" attribution.featureId

/-- What `resolve_attribution` validates last: an override comes before the default it replaces. -/
def merged (defaults supplied : Attribution) (overrides : List (String × Value)) : List (String × Value) :=
  let labels := mergeLabels (defaults.labels.getD []) (supplied.labels.getD [])
  (if labels.isEmpty then []
    else [("labels", .obj (labels.map fun entry => (entry.1, .str entry.2)))]) ++
    (overrides.filter fun entry => entry.1 ∈ Attribution.fields ∧ entry.1 ≠ "labels") ++
    toMembers defaults

/-- `resolve_attribution`: the billable attribution, or the pointer to what stopped it. -/
def resolveAttribution (defaults : Attribution) (metadata : Option Value) : Except String Attribution :=
  match audrOverrides metadata with
  | .error issue => .error issue
  | .ok overrides =>
      match Attribution.modelValidate overrides with
      | .error field => .error (fieldPointer "/metadata/audr" field)
      | .ok supplied =>
          match attributionShapeIssue supplied with
          | some field => .error ("/metadata/audr/" ++ field)
          | none =>
              match Attribution.modelValidate (merged defaults supplied overrides) with
              | .error field => .error (fieldPointer "/attribution" field)
              | .ok attribution =>
                  match attribution.issues with
                  | [] => .ok attribution
                  | issue :: _ => .error issue.2

/-- `_declares_attribution`. -/
def declaresAttribution : Option Value → Bool
  | some (.obj members) => (Json.get? "audr" members).isSome
  | _ => false

end Audr.NemoRelay
