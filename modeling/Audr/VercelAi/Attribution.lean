import Audr.JsRecord.Values

/-! `attribution.ts` of the Vercel AI adapter: what a call's `runtimeContext` says about who is
billed, over the host's defaults. Objects are their own properties. -/

namespace Audr.VercelAi

open JsRecord (Value)
open Properties (put enumerate fromEntries)

/-- The properties of an attribution. -/
abbrev Attribution := List (String × Value)

/-- The call fields attribution is read from when an operation starts. -/
structure AttributionSource where
  operationId : String
  functionId : Option String
  runtimeContext : List (String × Value)

def stringFields : List String :=
  ["environment", "user_id", "account_id", "subscription_id", "feature_id"]

def isText : Value → Bool
  | .string _ => true
  | _ => false

/-- A `labels` member that is a plain object of strings. -/
def pickedLabels (audr : List (String × Value)) : Attribution :=
  match Value.field "labels" audr with
  | .object true labels => if labels.all fun entry => isText entry.2 then [("labels", .object true labels)] else []
  | _ => []

/-- `readRuntimeAttribution`: an own `audr` that is a plain object. -/
def readRuntimeAttribution (source : AttributionSource) : Option Attribution :=
  match Value.field "audr" source.runtimeContext with
  | .object true audr =>
      let texts := stringFields.filterMap fun key =>
        let value := Value.field key audr
        if isText value then some (key, value) else none
      some (texts ++ pickedLabels audr)
  | _ => none

/-- The members a spread of `labels` copies. -/
def labelsOf (attribution : Attribution) : List (String × Value) :=
  match Value.field "labels" attribution with
  | .object _ labels => labels
  | _ => []

/-- `mergeAttribution`. -/
def mergeAttribution (defaults perCall : Option Attribution) : Attribution :=
  let entries := defaults.getD [] ++ perCall.getD []
  let merged := entries.foldl
    (fun merged entry =>
      if entry.2.isDefined && entry.1 ≠ "labels" then put merged entry.1 entry.2 else merged) []
  let labels := fromEntries (labelsOf (defaults.getD []) ++ labelsOf (perCall.getD []))
  enumerate (if labels.isEmpty then merged else put merged "labels" (.object true labels))

/-- `resolveAttribution`; `none` where it is unresolved. -/
def resolveAttribution (source : AttributionSource) (defaults : Option Attribution) : Option Attribution :=
  let attribution := mergeAttribution defaults (readRuntimeAttribution source)
  if (Value.field "environment" attribution).isDefined then some attribution else none

/-- `asObject`. -/
def asObject : Value → List (String × Value)
  | .object _ members => members
  | _ => []

/-- `nonEmpty`. -/
def nonEmpty (value : Option String) : Option String := value.filter fun text => text ≠ ""

end Audr.VercelAi
