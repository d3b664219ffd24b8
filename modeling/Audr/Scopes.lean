import Audr.Lib.Overlay
import Audr.Lib.Spread

/-! `attribution.ts` of the gateway adapters: the scopes `withAudr` opens, and the attribution and
run in effect where a call starts. -/

namespace Audr.Scopes

open Overlay (innermost innerGroup)
open Properties (Object)

structure Attribution where
  environment : Option String
  accountId : Option String
  subscriptionId : Option String
  userId : Option String
  featureId : Option String
  labels : Option (Object String)

/-- A run the host already has. -/
structure RunContext where
  runId : String
  parentSpanId : Option String
  name : Option String
  deriving DecidableEq, Repr

/-- What `withAudr` applies. -/
structure AudrContext where
  attribution : Option Attribution
  run : Option RunContext

structure Scope where
  attribution : Attribution
  run : Option RunContext

def Attribution.empty : Attribution := ⟨none, none, none, none, none, none⟩

/-- `EMPTY`. -/
def empty : Scope := ⟨.empty, none⟩

/-- `mergeAttribution`: field by field, and labels by key. -/
def mergeAttribution (base : Attribution) (override : Option Attribution) : Attribution :=
  let labels := Object.spread (base.labels.getD .empty) ((override.bind Attribution.labels).getD .empty)
  { environment := (override.bind Attribution.environment).or base.environment
    accountId := (override.bind Attribution.accountId).or base.accountId
    subscriptionId := (override.bind Attribution.subscriptionId).or base.subscriptionId
    userId := (override.bind Attribution.userId).or base.userId
    featureId := (override.bind Attribution.featureId).or base.featureId
    labels := if labels.entries = [] then none else some labels }

/-- `nestRun`. -/
def nestRun (outer : Option RunContext) : Option RunContext → Option RunContext
  | none => outer
  | some run =>
      let same := outer.filter fun outer => outer.runId = run.runId
      some
        { runId := run.runId
          parentSpanId := run.parentSpanId.or (same.bind RunContext.parentSpanId)
          name := run.name.or (same.bind RunContext.name) }

/-- `nest`; a context that cannot be read leaves the outer scope. -/
def nest (outer : Scope) : Option AudrContext → Scope
  | none => outer
  | some context => ⟨mergeAttribution outer.attribution context.attribution, nestRun outer.run context.run⟩

/-- The scope of a body inside nested calls of `withAudr`, listed from the outermost. -/
def scopeOf (path : List (Option AudrContext)) : Scope := path.foldl nest empty

/-! What the contexts say. -/

/-- The attribution a context sets. -/
def attributionOf (context : Option AudrContext) : Option Attribution := context.bind AudrContext.attribution

/-- The run a context sets. -/
def runOf (context : Option AudrContext) : Option RunContext := context.bind AudrContext.run

def Attribution.label (name : String) (attribution : Attribution) : Option String := attribution.labels.bind (Object.get name)

/-- What is read of an attribution: a field, or a label. -/
inductive Field where
  | environment
  | accountId
  | subscriptionId
  | userId
  | featureId
  | label (name : String)

def Attribution.get (attribution : Attribution) : Field → Option String
  | .environment => attribution.environment
  | .accountId => attribution.accountId
  | .subscriptionId => attribution.subscriptionId
  | .userId => attribution.userId
  | .featureId => attribution.featureId
  | .label name => attribution.label name

variable {base attribution : Attribution} {override : Option Attribution} {path : List (Option AudrContext)}

/-- The runs of a path, from the outermost. -/
def runs (path : List (Option AudrContext)) : List RunContext := path.filterMap runOf

/-- The runs at the inner end that have the id of the innermost. -/
def joined (path : List (Option AudrContext)) : List RunContext := innerGroup RunContext.runId (runs path)

theorem scopeOf_concat (context : Option AudrContext) : scopeOf (path ++ [context]) = nest (scopeOf path) context := by
  rw [scopeOf, List.foldl_append]
  rfl

end Audr.Scopes
