import Audr.Lago.Preflight

/-! What is known about each event of a batch while its requests are sent, and the one
`BatchResult` it comes to. -/

namespace Audr.Lago

/-- Why sending stopped before every event had an outcome. -/
inductive Stop where
  | closed
  | aborted
  | unconfirmed
  | failed (retryable : Bool) (detail : String)
  deriving DecidableEq, Repr

structure Tally where
  events : List LagoEvent
  rejected : List (String × Option String)
  refused : List (String × Option String) := []
  settled : List String := []
  confirmed : Nat := 0
  stop : Option Stop := none
  deriving DecidableEq

def idsOf (events : List LagoEvent) : List String := events.map LagoEvent.transactionId

namespace Tally

/-- The events were accepted, or were found to be held by Lago already. -/
def confirm (tally : Tally) (events : List LagoEvent) : Tally :=
  { tally with
    settled := tally.settled ++ idsOf events
    confirmed := tally.confirmed + events.length }

/-- Lago refused the record, for a reason that no resend changes. -/
def reject (tally : Tally) (id detail : String) : Tally :=
  { tally with
    rejected := tally.rejected ++ [(id, some detail)]
    settled := tally.settled ++ [id] }

/-- Lago refused the request that carried the events. -/
def refuse (tally : Tally) (events : List LagoEvent) (detail : String) : Tally :=
  { tally with
    refused := tally.refused ++ (idsOf events).map fun id => (id, some detail)
    settled := tally.settled ++ idsOf events }

/-- Sending stopped; the first reason stands. -/
def halt (tally : Tally) (stop : Stop) : Tally := { tally with stop := tally.stop.or (some stop) }

def unresolved (tally : Tally) : List String := (idsOf tally.events).filter (· ∉ tally.settled)

def result (tally : Tally) : BatchResult :=
  match tally.stop with
  | none => .accepted tally.rejected tally.unresolved
  | some stop =>
      let settled := 0 < tally.confirmed ∨ tally.rejected ≠ []
      if stop = .aborted ∨ stop = .unconfirmed ∨ settled then
        .accepted (tally.rejected ++ tally.refused) tally.unresolved
      else
        match stop with
        | .failed retryable detail => .failed retryable (some detail)
        | _ => .closed

end Tally

end Audr.Lago
