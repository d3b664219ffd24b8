import Audr.Lib.Transition
import Mathlib.Tactic

/-! The bridge from worker threads to the event loop that owns the client. Each block
under the lock is one step, and so is each callback's way in and out of the client; the
steps of any number of threads come in any order. -/

namespace Audr.Bridge

variable {R O : Type}

/-- The immediate outcome of scheduling one callback record. -/
inductive HandoffOutcome where
  | scheduled
  | droppedHandoffFull
  | droppedLoopUnavailable
  deriving DecidableEq, Repr

/-- One call of `submit`, numbered in the order in which the calls took the lock. -/
structure Handoff (R : Type) where
  call : Nat
  record : R
  deriving DecidableEq, Repr

/-- How `client.record` comes back: with an outcome, with an `Exception`, or with an
exception that only the `finally` clause sees. -/
inductive Reply (O : Type) where
  | returned (outcome : O)
  | failed
  | interrupted
  deriving DecidableEq, Repr

/-- What `on_result` is called with. -/
def Reply.reported : Reply O → List (Option O)
  | .returned outcome => [some outcome]
  | .failed => [none]
  | .interrupted => []

/-- Where the loop is in `_submit_to_client`: outside of it, in the client, before
`_release_pending` has the lock, or past the lock with a waiter to resolve. -/
inductive LoopAt (R : Type) where
  | idle
  | calling (handoff : Handoff R)
  | reporting (handoff : Handoff R)
  | waking (waiter : Nat)
  deriving DecidableEq, Repr

/-- The handoff whose callback has not let go of its place yet. -/
def LoopAt.holding : LoopAt R → List (Handoff R)
  | .calling handoff => [handoff]
  | .reporting handoff => [handoff]
  | _ => []

inductive Ending where
  | awaiting
  | returned
  | timedOut
  | cancelled
  | misplaced
  deriving DecidableEq, Repr

/-- One call of `drain`: what was accepted before it, and the future it awaits. -/
structure Drain (R : Type) where
  before : List (Handoff R)
  waiter : Option Nat
  ending : Ending
  deriving DecidableEq, Repr

/-- The fields of the bridge, the loop's callbacks, and what has happened so far. A future
is named by its place in `waiters`, which says whether it is done. -/
structure EventLoopBridge (R O : Type) where
  maxPending : Nat
  loopOpen : Bool
  pending : Int
  drained : Option Nat
  waiters : List Bool
  submitting : List (Handoff R)
  ready : List (Handoff R)
  loop : LoopAt R
  drains : List (Drain R)
  submits : Nat
  accepted : List (Handoff R)
  scheduled : List (Handoff R)
  called : List (Handoff R)
  finished : List (Handoff R)
  answers : List (Handoff R × HandoffOutcome)
  results : List (Option O)
  deriving DecidableEq

def EventLoopBridge.create (maxPending : Nat) : EventLoopBridge R O :=
  { maxPending
    loopOpen := true
    pending := 0
    drained := none
    waiters := []
    submitting := []
    ready := []
    loop := .idle
    drains := []
    submits := 0
    accepted := []
    scheduled := []
    called := []
    finished := []
    answers := []
    results := [] }

/-- The steps of the threads that submit, of the loop, and of the coroutines that drain. -/
inductive Act (R O : Type) where
  | submit (record : R)
  | schedule (position : Nat)
  | take
  | answer (reply : Reply O)
  | release
  | wake
  | drain (onLoop : Bool)
  | settle (index : Nat)
  | abandon (index : Nat) (timedOut : Bool)
  | close
  deriving DecidableEq, Repr

/-- A step the loop makes by itself, or the client's return. -/
def Act.ofLoop : Act R O → Bool
  | .take | .answer _ | .release | .wake => true
  | _ => false

namespace EventLoopBridge

/-- The waiter a drain may share: there is one, and it is not done. -/
def shared (s : EventLoopBridge R O) : Option Nat :=
  s.drained.filter fun waiter => s.waiters[waiter]? = some false

/-- The first block of `submit`. -/
def enter (s : EventLoopBridge R O) (record : R) : EventLoopBridge R O :=
  let handoff : Handoff R := ⟨s.submits, record⟩
  if (s.maxPending : Int) ≤ s.pending then
    { s with submits := s.submits + 1, answers := s.answers ++ [(handoff, .droppedHandoffFull)] }
  else
    { s with
      submits := s.submits + 1
      pending := s.pending + 1
      accepted := s.accepted ++ [handoff]
      submitting := s.submitting ++ [handoff] }

/-- The rest of `submit`: a closed loop refuses the callback, and the place is given back. -/
def callSoon (s : EventLoopBridge R O) (position : Nat) (handoff : Handoff R) : EventLoopBridge R O :=
  if s.loopOpen then
    { s with
      submitting := s.submitting.eraseIdx position
      ready := s.ready ++ [handoff]
      scheduled := s.scheduled ++ [handoff]
      answers := s.answers ++ [(handoff, .scheduled)] }
  else
    { s with
      submitting := s.submitting.eraseIdx position
      pending := s.pending - 1
      answers := s.answers ++ [(handoff, .droppedLoopUnavailable)] }

/-- The locked block of `_release_pending`. -/
def releasePending (s : EventLoopBridge R O) (handoff : Handoff R) : EventLoopBridge R O :=
  let left := { s with pending := s.pending - 1, finished := s.finished ++ [handoff], loop := .idle }
  match if left.pending = 0 then s.drained else none with
  | none => left
  | some waiter => { left with drained := none, loop := .waking waiter }

/-- `drain` up to its first suspension. -/
def drainCall (s : EventLoopBridge R O) (onLoop : Bool) : EventLoopBridge R O :=
  if !onLoop then { s with drains := s.drains ++ [⟨s.accepted, none, .misplaced⟩] }
  else if s.pending = 0 then { s with drains := s.drains ++ [⟨s.accepted, none, .returned⟩] }
  else
    match s.shared with
    | some waiter => { s with drains := s.drains ++ [⟨s.accepted, some waiter, .awaiting⟩] }
    | none =>
        { s with
          waiters := s.waiters ++ [false]
          drained := some s.waiters.length
          drains := s.drains ++ [⟨s.accepted, some s.waiters.length, .awaiting⟩] }

/-- One step. A drain may come at any point, also inside a callback, and may time out or be
cancelled as long as it has not returned; its `shield` keeps the future from both. -/
def step (s : EventLoopBridge R O) : Act R O → Option (EventLoopBridge R O)
  | .submit record => some (s.enter record)
  | .schedule position => s.submitting[position]?.map (s.callSoon position)
  | .take =>
      match s.loop, s.ready with
      | .idle, handoff :: rest =>
          some { s with loop := .calling handoff, ready := rest, called := s.called ++ [handoff] }
      | _, _ => none
  | .answer reply =>
      match s.loop with
      | .calling handoff => some { s with loop := .reporting handoff, results := s.results ++ reply.reported }
      | _ => none
  | .release =>
      match s.loop with
      | .reporting handoff => some (s.releasePending handoff)
      | _ => none
  | .wake =>
      match s.loop with
      | .waking waiter => some { s with loop := .idle, waiters := s.waiters.set waiter true }
      | _ => none
  | .drain onLoop => some (s.drainCall onLoop)
  | .settle index =>
      match s.drains[index]? with
      | some ⟨before, some waiter, .awaiting⟩ =>
          if s.waiters[waiter]? = some true then
            some { s with drains := s.drains.set index ⟨before, some waiter, .returned⟩ }
          else none
      | _ => none
  | .abandon index timedOut =>
      match s.drains[index]? with
      | some ⟨before, waiter, .awaiting⟩ =>
          some { s with drains := s.drains.set index ⟨before, waiter, if timedOut then .timedOut else .cancelled⟩ }
      | _ => none
  | .close =>
      match s.loop with
      | .idle => some { s with loopOpen := false, ready := [] }
      | _ => none

/-- Every step but the loop's end. -/
def staysOpen (_ : EventLoopBridge R O) : Act R O → Prop
  | .close => False
  | _ => True

instance (s : EventLoopBridge R O) (act : Act R O) : Decidable (s.staysOpen act) := by
  cases act <;> first | exact instDecidableTrue | exact instDecidableFalse

end EventLoopBridge

end Audr.Bridge
