import Audr.Lago.Response
import Audr.Lago.Tally

/-! The Lago sink: `deliver`, `#deliverChunk` and `#exchange`. A clock stands for the moments
at which the code looks at its surroundings; what it finds there is a `World`. -/

namespace Audr.Lago

/-- How one call of `fetch` settles. A body is `none` where `response.json()` rejects. -/
inductive Settlement where
  | response (status : Nat) (body : Option (Json Double))
  | rejected (name : String)
  | threw (name : String)
  | unusable
  deriving DecidableEq

/-- What a delivery finds at each moment of its clock: whether the sink is closed and the
caller has aborted, how the request of that moment settles, and where an error no code path
anticipates is raised: as a request is serialized, and as the headers of an answer are read. -/
structure World where
  closed : Nat → Bool
  aborted : Nat → Bool
  settlement : Nat → Settlement
  serializes : Nat → Bool
  readsHeaders : Nat → Bool
  closed_stays : ∀ {earlier later}, earlier ≤ later → closed earlier = true → closed later = true
  aborted_stays : ∀ {earlier later}, earlier ≤ later → aborted earlier = true → aborted later = true

/-- One call of `fetch`: which attempt of which pass over which chunk, its moment and its events. -/
structure Post where
  chunk : Nat
  pass : Nat
  attempt : Nat
  time : Nat
  body : List LagoEvent
  deriving DecidableEq

/-- What one request, retries included, came to; `raised` is an unexpected error. -/
inductive Exchange where
  | accepted
  | invalid (body : Option (Json Double))
  | stopped (stop : Stop)
  | raised
  deriving DecidableEq

/-- `#interruption`. -/
def World.interruption (world : World) (time : Nat) : Option Stop :=
  if world.closed time then some .closed else if world.aborted time then some .aborted else none

/-- How one attempt ends: with the exchange, or so that the request may be sent again. -/
inductive Attempted where
  | ends (exchange : Exchange)
  | again (detail : String) (readsHeaders : Bool)

/-- One attempt that has called `fetch`, up to where another may follow. -/
def World.attempted (world : World) (time : Nat) : Attempted :=
  match world.settlement time with
  | .unusable => .ends .raised
  | .threw name => .again name true
  | .rejected name =>
      match world.interruption (time + 1) with
      | some stop => .ends (.stopped stop)
      | none => .again name true
  | .response status body =>
      match classifyStatus status with
      | .accepted => .ends .accepted
      | .unconfirmed => .ends (.stopped .unconfirmed)
      | .invalid =>
          if body = none then
            match world.interruption (time + 1) with
            | some stop => .ends (.stopped stop)
            | none => .ends (.invalid body)
          else .ends (.invalid body)
      | .transient => .again ("http_" ++ toString status) (world.readsHeaders time)
      | .credential => .ends (.stopped (.failed false "auth"))
      | .forbidden => .ends (.stopped (.failed false "forbidden"))
      | .tooLarge => .ends (.stopped (.failed false "payload_too_large"))
      | .permanent => .ends (.stopped (.failed false ("http_" ++ toString status)))

/-- What a request came to, the moment it ended at, and the calls of `fetch` it made. -/
structure Exchanged where
  exchange : Exchange
  time : Nat
  posts : List Post

/-- The loop of `#exchange` from an attempt on, with how many more may follow it. -/
def exchangeFrom (world : World) (chunk pass : Nat) (events : List LagoEvent) (attempt time left : Nat) :
    Exchanged :=
  match world.interruption time with
  | some stop => ⟨.stopped stop, time + 3, []⟩
  | none =>
      let post : Post := ⟨chunk, pass, attempt, time, events⟩
      match world.attempted time with
      | .ends exchange => ⟨exchange, time + 3, [post]⟩
      | .again detail readsHeaders =>
          match left with
          | 0 => ⟨.stopped (.failed true detail), time + 3, [post]⟩
          | left + 1 =>
              if readsHeaders then
                match world.interruption (time + 2) with
                | some stop => ⟨.stopped stop, time + 3, [post]⟩
                | none =>
                    let later := exchangeFrom world chunk pass events (attempt + 1) (time + 3) left
                    { later with posts := post :: later.posts }
              else ⟨.raised, time + 3, [post]⟩

/-- `RetryPolicy`; its delays decide nothing here. -/
structure RetryPolicy where
  maxAttempts : Nat
  attempts_pos : 1 ≤ maxAttempts

/-- `#exchange`. -/
def exchange (world : World) (policy : RetryPolicy) (chunk pass : Nat) (events : List LagoEvent) (time : Nat) :
    Exchanged :=
  if world.serializes time then exchangeFrom world chunk pass events 1 time (policy.maxAttempts - 1)
  else ⟨.raised, time + 3, []⟩

/-- The detail of an event a `422` refuses, by its position. -/
def ValidationVerdict.refusal (verdict : ValidationVerdict) (index : Nat) : Option String :=
  (verdict.invalid.reverse.find? fun entry => entry.1 = index).map Prod.snd

/-- The loop over the events of a request that a `422` answered: the tally it leaves and the
events to send again. -/
def settleNamed (verdict : ValidationVerdict) : Nat → List LagoEvent → Tally → Tally × List LagoEvent
  | _, [], tally => (tally, [])
  | index, event :: rest, tally =>
      match verdict.refusal index with
      | some detail => settleNamed verdict (index + 1) rest (tally.reject event.transactionId detail)
      | none =>
          if index ∈ verdict.duplicates then settleNamed verdict (index + 1) rest (tally.confirm [event])
          else
            let later := settleNamed verdict (index + 1) rest tally
            (later.1, event :: later.2)

def maxEventsPerRequest : Nat := 100

def maxSalvagePasses : Nat := 3

/-- How the delivery of one chunk ends. -/
inductive ChunkEnd where
  | settled
  | stopped (stop : Stop)
  | raised
  deriving DecidableEq

/-- Where a delivery stands: its tally, its clock, the calls of `fetch` so far, and how each
chunk ended. -/
structure Progress where
  tally : Tally
  time : Nat
  posts : List Post := []
  ends : List ChunkEnd := []

/-- The progress once a request has been sent, with what it did to the tally. -/
def Progress.after (progress : Progress) (sent : Exchanged) (tally : Tally) : Progress :=
  { progress with
    tally := tally
    time := sent.time
    posts := progress.posts ++ sent.posts }

/-- What a chunk comes to after one request: its end, or the events to send again. -/
inductive Passed where
  | ends (how : ChunkEnd) (tally : Tally)
  | again (tally : Tally) (survivors : List LagoEvent)

/-- The body of the loop of `#deliverChunk`, once the request is over. -/
def afterExchange (salvaged : Nat) (pending : List LagoEvent) (tally : Tally) : Exchange → Passed
  | .accepted => .ends .settled (tally.confirm pending)
  | .invalid body =>
      if exceedsBatchLimit body then
        .ends (.stopped (.failed false tooManyEvents)) (tally.refuse pending tooManyEvents)
      else if salvaged = maxSalvagePasses then .ends (.stopped (.failed false "http_422")) tally
      else
        match parseValidationErrors body pending.length with
        | none => .ends (.stopped (.failed false "http_422")) (tally.refuse pending "http_422")
        | some verdict =>
            let settled := settleNamed verdict 0 pending tally
            .again settled.1 settled.2
  | .stopped stop =>
      match stop with
      | .failed false detail => .ends (.stopped stop) (tally.refuse pending detail)
      | _ => .ends (.stopped stop) tally
  | .raised => .ends .raised tally

/-- `#deliverChunk` from a pass on, with how many more may follow it: the last pass acts on no
`422`, so none does. -/
def deliverChunk (world : World) (policy : RetryPolicy) (chunk left : Nat) (pending : List LagoEvent)
    (progress : Progress) : ChunkEnd × Progress :=
  if pending = [] then (.settled, progress)
  else
    let salvaged := maxSalvagePasses - left
    let sent := exchange world policy chunk salvaged pending progress.time
    match afterExchange salvaged pending progress.tally sent.exchange with
    | .ends how tally => (how, progress.after sent tally)
    | .again tally survivors =>
        match left with
        | 0 => (.settled, progress.after sent tally)
        | left + 1 => deliverChunk world policy chunk left survivors (progress.after sent tally)
termination_by structural left

/-- The chunks a batch is sent in. -/
def slices {α : Type} (size : Nat) : (fuel : Nat) → List α → List (List α)
  | 0, _ => []
  | _ + 1, [] => []
  | fuel + 1, events => events.take size :: slices size fuel (events.drop size)

/-- The loop of `#deliver` over the chunks, and what catches an unexpected error in it. -/
def deliverChunks (world : World) (policy : RetryPolicy) : (chunk : Nat) → List (List LagoEvent) → Progress → Progress
  | _, [], progress => progress
  | chunk, events :: rest, progress =>
      if progress.tally.stop.isSome then progress
      else
        let (how, later) := deliverChunk world policy chunk maxSalvagePasses events progress
        let later := { later with ends := later.ends ++ [how] }
        match how with
        | .settled => deliverChunks world policy (chunk + 1) rest later
        | .stopped stop =>
            deliverChunks world policy (chunk + 1) rest { later with tally := later.tally.halt stop }
        | .raised => { later with tally := later.tally.halt (.failed false "internal_error") }

/-- The result of a delivery, the calls of `fetch` it made, and how its chunks ended. -/
structure Delivered where
  result : BatchResult
  posts : List Post
  ends : List ChunkEnd

section Delivery

variable {R : Type} [AudrRecord R]

/-- The tally of a batch before anything is sent. -/
def tallied (found : Preflight) : Tally :=
  { events := found.events.map Prod.snd
    rejected := found.rejected.map fun entry => (entry.1, some entry.2) }

/-- `deliver`; `readable` is false for a batch whose records have no fields to read, which
`preflight` throws on. -/
def deliver (encoder : Encoder R) (world : World) (policy : RetryPolicy) (readable : Bool) (batch : List R) :
    Delivered :=
  if world.closed 0 then ⟨.closed, [], []⟩
  else if readable then
    let tally := tallied (preflight encoder batch)
    let chunks := slices maxEventsPerRequest tally.events.length tally.events
    let run := deliverChunks world policy 0 chunks { tally, time := 0 }
    ⟨run.tally.result, run.posts, run.ends⟩
  else ⟨.failed false (some "internal_error"), [], []⟩

end Delivery

end Audr.Lago
