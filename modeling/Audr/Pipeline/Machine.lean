import Audr.Records

/-! The TypeScript delivery pipeline and the client in front of it, as one machine.
User code runs in the middle of the pipeline's own code and may call back into it,
so the synchronous code still to run is an explicit stack of operations. Control is
with the event loop when that stack is empty; what an `await` waits for is then
chosen by the label of the next step, in any order and at any time. -/

namespace Audr.Pipeline

inductive FailureReason where
  | invalid
  | queueFull
  | shutdown
  | rejected
  | sinkFailure
  | sinkClosed
  | inconclusive
  deriving DecidableEq, Repr

structure FailedRecord (R : Type) where
  record : R
  disposition : Disposition
  reason : FailureReason
  retryable : Bool
  detail : Option String
  deriving DecidableEq, Repr

inductive SubmitOutcome where
  | queued
  | rejectedInvalid
  | droppedQueueFull
  | droppedNotRunning
  deriving DecidableEq, Repr

/-- What `await sink.deliver(...)` comes to. A malformed value is one the pipeline
cannot read through: `unreadable` claims `accepted` with lists that throw when read,
`unexpected` has another outcome, `throwing` is a failure whose `detail` throws when
it is read for item number `reads`. -/
inductive Settlement where
  | result (result : BatchResult)
  | unreadable
  | unexpected
  | throwing (retryable : Bool) (detail : Option String) (reads : Nat)
  | nonObject
  | rejection
  deriving DecidableEq, Repr

/-- Where user code may be running. `recording` is what `Client.record` runs before
it submits: property getters, the clock and the logger. -/
inductive Site where
  | host
  | recording
  | logger
  | onFailure
  | onDelivered
  | deliver
  | abortListener
  | sinkClose
  deriving DecidableEq, Repr

/-- Synchronous code still to run, in the order it will run. -/
inductive Op (R : Type) where
  | user (site : Site)
  | submit (record : R)
  | reportInvalid (record : R)
  | queueFull (ref : Ref) (record : R)
  | returned (ref : Ref) (outcome : SubmitOutcome)
  | endNotify
  | fail (ref : Ref) (disposition : Disposition) (reason : FailureReason) (retryable : Bool)
      (detail : Option String)
  | markSent (ref : Ref)
  | notifyDelivered (batch : List Ref)
  | conclude (pending batch : List Ref) (unresolved : Nat)
  | idleCheck (drain : Nat)
  | assignStopping (stop : Nat)
  | assignShutdown (stop : Nat)
  | abandonOutstanding
  | abandonQueued (queued : List (Queued R)) (dropped : Nat)
  | abandonInFlight (pending : List Ref) (dropped unknown : Nat)
  deriving DecidableEq, Repr

/-- The handle in `#lingerTimer`; `cleared` is a handle kept after `clearTimeout`. -/
inductive Timer where
  | unset
  | armed
  | cleared
  deriving DecidableEq, Repr

/-- Where the delivery loop stands: inside the synchronous part of `sink.deliver`,
awaiting its promise, accounting for the batch, or past `#deliver` but not resumed. -/
inductive RunAt where
  | idle
  | calling (batch : List Ref)
  | awaiting (batch : List Ref)
  | concluding
  | delivered
  deriving DecidableEq, Repr

/-- One call of `#drain`; `submittedBefore` counts the records submitted before it. -/
structure Drain where
  forFlush : Bool
  submittedBefore : Nat
  idle : Bool
  settled : Bool
  deriving DecidableEq, Repr

/-- One call of `#stop`, by the `await` it is at. -/
inductive StopAt where
  | draining (drain : Nat)
  | settlingCallbacks
  | closing
  | stopped
  deriving DecidableEq, Repr

/-- A flush that waits for a stop to finish. -/
structure StopWait where
  stop : Nat
  submittedBefore : Nat
  settled : Bool
  deriving DecidableEq, Repr

/-- `MAX_BATCH_SIZE` of the client. -/
def maxBatchSize : Nat := 500

/-- The options the client's constructor accepts. -/
structure Options where
  maxQueueSize : Nat
  batchMaxSize : Nat
  ownsSink : Bool
  onFailure : Bool
  onDelivered : Bool
  queue_pos : 1 ≤ maxQueueSize
  batch_pos : 1 ≤ batchMaxSize
  batch_le : batchMaxSize ≤ maxBatchSize

/-- The checks of the client's constructor on its two sizes. -/
def Options.create (maxQueueSize batchMaxSize : Nat) (ownsSink onFailure onDelivered : Bool) :
    Except String Options :=
  if queue : 1 ≤ maxQueueSize then
    if batch : 1 ≤ batchMaxSize ∧ batchMaxSize ≤ maxBatchSize then
      .ok ⟨maxQueueSize, batchMaxSize, ownsSink, onFailure, onDelivered, queue, batch.1, batch.2⟩
    else .error "batchMaxSize must be an integer from 1 to 500"
  else .error "maxQueueSize must be an integer >= 1"

/-- The fields of `Pipeline` and `Client`, the suspended asynchronous calls, the
stack, and a history: how each submitted record ended, which were queued, which
batches the sink was handed and how many of those calls have settled, what
`onFailure` was called with, what `record()` returned, what flushes resolved to. -/
structure State (R : Type) where
  queue : List (Queued R)
  inFlight : List (InFlight R)
  delivering : Bool
  lingerTimer : Timer
  drainers : Nat
  stopped : Bool
  stopping : Option Nat
  idleWaiters : List Nat
  aborted : Bool
  callbacks : Nat
  notifying : Bool
  submitted : Nat
  sent : Nat
  dropped : Nat
  unknown : Nat
  batches : Nat
  shutdown : Option Nat
  run : RunAt
  drains : List Drain
  stops : List StopAt
  stopWaits : List StopWait
  todo : List (Op R)
  settled : List (Ref × Terminal)
  accepted : List Ref
  handed : List (List Ref)
  answered : Nat
  reported : List (Option Ref × FailedRecord R)
  returned : List (Ref × SubmitOutcome)
  flushed : List (Nat × Bool)
  deriving DecidableEq, Repr

/-- A client just constructed. -/
def initial (R : Type) : State R where
  queue := []
  inFlight := []
  delivering := false
  lingerTimer := .unset
  drainers := 0
  stopped := false
  stopping := none
  idleWaiters := []
  aborted := false
  callbacks := 0
  notifying := false
  submitted := 0
  sent := 0
  dropped := 0
  unknown := 0
  batches := 0
  shutdown := none
  run := .idle
  drains := []
  stops := []
  stopWaits := []
  todo := []
  settled := []
  accepted := []
  handed := []
  answered := 0
  reported := []
  returned := []
  flushed := []

variable {R : Type}

namespace State

/-- `DeliveryStats.queueDepth`. -/
def depth (s : State R) : Nat := s.queue.length + s.inFlight.length

def batchDue (o : Options) (s : State R) : Bool :=
  decide (o.batchMaxSize ≤ s.queue.length) || decide (0 < s.drainers) || s.stopped

/-- Leave code to run before everything on the stack. -/
def push (ops : List (Op R)) (s : State R) : State R := { s with todo := ops ++ s.todo }

/-- The synchronous start of `#deliver`, up to the call of the sink, on the records
`splice` takes off the queue. -/
def deliver (o : Options) (s : State R) : State R :=
  let batch := s.queue.take o.batchMaxSize
  let refs := batch.map Queued.ref
  { s with
    queue := s.queue.drop o.batchMaxSize
    inFlight := s.inFlight ++ batch.map fun q => ⟨q.ref, q.record, none⟩
    run := .calling refs
    handed := s.handed ++ [refs]
    todo := .user .deliver :: s.todo }

/-- Resolve the promise of every `#drain` that waits for idleness. -/
def wakeIdle (s : State R) : State R :=
  { s with
    drains := s.drains.zipIdx.map fun (d, i) => if i ∈ s.idleWaiters then { d with idle := true } else d
    idleWaiters := [] }

/-- The start of `#run`. With `batchMaxSize ≥ 1` the first batch is empty only when
the queue is, and then the `finally` block finds it empty too. -/
def startRun (o : Options) (s : State R) : State R :=
  if s.delivering then s
  else
    let s := { s with delivering := true, lingerTimer := .unset }
    if s.queue.isEmpty then wakeIdle { s with delivering := false } else deliver o s

def schedule (o : Options) (s : State R) : State R :=
  if s.delivering || s.queue.isEmpty then s
  else if batchDue o s then startRun o s
  else { s with lingerTimer := if s.lingerTimer = .unset then .armed else s.lingerTimer }

/-- `#run` after its `await`: the next batch if one is due, else the `finally` block. -/
def resumeRun (o : Options) (s : State R) : State R :=
  if batchDue o s && !s.queue.isEmpty then deliver o s
  else
    let s := { s with delivering := false, run := .idle }
    if s.queue.isEmpty then wakeIdle s else schedule o s

def notifyFailure (o : Options) (ref : Option Ref) (failure : FailedRecord R) (s : State R) :
    State R :=
  if !o.onFailure || s.notifying then s
  else
    { s with
      notifying := true
      reported := s.reported ++ [(ref, failure)]
      todo := .user .onFailure :: .endNotify :: s.todo }

/-- Count one record in its terminal state. -/
def count (ref : Ref) (terminal : Terminal) (s : State R) : State R :=
  { s with
    sent := if terminal = .sent then s.sent + 1 else s.sent
    dropped := if terminal = .dropped then s.dropped + 1 else s.dropped
    unknown := if terminal = .unknown then s.unknown + 1 else s.unknown
    settled := s.settled ++ [(ref, terminal)] }

/-- Set the state of one in-flight item and count it. -/
def settleItem (ref : Ref) (terminal : Terminal) (s : State R) : State R :=
  count ref terminal
    { s with
      inFlight := s.inFlight.map fun item =>
        if item.ref = ref then { item with state := some terminal } else item }

/-- The item a reference names, if its state is still `in_flight`. -/
def liveItem? (s : State R) (ref : Ref) : Option (InFlight R) :=
  s.inFlight.find? fun item => item.ref = ref && item.live

def markSent (ref : Ref) (s : State R) : State R :=
  if (s.liveItem? ref).isSome then settleItem ref .sent s else s

def fail (o : Options) (ref : Ref) (disposition : Disposition) (reason : FailureReason)
    (retryable : Bool) (detail : Option String) (s : State R) : State R :=
  match s.liveItem? ref with
  | none => s
  | some item =>
      notifyFailure o (some ref) ⟨item.record, disposition, reason, retryable, detail⟩
        (settleItem ref disposition.terminal s)

/-- `Pipeline.submit`; the result is returned once nested calls have returned. -/
def submit (o : Options) (record : R) (s : State R) : State R :=
  let ref := s.submitted
  let s := { s with submitted := s.submitted + 1 }
  if o.maxQueueSize ≤ s.depth then
    push [.user .logger, .queueFull ref record] (count ref .dropped s)
  else
    schedule o
      { s with
        queue := s.queue ++ [⟨ref, record⟩]
        accepted := s.accepted ++ [ref]
        todo := .returned ref .queued :: s.todo }

/-- The synchronous part of `#drain`; the idleness check follows `#schedule`. -/
def drain (o : Options) (forFlush : Bool) (s : State R) : State R :=
  schedule o
    { s with
      drainers := s.drainers + 1
      drains := s.drains ++ [⟨forFlush, s.submitted, false, false⟩]
      todo := .idleCheck s.drains.length :: s.todo }

def idleCheck (drain : Nat) (s : State R) : State R :=
  if !s.delivering && s.queue.isEmpty then
    { s with drains := s.drains.modify drain fun d => { d with idle := true } }
  else { s with idleWaiters := s.idleWaiters ++ [drain] }

def flush (o : Options) (s : State R) : State R :=
  match s.stopping with
  | none => drain o true s
  | some stop => { s with stopWaits := s.stopWaits ++ [⟨stop, s.submitted, false⟩] }

/-- `Pipeline.stop` under `Client.shutdown`. Each `??=` reads its target before the
call and assigns after it, so a shutdown from inside the call starts another stop. -/
def beginShutdown (o : Options) (s : State R) : State R :=
  if s.shutdown.isSome then s
  else
    match s.stopping with
    | some stop => push [.assignShutdown stop] s
    | none =>
        let stop := s.stops.length
        drain o false
          { s with
            stopped := true
            stops := s.stops ++ [.draining s.drains.length]
            todo := .assignStopping stop :: .assignShutdown stop :: s.todo }

section Apply
variable [AudrRecord R]

/-- The loop of `#apply` over a batch, as the calls it makes on each item. -/
def applyResult (batch : List (InFlight R)) : BatchResult → List (Op R)
  | .accepted rejected unknown =>
      (batch.map fun item =>
        let id := AudrRecord.recordId item.record
        -- a `Map` built from the entries keeps the last detail of a repeated id
        match (rejected.reverse.find? fun entry => entry.1 = id) with
        | some entry => .fail item.ref .dropped .rejected false entry.2
        | none =>
            if id ∈ unknown then .fail item.ref .unknown .inconclusive true none
            else .markSent item.ref) ++ [.notifyDelivered (batch.map InFlight.ref)]
  | .failed retryable detail =>
      .user .logger :: batch.map fun item => .fail item.ref .dropped .sinkFailure retryable detail
  | .closed =>
      .user .logger :: batch.map fun item => .fail item.ref .dropped .sinkClosed true none

/-- `#apply` on any object, up to where reading it throws. -/
def applyObject (batch : List (InFlight R)) : Settlement → Option (List (Op R))
  | .result result => some (applyResult batch result)
  | .unreadable => some []
  | .unexpected => some []
  | .throwing retryable detail reads =>
      some (applyResult (batch.take reads) (.failed retryable detail))
  | .nonObject => none
  | .rejection => none

/-- `#deliver` after its `await`, its `finally` block last. -/
def answer (batch : List Ref) (settlement : Settlement) (s : State R) : State R :=
  let s := { s with run := .concluding, answered := s.answered + 1 }
  let items := s.inFlight.filter fun item => item.ref ∈ batch
  match applyObject items settlement with
  | some ops =>
      if items.any InFlight.live then
        push (ops ++ [.conclude batch batch 0]) { s with batches := s.batches + 1 }
      else push [.conclude batch batch 0] s
  | none => push [.conclude batch batch 0] s

end Apply

/-- One turn of the `finally` block of `#deliver`: fail what is still in flight, then
release the batch and log if anything was unresolved. -/
def conclude (o : Options) (pending batch : List Ref) (unresolved : Nat) (s : State R) : State R :=
  match pending with
  | ref :: rest =>
      let found := (s.liveItem? ref).isSome
      fail o ref .unknown .inconclusive true none
        (push [.conclude rest batch (if found then unresolved + 1 else unresolved)] s)
  | [] =>
      push (if unresolved = 0 then [] else [.user .logger])
        { s with
          inFlight := s.inFlight.filter fun item => item.ref ∉ batch
          run := .delivered }

def notifyDelivered (o : Options) (batch : List Ref) (s : State R) : State R :=
  if o.onDelivered &&
      s.inFlight.any (fun item => item.ref ∈ batch && item.state = some .sent) then
    push [.user .onDelivered] s
  else s

/-- `#abandonOutstanding` takes the whole queue, then drops each record of it. -/
def abandonOutstanding (s : State R) : State R :=
  push [.abandonQueued s.queue 0] { s with queue := [] }

def abandonQueued (o : Options) (queued : List (Queued R)) (dropped : Nat) (s : State R) : State R :=
  match queued with
  | q :: rest =>
      notifyFailure o (some q.ref) ⟨q.record, .dropped, .shutdown, true, none⟩
        (count q.ref .dropped (push [.abandonQueued rest (dropped + 1)] s))
  | [] => push [.abandonInFlight (s.inFlight.map InFlight.ref) dropped 0] s

def abandonInFlight (o : Options) (pending : List Ref) (dropped unknown : Nat) (s : State R) :
    State R :=
  match pending with
  | ref :: rest =>
      let found := (s.liveItem? ref).isSome
      fail o ref .unknown .shutdown true none
        (push [.abandonInFlight rest dropped (if found then unknown + 1 else unknown)] s)
  | [] => if 0 < dropped ∨ 0 < unknown then push [.user .logger] s else s

/-- Run the next piece of the pipeline's own synchronous code. -/
def exec (o : Options) (s : State R) : Op R → Option (State R)
  | .user _ => none
  | .submit record => some (submit o record s)
  | .reportInvalid record =>
      some (notifyFailure o none ⟨record, .dropped, .invalid, false, none⟩ s)
  | .queueFull ref record =>
      some (notifyFailure o (some ref) ⟨record, .dropped, .queueFull, true, none⟩
        (push [.returned ref .droppedQueueFull] s))
  | .returned ref outcome => some { s with returned := s.returned ++ [(ref, outcome)] }
  | .endNotify => some { s with notifying := false }
  | .fail ref disposition reason retryable detail =>
      some (fail o ref disposition reason retryable detail s)
  | .markSent ref => some (markSent ref s)
  | .notifyDelivered batch => some (notifyDelivered o batch s)
  | .conclude pending batch unresolved => some (conclude o pending batch unresolved s)
  | .idleCheck drain => some (idleCheck drain s)
  | .assignStopping stop => some { s with stopping := some stop }
  | .assignShutdown stop => some { s with shutdown := some stop }
  | .abandonOutstanding => some (abandonOutstanding s)
  | .abandonQueued queued dropped => some (abandonQueued o queued dropped s)
  | .abandonInFlight pending dropped unknown => some (abandonInFlight o pending dropped unknown s)

end State

/-- What `Client.record` finds out about a record before it submits. -/
inductive Verdict where
  | valid
  | invalid
  | notPlainData
  deriving DecidableEq, Repr

/-- How user code hands control back. -/
inductive Exit where
  | returns
  | returnsPromise
  | throws
  deriving DecidableEq, Repr

/-- One thing that can happen next: the pipeline's own code goes on (`next`); running
user code calls the client or leaves; or the event loop, with nothing left to run,
starts a task, fires the linger timer or resumes a suspended call. -/
inductive Act (R : Type) where
  | next
  | record (record : R) (verdict : Verdict)
  | flush
  | shutdown
  | leave (exit : Exit)
  | task
  | lingerFires
  | sinkSettles (settlement : Settlement)
  | runResumes
  | drainSettles (drain : Nat) (idle : Bool)
  | stopResumes (stop : Nat) (warns : Bool)
  | stopWaitSettles (wait : Nat) (stopped : Bool)
  | callbackSettles (threw : Bool)
  deriving DecidableEq, Repr

namespace State
variable (o : Options)

/-- A call of `Client.record` from user code. -/
def record (record : R) (verdict : Verdict) (s : State R) : State R :=
  if s.shutdown.isSome then s
  else
    match verdict with
    | .valid => push [.user .recording, .submit record] s
    | .invalid => push [.user .recording, .reportInvalid record] s
    | .notPlainData => push [.user .recording] s

/-- User code hands control back to the code that called it. -/
def leave (site : Site) (exit : Exit) (s : State R) : Option (State R) :=
  match site, exit with
  | .deliver, .throws =>
      match s.run with
      | .calling batch =>
          some (push [.conclude batch batch 0] { s with run := .concluding, answered := s.answered + 1 })
      | _ => none
  | .deliver, _ =>
      match s.run with
      | .calling batch => some { s with run := .awaiting batch }
      | _ => none
  | .onFailure, .throws => some (push [.user .logger] s)
  | .onDelivered, .throws => some (push [.user .logger] s)
  | .onFailure, .returnsPromise => some { s with callbacks := s.callbacks + 1 }
  | .onDelivered, .returnsPromise => some { s with callbacks := s.callbacks + 1 }
  | _, _ => some s

def userStep (site : Site) (s : State R) : Act R → Option (State R)
  | .record r verdict => some (State.record r verdict (push [.user site] s))
  | .flush => some (flush o (push [.user site] s))
  | .shutdown => some (beginShutdown o (push [.user site] s))
  | .leave exit => leave site exit s
  | _ => none

/-- `#stop` at its next `await`. The first abort of the signal runs its listeners. -/
def resumeStop (stop : Nat) (warns : Bool) (s : State R) : Option (State R) :=
  match s.stops[stop]? with
  | some (.draining drain) =>
      if (s.drains[drain]?.map Drain.settled).getD false then
        some (push (if s.aborted then [.abandonOutstanding] else [.user .abortListener, .abandonOutstanding])
          { s with
            lingerTimer := if s.lingerTimer = .armed then .cleared else s.lingerTimer
            aborted := true
            stops := s.stops.set stop .settlingCallbacks })
      else none
  | some .settlingCallbacks =>
      let log := if warns then [Op.user .logger] else []
      if o.ownsSink then
        some (push (log ++ [.user .sinkClose]) { s with stops := s.stops.set stop .closing })
      else some (push log { s with stops := s.stops.set stop .stopped })
  | some .closing =>
      let log := if warns then [Op.user .logger] else []
      some (push log { s with stops := s.stops.set stop .stopped })
  | _ => none

def settleDrain (drain : Nat) (idle : Bool) (s : State R) : Option (State R) :=
  match s.drains[drain]? with
  | some d =>
      if d.settled || (idle && !d.idle) then none
      else
        some { s with
          drainers := s.drainers - 1
          drains := s.drains.set drain { d with settled := true }
          flushed := if d.forFlush then s.flushed ++ [(d.submittedBefore, idle)] else s.flushed }
  | none => none

def settleStopWait (wait : Nat) (stopped : Bool) (s : State R) : Option (State R) :=
  match s.stopWaits[wait]? with
  | some w =>
      if w.settled || (stopped && decide (s.stops[w.stop]? ≠ some .stopped)) then none
      else
        some { s with
          stopWaits := s.stopWaits.set wait { w with settled := true }
          flushed := s.flushed ++ [(w.submittedBefore, stopped)] }
  | none => none

variable [AudrRecord R]

def loopStep (s : State R) : Act R → Option (State R)
  | .task => some (push [.user .host] s)
  | .lingerFires =>
      if s.lingerTimer = .armed then some (startRun o { s with lingerTimer := .unset }) else none
  | .sinkSettles settlement =>
      match s.run with
      | .awaiting batch => some (answer batch settlement s)
      | _ => none
  | .runResumes => if s.run = .delivered then some (resumeRun o s) else none
  | .drainSettles drain idle => settleDrain drain idle s
  | .stopResumes stop warns => resumeStop o stop warns s
  | .stopWaitSettles wait stopped => settleStopWait wait stopped s
  | .callbackSettles threw =>
      if 0 < s.callbacks then
        some (push (if threw then [.user .logger] else []) { s with callbacks := s.callbacks - 1 })
      else none
  | _ => none

end State

/-- One step of the machine. -/
def step [AudrRecord R] (o : Options) (s : State R) (act : Act R) : Option (State R) :=
  match s.todo with
  | [] => State.loopStep o s act
  | .user site :: rest => State.userStep o site { s with todo := rest } act
  | op :: rest => if act matches .next then State.exec o { s with todo := rest } op else none

end Audr.Pipeline
