import Audr.Records

/-! The Python delivery pipeline as one machine. Coroutines give up control only where
they wait, so the loop is free when the stack of synchronous operations is empty; the
label of the next step then chooses which waiting task goes on, and how its wait ended.
Callbacks run in the middle of the pipeline's own code and may call back into it. -/

namespace Audr.PyPipeline

inductive FailureReason where
  | queueFull
  | notRunning
  | shutdown
  | rejected
  | sinkFailure
  | sinkClosed
  | inconclusive
  deriving DecidableEq, Repr

structure FailedRecord (R : Type) where
  record : R
  disposition : Disposition
  reason : FailureReason
  retryable : Bool
  detail : Option String
  deriving DecidableEq, Repr

/-- The outcomes `Pipeline.submit` returns. -/
inductive SubmitOutcome where
  | queued
  | droppedQueueFull
  | droppedNotRunning
  deriving DecidableEq, Repr

/-- How `await self._sink.deliver(records)` ends. A `malformed` value is any answer whose
reading raises: after `reads` items have been applied by its lists, or before the first
when `reads` is zero. The last two are raised past `except Exception`. -/
inductive SinkAnswer where
  | result (result : BatchResult)
  | malformed (rejected : List (String × Option String)) (unknown : List String) (reads : Nat)
  | exception
  | cancelled
  | escape
  deriving DecidableEq, Repr

/-- Where user code may be running. -/
inductive Site where
  | host
  | onFailure
  | onDelivered
  deriving DecidableEq, Repr

/-- Synchronous code still to run, in the order it will run. `raising` says whether an
exception is waiting for a `finally` block to end. -/
inductive Op (R : Type) where
  | user (site : Site)
  | returned (ref : Ref) (outcome : SubmitOutcome)
  | fail (ref : Ref) (disposition : Disposition) (reason : FailureReason) (retryable : Bool)
      (detail : Option String)
  | markSent (ref : Ref)
  | notifyDelivered (batch : List Ref)
  | tryEnds (batch : List Ref) (raising : Bool)
  | conclude (pending batch : List Ref) (raising : Bool)
  | releaseInFlight (ref : Ref)
  | abandonQueue
  | abandonItems (pending : List Ref)
  | shutdown (raising : Bool)
  | closeSink (raising : Bool)
  deriving DecidableEq, Repr

/-- Where an exception that no `except` clause of the pipeline catches can come to rest:
in the user code that made the outermost call, or in a `finally` block. -/
def Op.catches {R : Type} : Op R → Bool
  | .user _ => true
  | .tryEnds _ _ => true
  | .conclude _ _ _ => true
  | .shutdown _ => true
  | .closeSink _ => true
  | _ => false

/-- Where the task of `_worker` stands. While it lingers the helper task that runs
`queue.get()` may have taken a record; `reclaiming` is the `finally` block that waits for
the helper tasks, with the record that is about to be returned. -/
inductive WorkerAt (R : Type) where
  | absent
  | getting
  | lingering (batch : List Ref) (popped : Option (Queued R))
  | reclaiming (batch : List Ref) (popped : Option (Queued R))
  | delivering (batch : List Ref)
  | concluding (batch : List Ref)
  | ended
  deriving DecidableEq, Repr

/-- One call of `flush` that drains; `joined` once its `queue.join()` may return. -/
structure Flush where
  submittedBefore : Nat
  joined : Bool
  settled : Bool
  deriving DecidableEq, Repr

/-- The one call of `stop` that does anything, by what it waits for. An `interrupted`
one was cancelled while it waited for the worker. -/
inductive StopAt where
  | notCalled
  | draining (joined : Bool)
  | cancelling (raising : Bool)
  | interrupted
  | closing (raising : Bool)
  | ended (raising : Bool)
  deriving DecidableEq, Repr

/-- `_MAX_BATCH_MAX_SIZE` of the client. -/
def maxBatchMaxSize : Nat := 500

/-- The options the client's constructor accepts. The linger window is a choice of the
steps: a label says whether it is over. -/
structure Options where
  maxQueueSize : Nat
  batchMaxSize : Nat
  ownsSink : Bool
  onFailure : Bool
  onDelivered : Bool
  queue_pos : 1 ≤ maxQueueSize
  batch_pos : 1 ≤ batchMaxSize
  batch_le : batchMaxSize ≤ maxBatchMaxSize

/-- The checks of the client's constructor on its two sizes. -/
def Options.create (maxQueueSize batchMaxSize : Nat) (ownsSink onFailure onDelivered : Bool) :
    Except String Options :=
  if queue : 1 ≤ maxQueueSize then
    if batch : 1 ≤ batchMaxSize ∧ batchMaxSize ≤ maxBatchMaxSize then
      .ok ⟨maxQueueSize, batchMaxSize, ownsSink, onFailure, onDelivered, queue, batch.1, batch.2⟩
    else .error "batch_max_size must be between 1 and 500"
  else .error "max_queue_size must be >= 1"

/-- The fields of `Pipeline`, its suspended coroutines, the stack, and a history: how each
record ended, which were queued, what the sink was handed and how many of those calls
are over, what callbacks and callers were told, and which records a cancelled worker
left behind, in the set of records in flight or outside of it. -/
structure State (R : Type) where
  queue : List (Queued R)
  unfinished : Nat
  inFlight : List (InFlight R)
  running : Bool
  draining : Bool
  stopped : Bool
  submitted : Nat
  sent : Nat
  dropped : Nat
  unknown : Nat
  batches : Nat
  worker : WorkerAt R
  cancelRequested : Bool
  flushes : List Flush
  stop : StopAt
  todo : List (Op R)
  settled : List (Ref × Terminal)
  accepted : List Ref
  handed : List (List Ref)
  answered : Nat
  reported : List (Ref × FailedRecord R)
  returned : List (Ref × SubmitOutcome)
  flushed : List (Nat × Bool)
  orphaned : List Ref
  lost : List Ref
  deriving DecidableEq, Repr

/-- A pipeline just constructed. -/
def initial (R : Type) : State R where
  queue := []
  unfinished := 0
  inFlight := []
  running := false
  draining := false
  stopped := false
  submitted := 0
  sent := 0
  dropped := 0
  unknown := 0
  batches := 0
  worker := .absent
  cancelRequested := false
  flushes := []
  stop := .notCalled
  todo := []
  settled := []
  accepted := []
  handed := []
  answered := 0
  reported := []
  returned := []
  flushed := []
  orphaned := []
  lost := []

variable {R : Type}

/-- `queue.join()` under `stop` may return. -/
def StopAt.join : StopAt → StopAt
  | .draining _ => .draining true
  | at_ => at_

namespace State

/-- `_current_depth`. -/
def currentDepth (s : State R) : Nat := s.queue.length + s.inFlight.length

/-- Leave code to run before everything on the stack. -/
def push (ops : List (Op R)) (s : State R) : State R := { s with todo := ops ++ s.todo }

/-- `queue.task_done()`; the last one outstanding wakes every `queue.join()`. -/
def taskDone (s : State R) : State R :=
  if s.unfinished = 1 then
    { s with
      unfinished := 0
      flushes := s.flushes.map fun flush => { flush with joined := true }
      stop := s.stop.join }
  else { s with unfinished := s.unfinished - 1 }

def tasksDone : List Ref → State R → State R
  | [], s => s
  | _ :: rest, s => tasksDone rest (taskDone s)

/-- `_begin_in_flight`. -/
def beginInFlight (q : Queued R) (s : State R) : State R :=
  { s with inFlight := s.inFlight ++ [⟨q.ref, q.record, none⟩] }

/-- `_release_in_flight`. -/
def releaseInFlight (ref : Ref) (s : State R) : State R :=
  { s with inFlight := s.inFlight.filter fun item => item.ref ≠ ref }

/-- `_deliver` up to its wait for the sink. -/
def deliver (batch : List Ref) (s : State R) : State R :=
  { s with worker := .delivering batch, handed := s.handed ++ [batch] }

/-- `_collect_batch` takes up to `room` records without waiting while draining. -/
def drainQueue (batch : List Ref) (room : Nat) (queue : List (Queued R)) (s : State R) : State R :=
  match room, queue with
  | room + 1, q :: rest =>
      drainQueue (batch ++ [q.ref]) room rest (beginInFlight q { s with queue := rest })
  | _, _ => deliver batch s

/-- `_collect_batch` from the head of its loop to its next wait or its end; `expired`
says whether the linger window is over. -/
def collect (o : Options) (batch : List Ref) (expired : Bool) (s : State R) : State R :=
  if o.batchMaxSize ≤ batch.length then deliver batch s
  else if s.draining then drainQueue batch (o.batchMaxSize - batch.length) s.queue s
  else if expired then deliver batch s
  else { s with worker := .lingering batch none }

def notifyFailure (o : Options) (ref : Ref) (failure : FailedRecord R) (s : State R) : State R :=
  if o.onFailure then
    { s with reported := s.reported ++ [(ref, failure)], todo := .user .onFailure :: s.todo }
  else s

/-- Count one record in its terminal state. -/
def count (ref : Ref) (terminal : Terminal) (s : State R) : State R :=
  { s with
    sent := if terminal = .sent then s.sent + 1 else s.sent
    dropped := if terminal = .dropped then s.dropped + 1 else s.dropped
    unknown := if terminal = .unknown then s.unknown + 1 else s.unknown
    settled := s.settled ++ [(ref, terminal)] }

/-- Set the state of one in-flight item and count it. -/
def settleItem (ref : Ref) (terminal : Terminal) (s : State R) : State R :=
  count ref terminal { s with inFlight := marked ref terminal s.inFlight }

/-- The item a reference names, if `_finalize` would still change its state. -/
def liveItem? (s : State R) (ref : Ref) : Option (InFlight R) :=
  findLive s.inFlight ref

def markSent (ref : Ref) (s : State R) : State R :=
  if (s.liveItem? ref).isSome then settleItem ref .sent s else s

/-- `_drop` and `_mark_unknown`. -/
def fail (o : Options) (ref : Ref) (disposition : Disposition) (reason : FailureReason)
    (retryable : Bool) (detail : Option String) (s : State R) : State R :=
  match s.liveItem? ref with
  | none => s
  | some item =>
      notifyFailure o ref ⟨item.record, disposition, reason, retryable, detail⟩
        (settleItem ref disposition.terminal s)

def submit (o : Options) (record : R) (s : State R) : State R :=
  let ref := s.submitted
  let s := { s with submitted := s.submitted + 1 }
  if !s.running then
    notifyFailure o ref ⟨record, .dropped, .notRunning, true, none⟩
      (push [.returned ref .droppedNotRunning] (count ref .dropped s))
  else if o.maxQueueSize ≤ s.currentDepth then
    notifyFailure o ref ⟨record, .dropped, .queueFull, true, none⟩
      (push [.returned ref .droppedQueueFull] (count ref .dropped s))
  else
    { s with
      queue := s.queue ++ [⟨ref, record⟩]
      unfinished := s.unfinished + 1
      accepted := s.accepted ++ [ref]
      returned := s.returned ++ [(ref, .queued)] }

def start (s : State R) : State R :=
  if s.running || s.stopped then s
  else { s with running := true, draining := false, worker := .getting }

/-- `flush` up to its wait: `queue.join()` waits only while tasks are unfinished. -/
def flush (s : State R) : State R :=
  if !s.running then { s with flushed := s.flushed ++ [(s.submitted, true)] }
  else
    { s with
      draining := true
      flushes := s.flushes ++ [⟨s.submitted, s.unfinished = 0, false⟩] }

def beginStop (s : State R) : State R :=
  if s.stopped then s
  else
    { s with
      running := false
      stopped := true
      draining := true
      stop := .draining (s.unfinished = 0) }

section Apply
variable [AudrRecord R]

/-- The loop of `_apply_accepted_result`, as the calls it makes on each item. -/
def applyAccepted (batch : List (InFlight R)) (rejected : List (String × Option String))
    (unknown : List String) : List (Op R) :=
  batch.map fun item =>
    let id := AudrRecord.recordId item.record
    -- a `dict` built from the rejections keeps the last one of a repeated id
    match (rejected.reverse.find? fun entry => entry.1 = id) with
    | some entry => .fail item.ref .dropped .rejected false entry.2
    | none =>
        if id ∈ unknown then .fail item.ref .unknown .inconclusive true none
        else .markSent item.ref

/-- What the `match` of `_deliver` does with a well-formed result. -/
def applyResult (batch : List (InFlight R)) : BatchResult → List (Op R)
  | .accepted rejected unknown =>
      applyAccepted batch rejected unknown ++ [.notifyDelivered (batch.map InFlight.ref)]
  | .failed retryable _ =>
      batch.map fun item => .fail item.ref .dropped .sinkFailure retryable none
  | .closed => batch.map fun item => .fail item.ref .dropped .sinkClosed true none

def markAllUnknown (batch : List (InFlight R)) : List (Op R) :=
  batch.map fun item => .fail item.ref .unknown .inconclusive true none

/-- The rest of the `try` part of `_deliver`, and whether it ends by raising. -/
def applyAnswer (batch : List (InFlight R)) : SinkAnswer → List (Op R) × Bool
  | .result result => (applyResult batch result, false)
  | .malformed rejected unknown reads => (applyAccepted (batch.take reads) rejected unknown, true)
  | .exception => (markAllUnknown batch, false)
  | .cancelled => (markAllUnknown batch, true)
  | .escape => ([], true)

/-- Whether the sink returned a value, which is counted before it is read. -/
def SinkAnswer.returns : SinkAnswer → Bool
  | .result _ => true
  | .malformed _ _ _ => true
  | _ => false

/-- `_deliver` once the sink has answered. -/
def answer (batch : List Ref) (answer : SinkAnswer) (s : State R) : State R :=
  let items := s.inFlight.filter fun item => item.ref ∈ batch
  let (ops, raising) := applyAnswer items answer
  push (ops ++ [.tryEnds batch raising])
    { s with
      worker := .concluding batch
      cancelRequested := false
      answered := s.answered + 1
      batches := if SinkAnswer.returns answer then s.batches + 1 else s.batches }

end Apply

def notifyDelivered (o : Options) (batch : List Ref) (s : State R) : State R :=
  if o.onDelivered &&
      s.inFlight.any (fun item => item.ref ∈ batch && item.state = some .sent) then
    push [.user .onDelivered] s
  else s

/-- The `finally` block of `_worker`, and the next turn of its loop or its end. -/
def finish (batch : List Ref) (raising : Bool) (s : State R) : State R :=
  { tasksDone batch s with worker := if raising then .ended else .getting }

/-- One turn of the `finally` block of `_deliver`. -/
def conclude (o : Options) (pending batch : List Ref) (raising : Bool) (s : State R) : State R :=
  match pending with
  | ref :: rest =>
      fail o ref .unknown .inconclusive true none
        (push [.releaseInFlight ref, .conclude rest batch raising] s)
  | [] => finish batch raising s

/-- One turn of the first loop of `_abandon_outstanding`. -/
def abandonQueue (o : Options) (s : State R) : State R :=
  match s.queue with
  | q :: rest =>
      notifyFailure o q.ref ⟨q.record, .dropped, .shutdown, true, none⟩
        (count q.ref .dropped (push [.abandonQueue] (taskDone { s with queue := rest })))
  | [] => push [.abandonItems (s.inFlight.map InFlight.ref)] s

/-- One turn of the second. -/
def abandonItems (o : Options) (pending : List Ref) (s : State R) : State R :=
  match pending with
  | ref :: rest => fail o ref .unknown .shutdown true none (push [.abandonItems rest] s)
  | [] => s

/-- The start of `_shutdown`: cancel the worker, or go on if none was started. -/
def shutdown (raising : Bool) (s : State R) : State R :=
  if s.worker matches .absent then push [.abandonQueue, .closeSink raising] s
  else { s with cancelRequested := true, stop := .cancelling raising }

def closeSink (o : Options) (raising : Bool) (s : State R) : State R :=
  { s with stop := if o.ownsSink then .closing raising else .ended raising }

/-- Run the next piece of the pipeline's own synchronous code. -/
def exec (o : Options) (s : State R) : Op R → Option (State R)
  | .user _ => none
  | .returned ref outcome => some { s with returned := s.returned ++ [(ref, outcome)] }
  | .fail ref disposition reason retryable detail =>
      some (fail o ref disposition reason retryable detail s)
  | .markSent ref => some (markSent ref s)
  | .notifyDelivered batch => some (notifyDelivered o batch s)
  | .tryEnds batch raising => some (push [.conclude batch batch raising] s)
  | .conclude pending batch raising => some (conclude o pending batch raising s)
  | .releaseInFlight ref => some (releaseInFlight ref s)
  | .abandonQueue => some (abandonQueue o s)
  | .abandonItems pending => some (abandonItems o pending s)
  | .shutdown raising => some (shutdown raising s)
  | .closeSink raising => some (closeSink o raising s)

/-- Such an exception, raised by the code above `ops`, ends every call up to there. -/
def unwind (ops : List (Op R)) (s : State R) : State R :=
  match ops.dropWhile fun op => !op.catches with
  | .tryEnds batch _ :: rest => { s with todo := .conclude batch batch true :: rest }
  | .conclude _ batch _ :: rest => finish batch true { s with todo := rest }
  | .shutdown _ :: rest => { s with todo := .shutdown true :: rest }
  | .closeSink _ :: rest => { s with stop := .ended true, todo := rest }
  | rest => { s with todo := rest }

end State

/-- How user code hands control back; `escapes` is an exception outside `Exception`. -/
inductive Exit where
  | returns
  | raises
  | escapes
  deriving DecidableEq, Repr

/-- One thing that can happen next: the pipeline's own code goes on (`next`); running
user code calls the pipeline or leaves; or the event loop, with nothing left to run,
starts a task or goes on with one that waits. -/
inductive Act (R : Type) where
  | next
  | submit (record : R)
  | flush
  | stop
  | start
  | leave (exit : Exit)
  | task
  | workerGets (expired : Bool)
  | getTaskPops
  | lingerReturns
  | reclaimed (expired : Bool)
  | workerCancelled
  | sinkAnswers (answer : SinkAnswer)
  | flushSettles (flush : Nat) (result : Option Bool)
  | stopDrains (timedOut : Bool)
  | stopCancelled
  | workerGathered
  | closeSettles (escapes : Bool)
  deriving DecidableEq, Repr

namespace State
variable (o : Options)

/-- User code hands control back to the code that called it. -/
def leave (exit : Exit) (s : State R) : State R :=
  if exit = .escapes then unwind s.todo s else s

def userStep (site : Site) (s : State R) : Act R → Option (State R)
  | .submit record => some (submit o record (push [.user site] s))
  | .flush => some (flush (push [.user site] s))
  | .stop => some (beginStop (push [.user site] s))
  | .start => some (start (push [.user site] s))
  | .leave exit => some (leave exit s)
  | _ => none

/-- `queue.get()` of the worker returns, unless a cancellation is delivered first. -/
def workerGets (expired : Bool) (s : State R) : Option (State R) :=
  match s.worker, s.queue with
  | .getting, q :: rest =>
      if s.cancelRequested then none
      else some (collect o [q.ref] expired (beginInFlight q { s with queue := rest }))
  | _, _ => none

/-- The helper task takes a record off the queue. -/
def getTaskPops (s : State R) : Option (State R) :=
  match s.worker, s.queue with
  | .lingering batch none, q :: rest =>
      some { s with worker := .lingering batch (some q), queue := rest }
  | _, _ => none

/-- `asyncio.wait` returns or is cancelled. A helper task that is not done by then is
cancelled and takes nothing any more. -/
def lingerReturns (s : State R) : Option (State R) :=
  match s.worker with
  | .lingering batch popped => some { s with worker := .reclaiming batch popped }
  | _ => none

/-- The helper tasks are gone and `_next_within_linger` returns. -/
def reclaimed (expired : Bool) (s : State R) : Option (State R) :=
  match s.worker with
  | .reclaiming batch popped =>
      if s.cancelRequested then none
      else
        match popped with
        | some q => some (collect o (batch ++ [q.ref]) expired (beginInFlight q s))
        | none => some (deliver batch s)
  | _ => none

/-- A cancellation ends the worker outside `_deliver`. What the helper task had taken is
its result, which nothing reads any more. -/
def workerCancelled (s : State R) : Option (State R) :=
  if s.cancelRequested then
    match s.worker with
    | .getting => some { s with worker := .ended }
    | .reclaiming batch popped =>
        some { s with
          worker := .ended
          orphaned := s.orphaned ++ batch
          lost := s.lost ++ (popped.map Queued.ref).toList }
    | _ => none
  else none

/-- A flush is over: by its `queue.join()`, by its timeout or by a cancellation. -/
def settleFlush (flush : Nat) (result : Option Bool) (s : State R) : Option (State R) :=
  match s.flushes[flush]? with
  | some f =>
      if f.settled || (result = some true && !f.joined) then none
      else
        some { s with
          draining := if s.stopped then s.draining else false
          flushes := s.flushes.set flush { f with settled := true }
          flushed := s.flushed ++ (result.map fun told => (f.submittedBefore, told)).toList }
  | none => none

/-- `_drain` of `stop` is over, by its `queue.join()` or by its timeout. -/
def stopDrains (timedOut : Bool) (s : State R) : Option (State R) :=
  match s.stop with
  | .draining joined =>
      if timedOut then some (push [.abandonQueue, .shutdown false] s)
      else if joined then some (push [.shutdown false] s)
      else none
  | _ => none

/-- The task that runs `stop` is cancelled. A `gather` that is cancelled cancels its
task again and still waits for it. -/
def stopCancelled (s : State R) : Option (State R) :=
  match s.stop with
  | .draining _ => some (push [.shutdown true] s)
  | .cancelling _ => some { s with cancelRequested := true, stop := .interrupted }
  | .closing _ => some { s with stop := .ended true }
  | _ => none

def workerGathered (s : State R) : Option (State R) :=
  match s.worker, s.stop with
  | .ended, .cancelling raising => some (push [.abandonQueue, .closeSink raising] s)
  | .ended, .interrupted => some { s with stop := .ended true }
  | _, _ => none

def closeSettles (escapes : Bool) (s : State R) : Option (State R) :=
  match s.stop with
  | .closing raising => some { s with stop := .ended (raising || escapes) }
  | _ => none

variable [AudrRecord R]

def sinkAnswers (settled : SinkAnswer) (s : State R) : Option (State R) :=
  match s.worker with
  | .delivering batch => some (answer batch settled s)
  | _ => none

def loopStep (s : State R) : Act R → Option (State R)
  | .task => some (push [.user .host] s)
  | .workerGets expired => workerGets o expired s
  | .getTaskPops => getTaskPops s
  | .lingerReturns => lingerReturns s
  | .reclaimed expired => reclaimed o expired s
  | .workerCancelled => workerCancelled s
  | .sinkAnswers settled => sinkAnswers settled s
  | .flushSettles flush result => settleFlush flush result s
  | .stopDrains timedOut => stopDrains timedOut s
  | .stopCancelled => stopCancelled s
  | .workerGathered => workerGathered s
  | .closeSettles escapes => closeSettles escapes s
  | _ => none

end State

/-- One step of the machine. -/
def step [AudrRecord R] (o : Options) (s : State R) (act : Act R) : Option (State R) :=
  match s.todo with
  | [] => State.loopStep o s act
  | .user site :: rest => State.userStep o site { s with todo := rest } act
  | op :: rest => if act matches .next then State.exec o { s with todo := rest } op else none

end Audr.PyPipeline
