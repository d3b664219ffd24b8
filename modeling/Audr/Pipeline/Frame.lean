import Audr.Pipeline.Moves

/-! What the functions of the pipeline leave alone. The delivery loop never touches what
the entry points and a shutdown keep: which stops and flushes are under way, what they
resolved to, whether the signal is aborted. The accounting for single records also
leaves the queue, the timer and the drains alone. -/

namespace Audr.Pipeline

variable {R : Type}

/-- The part of the state that only entry points and shutdowns change. -/
structure Outer where
  stopped : Bool
  stopping : Option Nat
  shutdown : Option Nat
  aborted : Bool
  stops : List StopAt
  stopWaits : List StopWait
  drainers : Nat
  flushed : List (Nat × Bool)

/-- The part of the state that counting records leaves alone. -/
structure Frame (R : Type) extends Outer where
  queue : List (Queued R)
  delivering : Bool
  lingerTimer : Timer
  drains : List Drain

namespace State

variable {s t : State R} {o : Options}

def outer (s : State R) : Outer :=
  ⟨s.stopped, s.stopping, s.shutdown, s.aborted, s.stops, s.stopWaits, s.drainers, s.flushed⟩

def frame (s : State R) : Frame R := ⟨s.outer, s.queue, s.delivering, s.lingerTimer, s.drains⟩

/-- What `#schedule` does, in each of its three branches. -/
theorem schedule_cases (o : Options) (s : State R) :
    (schedule o s = s ∧ (s.delivering = true ∨ s.queue = [])) ∨
    (s.delivering = false ∧ s.queue ≠ [] ∧ batchDue o s = true ∧
      schedule o s = deliver o { s with delivering := true, lingerTimer := .unset }) ∨
    (s.delivering = false ∧ s.queue ≠ [] ∧ batchDue o s = false ∧
      schedule o s = { s with
        lingerTimer := if s.lingerTimer = .unset then .armed else s.lingerTimer }) := by
  by_cases busy : (s.delivering || s.queue.isEmpty) = true
  · left
    refine ⟨by simp only [schedule, if_pos busy], ?_⟩
    simpa using busy
  · obtain ⟨free, full⟩ : s.delivering = false ∧ s.queue ≠ [] := by simpa using busy
    right
    cases due : batchDue o s with
    | true =>
      left
      refine ⟨free, full, rfl, ?_⟩
      simp [schedule, startRun, free, full, due]
    | false =>
      right
      exact ⟨free, full, rfl, by simp [schedule, free, full, due]⟩

theorem startRun_cases (o : Options) (s : State R) :
    (startRun o s = s ∧ s.delivering = true) ∨
    (s.delivering = false ∧ s.queue = [] ∧ startRun o s = wakeIdle { s with lingerTimer := .unset }) ∨
    (s.delivering = false ∧ s.queue ≠ [] ∧
      startRun o s = deliver o { s with delivering := true, lingerTimer := .unset }) := by
  cases busy : s.delivering with
  | true => exact .inl ⟨by simp [startRun, busy], rfl⟩
  | false =>
    right
    by_cases empty : s.queue = []
    · exact .inl ⟨rfl, empty, by simp [startRun, busy, empty]⟩
    · exact .inr ⟨rfl, empty, by simp [startRun, busy, empty]⟩

theorem resumeRun_cases (o : Options) (s : State R) :
    (s.queue ≠ [] ∧ batchDue o s = true ∧ resumeRun o s = deliver o s) ∨
    (s.queue = [] ∧ resumeRun o s = wakeIdle { s with delivering := false, run := .idle }) ∨
    (s.queue ≠ [] ∧ resumeRun o s = schedule o { s with delivering := false, run := .idle }) := by
  by_cases empty : s.queue = []
  · exact .inr (.inl ⟨empty, by simp [resumeRun, empty]⟩)
  · cases due : batchDue o s with
    | true => exact .inl ⟨empty, rfl, by simp [resumeRun, empty, due]⟩
    | false => exact .inr (.inr ⟨empty, by simp [resumeRun, empty, due]⟩)

theorem outer_schedule (o : Options) (s : State R) : (schedule o s).outer = s.outer := by
  rcases schedule_cases o s with ⟨same, _⟩ | ⟨_, _, _, started⟩ | ⟨_, _, _, armed⟩
  · rw [same]
  · rw [started]
    rfl
  · rw [armed]
    rfl

theorem outer_startRun (o : Options) (s : State R) : (startRun o s).outer = s.outer := by
  rcases startRun_cases o s with ⟨same, _⟩ | ⟨_, _, woken⟩ | ⟨_, _, started⟩
  · rw [same]
  · rw [woken]
    rfl
  · rw [started]
    rfl

theorem outer_resumeRun (o : Options) (s : State R) : (resumeRun o s).outer = s.outer := by
  rcases resumeRun_cases o s with ⟨_, _, next⟩ | ⟨_, woken⟩ | ⟨_, rescheduled⟩
  · rw [next]
    rfl
  · rw [woken]
    rfl
  · rw [rescheduled]
    exact outer_schedule o _

theorem frame_notifyFailure (o : Options) (ref : Option Ref) (failure : FailedRecord R) (s : State R) :
    (notifyFailure o ref failure s).frame = s.frame := by
  unfold notifyFailure
  split_ifs <;> rfl

theorem frame_markSent (ref : Ref) (s : State R) : (markSent ref s).frame = s.frame := by
  unfold markSent
  split_ifs <;> rfl

theorem frame_fail (o : Options) (ref : Ref) (disposition : Disposition) (reason : FailureReason)
    (retryable : Bool) (detail : Option String) (s : State R) :
    (fail o ref disposition reason retryable detail s).frame = s.frame := by
  unfold fail
  split
  · rfl
  · exact frame_notifyFailure o _ _ _

theorem frame_notifyDelivered (o : Options) (batch : List Ref) (s : State R) :
    (notifyDelivered o batch s).frame = s.frame := by
  unfold notifyDelivered
  split_ifs <;> rfl

theorem frame_conclude (o : Options) (pending batch : List Ref) (unresolved : Nat) (s : State R) :
    (conclude o pending batch unresolved s).frame = s.frame := by
  cases pending with
  | nil => rfl
  | cons ref rest => exact frame_fail o _ _ _ _ _ _

theorem frame_abandonQueued (o : Options) (queued : List (Queued R)) (dropped : Nat) (s : State R) :
    (abandonQueued o queued dropped s).frame = s.frame := by
  cases queued with
  | nil => rfl
  | cons q rest => exact frame_notifyFailure o _ _ _

theorem frame_abandonInFlight (o : Options) (pending : List Ref) (dropped unknown : Nat) (s : State R) :
    (abandonInFlight o pending dropped unknown s).frame = s.frame := by
  cases pending with
  | nil =>
    simp only [abandonInFlight]
    split_ifs <;> rfl
  | cons ref rest => exact frame_fail o _ _ _ _ _ _

theorem frame_record (record : R) (verdict : Verdict) (s : State R) :
    (State.record record verdict s).frame = s.frame := by
  unfold State.record
  split_ifs
  · rfl
  · cases verdict <;> rfl

theorem frame_answer [AudrRecord R] (batch : List Ref) (settlement : Settlement) (s : State R) :
    (answer batch settlement s).frame = s.frame := by
  unfold answer
  simp only
  split
  · split_ifs <;> rfl
  · rfl

/-- The state `submit` hands to `#schedule`. -/
def enqueue (record : R) (s : State R) : State R :=
  { s with
    submitted := s.submitted + 1
    queue := s.queue ++ [⟨s.submitted, record⟩]
    accepted := s.accepted ++ [s.submitted]
    todo := .returned s.submitted .queued :: s.todo }

theorem submit_cases (o : Options) (record : R) (s : State R) :
    (o.maxQueueSize ≤ s.depth ∧ submit o record s = push [.user .logger, .queueFull s.submitted record]
      (count s.submitted .dropped { s with submitted := s.submitted + 1 })) ∨
    (s.depth < o.maxQueueSize ∧ submit o record s = schedule o (enqueue record s)) := by
  by_cases full : o.maxQueueSize ≤ s.depth
  · exact .inl ⟨full, if_pos full⟩
  · exact .inr ⟨Nat.lt_of_not_le full, if_neg full⟩

/-- The state `#drain` hands to `#schedule`. -/
def awaitIdle (forFlush : Bool) (s : State R) : State R :=
  { s with
    drainers := s.drainers + 1
    drains := s.drains ++ [⟨forFlush, s.submitted, false, false⟩]
    todo := .idleCheck s.drains.length :: s.todo }

theorem drain_eq (o : Options) (forFlush : Bool) (s : State R) :
    drain o forFlush s = schedule o (awaitIdle forFlush s) := rfl

theorem outer_submit (o : Options) (record : R) (s : State R) : (submit o record s).outer = s.outer := by
  rcases submit_cases o record s with ⟨_, same⟩ | ⟨_, same⟩ <;> rw [same]
  · rfl
  · exact outer_schedule o _

theorem outer_drain (o : Options) (forFlush : Bool) (s : State R) :
    (drain o forFlush s).outer = { s.outer with drainers := s.drainers + 1 } :=
  outer_schedule o _

/-- A flush drains on its own, or waits for the stop that has begun. -/
theorem flush_cases (o : Options) (s : State R) :
    (s.stopping = none ∧ flush o s = drain o true s) ∨
    ∃ stop, s.stopping = some stop ∧
      flush o s = { s with stopWaits := s.stopWaits ++ [⟨stop, s.submitted, false⟩] } := by
  unfold flush
  split
  next none => exact .inl ⟨none, rfl⟩
  next stop some => exact .inr ⟨stop, some, rfl⟩

/-- The state `#stop` hands to `#drain`. -/
def stopping_ (s : State R) : State R :=
  { s with
    stopped := true
    stops := s.stops ++ [.draining s.drains.length]
    todo := .assignStopping s.stops.length :: .assignShutdown s.stops.length :: s.todo }

theorem beginShutdown_cases (o : Options) (s : State R) :
    (s.shutdown.isSome ∧ beginShutdown o s = s) ∨
    (s.shutdown = none ∧ ∃ stop, s.stopping = some stop ∧
      beginShutdown o s = push [.assignShutdown stop] s) ∨
    (s.shutdown = none ∧ s.stopping = none ∧ beginShutdown o s = drain o false (stopping_ s)) := by
  unfold beginShutdown
  split_ifs with begun
  · exact .inl ⟨begun, rfl⟩
  · have none : s.shutdown = none := by simpa using begun
    split
    next stop some => exact .inr (.inl ⟨none, stop, some, rfl⟩)
    next empty => exact .inr (.inr ⟨none, empty, rfl⟩)

theorem outer_idleCheck (drain : Nat) (s : State R) : (idleCheck drain s).outer = s.outer := by
  unfold idleCheck
  split_ifs <;> rfl

/-- The steps that touch the frame: entry points, the delivery loop between batches,
and the two ends of a wait. -/
inductive Turn (o : Options) (s : State R) : State R → Prop where
  | submit {record rest} (top : s.todo = .submit record :: rest) : Turn o s (submit o record (s.pop rest))
  | idleCheck {drain rest} (top : s.todo = .idleCheck drain :: rest) :
      Turn o s (idleCheck drain (s.pop rest))
  | assignStopping {stop rest} (top : s.todo = .assignStopping stop :: rest) :
      Turn o s { s.pop rest with stopping := some stop }
  | assignShutdown {stop rest} (top : s.todo = .assignShutdown stop :: rest) :
      Turn o s { s.pop rest with shutdown := some stop }
  | abandonOutstanding {rest} (top : s.todo = .abandonOutstanding :: rest) :
      Turn o s (abandonOutstanding (s.pop rest))
  | flush {site rest} (top : s.todo = .user site :: rest) : Turn o s (flush o s)
  | shutdown {site rest} (top : s.todo = .user site :: rest) : Turn o s (beginShutdown o s)
  | lingerFires (top : s.todo = []) (armed : s.lingerTimer = .armed) :
      Turn o s (startRun o { s with lingerTimer := .unset })
  | runResumes (top : s.todo = []) (paused : s.run = .delivered) : Turn o s (resumeRun o s)
  | drainSettles {drain idle d} (top : s.todo = []) (found : s.drains[drain]? = some d)
      (waiting : d.settled = false) (truthful : idle = true → d.idle = true) :
      Turn o s
        { s with
          drainers := s.drainers - 1
          drains := s.drains.set drain { d with settled := true }
          flushed := if d.forFlush then s.flushed ++ [(d.submittedBefore, idle)] else s.flushed }
  | stopAborts {stop drain ops} (top : s.todo = []) (found : s.stops[stop]? = some (.draining drain)) :
      Turn o s
        (push ops
          { s with
            lingerTimer := if s.lingerTimer = .armed then .cleared else s.lingerTimer
            aborted := true
            stops := s.stops.set stop .settlingCallbacks })
  | stopContinues {stop at_ next ops} (top : s.todo = []) (found : s.stops[stop]? = some at_)
      (past : at_ = .settlingCallbacks ∨ at_ = .closing) :
      Turn o s (push ops { s with stops := s.stops.set stop next })
  | stopWaitSettles {wait stopped w} (top : s.todo = []) (found : s.stopWaits[wait]? = some w)
      (truthful : stopped = true → s.stops[w.stop]? = some .stopped) :
      Turn o s
        { s with
          stopWaits := s.stopWaits.set wait { w with settled := true }
          flushed := s.flushed ++ [(w.submittedBefore, stopped)] }

/-- Every other step only counts records, calls user code or goes on with a batch. -/
theorem Move.turn [AudrRecord R] {act : Act R} (move : Move o s act t) :
    t.frame = s.frame ∨ Turn o s t := by
  cases move with
  | submit top => exact .inr (.submit top)
  | reportInvalid top => exact .inl (frame_notifyFailure o _ _ _)
  | queueFull top => exact .inl (frame_notifyFailure o _ _ _)
  | returned top => exact .inl rfl
  | endNotify top => exact .inl rfl
  | fail top => exact .inl (frame_fail o _ _ _ _ _ _)
  | markSent top => exact .inl (frame_markSent _ _)
  | notifyDelivered top => exact .inl (frame_notifyDelivered o _ _)
  | concludeItem top => exact .inl (frame_conclude o _ _ _ _)
  | release top => exact .inl (frame_conclude o _ _ _ _)
  | idleCheck top => exact .inr (.idleCheck top)
  | assignStopping top => exact .inr (.assignStopping top)
  | assignShutdown top => exact .inr (.assignShutdown top)
  | abandonOutstanding top => exact .inr (.abandonOutstanding top)
  | abandonQueued top => exact .inl (frame_abandonQueued o _ _ _)
  | abandonInFlight top => exact .inl (frame_abandonInFlight o _ _ _ _)
  | record top => exact .inl (frame_record _ _ _)
  | flush top => exact .inr (.flush top)
  | shutdown top => exact .inr (.shutdown top)
  | sinkThrows top calling => exact .inl rfl
  | sinkReturns top calling exits => exact .inl rfl
  | callbackThrows top other => exact .inl rfl
  | callbackPromises top other => exact .inl rfl
  | leaves top other => exact .inl rfl
  | task top => exact .inl rfl
  | lingerFires top armed => exact .inr (.lingerFires top armed)
  | sinkSettles top awaiting => exact .inl (frame_answer _ _ _)
  | runResumes top paused => exact .inr (.runResumes top paused)
  | drainSettles top found waiting truthful => exact .inr (.drainSettles top found waiting truthful)
  | stopAborts top found drained settled => exact .inr (.stopAborts top found)
  | stopCloses top found owns => exact .inr (.stopContinues top found (.inl rfl))
  | stopEnds top found last =>
    refine .inr (.stopContinues top found ?_)
    rcases last with rfl | ⟨rfl, _⟩
    · exact .inr rfl
    · exact .inl rfl
  | stopWaitSettles top found waiting truthful => exact .inr (.stopWaitSettles top found truthful)
  | callbackSettles top pending => exact .inl rfl

end State

end Audr.Pipeline
