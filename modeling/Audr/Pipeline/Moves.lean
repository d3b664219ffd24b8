import Audr.Pipeline.Machine

/-! Everything one step of the machine can do, said once. Each case names the
operation on top of the stack, or says that the stack is empty, and gives the next
state by the function that computes it. -/

namespace Audr.Pipeline

variable {R : Type}

namespace State

/-- The state with the top of the stack taken off. -/
def pop (rest : List (Op R)) (s : State R) : State R := { s with todo := rest }

variable [AudrRecord R] (o : Options) (s : State R)

/-- The steps of the machine from `s`. -/
inductive Move : Act R → State R → Prop where
  | submit {record rest} (top : s.todo = .submit record :: rest) :
      Move .next (submit o record (s.pop rest))
  | reportInvalid {record rest} (top : s.todo = .reportInvalid record :: rest) :
      Move .next (notifyFailure o none ⟨record, .dropped, .invalid, false, none⟩ (s.pop rest))
  | queueFull {ref record rest} (top : s.todo = .queueFull ref record :: rest) :
      Move .next (notifyFailure o (some ref) ⟨record, .dropped, .queueFull, true, none⟩
        (push [.returned ref .droppedQueueFull] (s.pop rest)))
  | returned {ref outcome rest} (top : s.todo = .returned ref outcome :: rest) :
      Move .next { s.pop rest with returned := s.returned ++ [(ref, outcome)] }
  | endNotify {rest} (top : s.todo = .endNotify :: rest) :
      Move .next { s.pop rest with notifying := false }
  | fail {ref disposition reason retryable detail rest}
      (top : s.todo = .fail ref disposition reason retryable detail :: rest) :
      Move .next (fail o ref disposition reason retryable detail (s.pop rest))
  | markSent {ref rest} (top : s.todo = .markSent ref :: rest) :
      Move .next (markSent ref (s.pop rest))
  | notifyDelivered {batch rest} (top : s.todo = .notifyDelivered batch :: rest) :
      Move .next (notifyDelivered o batch (s.pop rest))
  | concludeItem {ref pending batch unresolved rest}
      (top : s.todo = .conclude (ref :: pending) batch unresolved :: rest) :
      Move .next (conclude o (ref :: pending) batch unresolved (s.pop rest))
  | release {batch unresolved rest} (top : s.todo = .conclude [] batch unresolved :: rest) :
      Move .next (conclude o [] batch unresolved (s.pop rest))
  | idleCheck {drain rest} (top : s.todo = .idleCheck drain :: rest) :
      Move .next (idleCheck drain (s.pop rest))
  | assignStopping {stop rest} (top : s.todo = .assignStopping stop :: rest) :
      Move .next { s.pop rest with stopping := some stop }
  | assignShutdown {stop rest} (top : s.todo = .assignShutdown stop :: rest) :
      Move .next { s.pop rest with shutdown := some stop }
  | abandonOutstanding {rest} (top : s.todo = .abandonOutstanding :: rest) :
      Move .next (abandonOutstanding (s.pop rest))
  | abandonQueued {queued dropped rest} (top : s.todo = .abandonQueued queued dropped :: rest) :
      Move .next (abandonQueued o queued dropped (s.pop rest))
  | abandonInFlight {pending dropped unknown rest}
      (top : s.todo = .abandonInFlight pending dropped unknown :: rest) :
      Move .next (abandonInFlight o pending dropped unknown (s.pop rest))
  | record {record verdict site rest} (top : s.todo = .user site :: rest) :
      Move (.record record verdict) (State.record record verdict s)
  | flush {site rest} (top : s.todo = .user site :: rest) : Move .flush (flush o s)
  | shutdown {site rest} (top : s.todo = .user site :: rest) : Move .shutdown (beginShutdown o s)
  | sinkThrows {batch rest} (top : s.todo = .user .deliver :: rest) (calling : s.run = .calling batch) :
      Move (.leave .throws)
        (push [.conclude batch batch 0] { s.pop rest with run := .concluding, answered := s.answered + 1 })
  | sinkReturns {exit batch rest} (top : s.todo = .user .deliver :: rest)
      (calling : s.run = .calling batch) (exits : exit ≠ .throws) :
      Move (.leave exit) { s.pop rest with run := .awaiting batch }
  | callbackThrows {site rest} (top : s.todo = .user site :: rest) (other : site ≠ .deliver) :
      Move (.leave .throws) (push [.user .logger] (s.pop rest))
  | callbackPromises {site rest} (top : s.todo = .user site :: rest) (other : site ≠ .deliver) :
      Move (.leave .returnsPromise) { s.pop rest with callbacks := s.callbacks + 1 }
  | leaves {site exit rest} (top : s.todo = .user site :: rest) (other : site ≠ .deliver) :
      Move (.leave exit) (s.pop rest)
  | task (top : s.todo = []) : Move .task (push [.user .host] s)
  | lingerFires (top : s.todo = []) (armed : s.lingerTimer = .armed) :
      Move .lingerFires (startRun o { s with lingerTimer := .unset })
  | sinkSettles {settlement batch} (top : s.todo = []) (awaiting : s.run = .awaiting batch) :
      Move (.sinkSettles settlement) (answer batch settlement s)
  | runResumes (top : s.todo = []) (paused : s.run = .delivered) : Move .runResumes (resumeRun o s)
  | drainSettles {drain idle d} (top : s.todo = []) (found : s.drains[drain]? = some d)
      (waiting : d.settled = false) (truthful : idle = true → d.idle = true) :
      Move (.drainSettles drain idle)
        { s with
          drainers := s.drainers - 1
          drains := s.drains.set drain { d with settled := true }
          flushed := if d.forFlush then s.flushed ++ [(d.submittedBefore, idle)] else s.flushed }
  | stopAborts {stop warns drain d} (top : s.todo = []) (found : s.stops[stop]? = some (.draining drain))
      (drained : s.drains[drain]? = some d) (settled : d.settled = true) :
      Move (.stopResumes stop warns)
        (push (if s.aborted then [.abandonOutstanding] else [.user .abortListener, .abandonOutstanding])
          { s with
            lingerTimer := if s.lingerTimer = .armed then .cleared else s.lingerTimer
            aborted := true
            stops := s.stops.set stop .settlingCallbacks })
  | stopCloses {stop warns} (top : s.todo = []) (found : s.stops[stop]? = some .settlingCallbacks)
      (owns : o.ownsSink = true) :
      Move (.stopResumes stop warns)
        (push ((if warns then [.user .logger] else []) ++ [.user .sinkClose])
          { s with stops := s.stops.set stop .closing })
  | stopEnds {stop warns at_} (top : s.todo = []) (found : s.stops[stop]? = some at_)
      (last : at_ = .closing ∨ (at_ = .settlingCallbacks ∧ o.ownsSink = false)) :
      Move (.stopResumes stop warns)
        (push (if warns then [.user .logger] else []) { s with stops := s.stops.set stop .stopped })
  | stopWaitSettles {wait stopped w} (top : s.todo = []) (found : s.stopWaits[wait]? = some w)
      (waiting : w.settled = false) (truthful : stopped = true → s.stops[w.stop]? = some .stopped) :
      Move (.stopWaitSettles wait stopped)
        { s with
          stopWaits := s.stopWaits.set wait { w with settled := true }
          flushed := s.flushed ++ [(w.submittedBefore, stopped)] }
  | callbackSettles {threw} (top : s.todo = []) (pending : 0 < s.callbacks) :
      Move (.callbackSettles threw)
        (push (if threw then [.user .logger] else []) { s with callbacks := s.callbacks - 1 })

variable {o s} {t : State R} {act : Act R}

theorem exec_moves {op : Op R} {rest : List (Op R)} (top : s.todo = op :: rest)
    (taken : exec o (s.pop rest) op = some t) : Move o s .next t := by
  cases op with
  | user => cases taken
  | conclude pending =>
    cases pending with
    | nil => cases taken; exact .release top
    | cons => cases taken; exact .concludeItem top
  | submit => cases taken; exact .submit top
  | reportInvalid => cases taken; exact .reportInvalid top
  | queueFull => cases taken; exact .queueFull top
  | returned => cases taken; exact .returned top
  | endNotify => cases taken; exact .endNotify top
  | fail => cases taken; exact .fail top
  | markSent => cases taken; exact .markSent top
  | notifyDelivered => cases taken; exact .notifyDelivered top
  | idleCheck => cases taken; exact .idleCheck top
  | assignStopping => cases taken; exact .assignStopping top
  | assignShutdown => cases taken; exact .assignShutdown top
  | abandonOutstanding => cases taken; exact .abandonOutstanding top
  | abandonQueued => cases taken; exact .abandonQueued top
  | abandonInFlight => cases taken; exact .abandonInFlight top

omit [AudrRecord R] in
theorem push_pop {op : Op R} {rest : List (Op R)} (top : s.todo = op :: rest) :
    push [op] (s.pop rest) = s := by
  cases s
  simp only [push, pop, List.cons_append, List.nil_append] at top ⊢
  rw [← top]

theorem leave_moves {site : Site} {exit : Exit} {rest : List (Op R)}
    (top : s.todo = .user site :: rest) (taken : leave site exit (s.pop rest) = some t) :
    Move o s (.leave exit) t := by
  by_cases sink : site = .deliver
  · subst sink
    cases at_run : s.run with
    | calling batch =>
      cases exit with
      | throws =>
        simp only [leave, pop, at_run, Option.some.injEq] at taken
        exact taken ▸ .sinkThrows top at_run
      | returns =>
        simp only [leave, pop, at_run, Option.some.injEq] at taken
        exact taken ▸ .sinkReturns top at_run (by decide)
      | returnsPromise =>
        simp only [leave, pop, at_run, Option.some.injEq] at taken
        exact taken ▸ .sinkReturns top at_run (by decide)
    | _ => cases exit <;> simp [leave, pop, at_run] at taken
  · cases exit with
    | returns =>
      have same : s.pop rest = t := by cases site <;> simp_all [leave]
      exact same ▸ .leaves top sink
    | throws =>
      have same : push [.user .logger] (s.pop rest) = t ∨ s.pop rest = t := by
        cases site <;> simp_all [leave]
      rcases same with rfl | rfl
      · exact .callbackThrows top sink
      · exact .leaves top sink
    | returnsPromise =>
      have same : { s.pop rest with callbacks := s.callbacks + 1 } = t ∨ s.pop rest = t := by
        cases site <;> simp_all [leave, pop]
      rcases same with rfl | rfl
      · exact .callbackPromises top sink
      · exact .leaves top sink

theorem userStep_moves {site : Site} {rest : List (Op R)} (top : s.todo = .user site :: rest)
    (taken : userStep o site (s.pop rest) act = some t) : Move o s act t := by
  cases act with
  | record r verdict =>
    simp only [userStep, push_pop top, Option.some.injEq] at taken
    exact taken ▸ .record top
  | flush =>
    simp only [userStep, push_pop top, Option.some.injEq] at taken
    exact taken ▸ .flush top
  | shutdown =>
    simp only [userStep, push_pop top, Option.some.injEq] at taken
    exact taken ▸ .shutdown top
  | leave exit => exact leave_moves top taken
  | _ => cases taken

theorem resumeStop_moves {stop : Nat} {warns : Bool} (top : s.todo = [])
    (taken : resumeStop o stop warns s = some t) : Move o s (.stopResumes stop warns) t := by
  unfold resumeStop at taken
  split at taken
  next drain found =>
    cases entry : s.drains[drain]? with
    | none => simp [entry] at taken
    | some d =>
      cases settled : d.settled with
      | false => simp [entry, settled] at taken
      | true =>
        simp only [entry, settled, Option.map_some, Option.getD_some, if_true,
          Option.some.injEq] at taken
        exact taken ▸ .stopAborts top found entry settled
  next found =>
    cases owns : o.ownsSink with
    | true =>
      simp only [owns, if_true, Option.some.injEq] at taken
      exact taken ▸ .stopCloses top found owns
    | false =>
      simp only [owns, Bool.false_eq_true, if_false, Option.some.injEq] at taken
      exact taken ▸ .stopEnds top found (.inr ⟨rfl, owns⟩)
  next found =>
    cases taken
    exact .stopEnds top found (.inl rfl)
  next => cases taken

theorem loopStep_moves (top : s.todo = []) (taken : loopStep o s act = some t) : Move o s act t := by
  cases act with
  | task => cases taken; exact .task top
  | lingerFires =>
    simp only [loopStep] at taken
    split_ifs at taken with armed
    cases taken
    exact .lingerFires top armed
  | sinkSettles settlement =>
    cases at_run : s.run with
    | awaiting batch =>
      simp only [loopStep, at_run, Option.some.injEq] at taken
      exact taken ▸ .sinkSettles top at_run
    | _ => simp [loopStep, at_run] at taken
  | runResumes =>
    simp only [loopStep] at taken
    split_ifs at taken with paused
    cases taken
    exact .runResumes top paused
  | drainSettles drain idle =>
    simp only [loopStep, settleDrain] at taken
    split at taken
    next d found =>
      split at taken
      next => cases taken
      next free =>
        cases taken
        simp only [Bool.or_eq_true, Bool.and_eq_true, Bool.not_eq_true', not_or, not_and,
          Bool.not_eq_true, Bool.not_eq_false] at free
        exact .drainSettles top found free.1 free.2
    next => cases taken
  | stopResumes stop warns => exact resumeStop_moves top taken
  | stopWaitSettles wait stopped =>
    simp only [loopStep, settleStopWait] at taken
    split at taken
    next w found =>
      split at taken
      next => cases taken
      next free =>
        cases taken
        simp only [Bool.or_eq_true, Bool.and_eq_true, decide_eq_true_eq, not_or, not_and,
          Bool.not_eq_true, not_not] at free
        exact .stopWaitSettles top found free.1 free.2
    next => cases taken
  | callbackSettles threw =>
    simp only [loopStep] at taken
    split at taken
    next pending =>
      cases taken
      exact .callbackSettles top pending
    next => cases taken
  | _ => cases taken

/-- The steps are exactly those named above; nothing else can happen. -/
theorem step_moves (taken : step o s act = some t) : Move o s act t := by
  unfold step at taken
  split at taken
  next top => exact loopStep_moves top taken
  next site rest top => exact userStep_moves top taken
  next op rest _ top =>
    split_ifs at taken with next
    cases act with
    | next => exact exec_moves top taken
    | _ => cases next

end State

end Audr.Pipeline
