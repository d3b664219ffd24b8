import Audr.PyPipeline.Machine

/-! Everything one step of the Python machine can do, said once. Each case names the
operation on top of the stack, or the wait that ends, and gives the next state by the
function that computes it. -/

namespace Audr.PyPipeline

variable {R : Type}

namespace State

/-- The state with the top of the stack taken off. -/
def pop (rest : List (Op R)) (s : State R) : State R := { s with todo := rest }

variable [AudrRecord R] (o : Options) (s : State R)

/-- The steps of the machine from `s`. -/
inductive Move : Act R → State R → Prop where
  | returned {ref outcome rest} (top : s.todo = .returned ref outcome :: rest) :
      Move .next { s.pop rest with returned := s.returned ++ [(ref, outcome)] }
  | fail {ref disposition reason retryable detail rest}
      (top : s.todo = .fail ref disposition reason retryable detail :: rest) :
      Move .next (fail o ref disposition reason retryable detail (s.pop rest))
  | markSent {ref rest} (top : s.todo = .markSent ref :: rest) :
      Move .next (markSent ref (s.pop rest))
  | notifyDelivered {batch rest} (top : s.todo = .notifyDelivered batch :: rest) :
      Move .next (notifyDelivered o batch (s.pop rest))
  | tryEnds {batch raising rest} (top : s.todo = .tryEnds batch raising :: rest) :
      Move .next (push [.conclude batch batch raising] (s.pop rest))
  | concludeItem {ref pending batch raising rest}
      (top : s.todo = .conclude (ref :: pending) batch raising :: rest) :
      Move .next (conclude o (ref :: pending) batch raising (s.pop rest))
  | finish {batch raising rest} (top : s.todo = .conclude [] batch raising :: rest) :
      Move .next (finish batch raising (s.pop rest))
  | releaseInFlight {ref rest} (top : s.todo = .releaseInFlight ref :: rest) :
      Move .next (releaseInFlight ref (s.pop rest))
  | abandonQueue {rest} (top : s.todo = .abandonQueue :: rest) :
      Move .next (abandonQueue o (s.pop rest))
  | abandonItems {pending rest} (top : s.todo = .abandonItems pending :: rest) :
      Move .next (abandonItems o pending (s.pop rest))
  | shutdown {raising rest} (top : s.todo = .shutdown raising :: rest) :
      Move .next (shutdown raising (s.pop rest))
  | closeSink {raising rest} (top : s.todo = .closeSink raising :: rest) :
      Move .next (closeSink o raising (s.pop rest))
  | submit {record site rest} (top : s.todo = .user site :: rest) : Move (.submit record) (submit o record s)
  | flush {site rest} (top : s.todo = .user site :: rest) : Move .flush (flush s)
  | stop {site rest} (top : s.todo = .user site :: rest) : Move .stop (beginStop s)
  | start {site rest} (top : s.todo = .user site :: rest) : Move .start (start s)
  | leaves {site exit rest} (top : s.todo = .user site :: rest) (exits : exit ≠ .escapes) :
      Move (.leave exit) (s.pop rest)
  | escapes {site rest} (top : s.todo = .user site :: rest) :
      Move (.leave .escapes) (unwind rest (s.pop rest))
  | task (top : s.todo = []) : Move .task (push [.user .host] s)
  | workerGets {expired q rest} (top : s.todo = []) (at_ : s.worker = .getting)
      (queue : s.queue = q :: rest) (wanted : s.cancelRequested = false) :
      Move (.workerGets expired) (collect o [q.ref] expired (beginInFlight q { s with queue := rest }))
  | getTaskPops {batch q rest} (top : s.todo = []) (at_ : s.worker = .lingering batch none)
      (queue : s.queue = q :: rest) :
      Move .getTaskPops { s with worker := .lingering batch (some q), queue := rest }
  | lingerReturns {batch popped} (top : s.todo = []) (at_ : s.worker = .lingering batch popped) :
      Move .lingerReturns { s with worker := .reclaiming batch popped }
  | reclaimedRecord {expired batch q} (top : s.todo = []) (at_ : s.worker = .reclaiming batch (some q))
      (wanted : s.cancelRequested = false) :
      Move (.reclaimed expired) (collect o (batch ++ [q.ref]) expired (beginInFlight q s))
  | reclaimedNothing {expired batch} (top : s.todo = []) (at_ : s.worker = .reclaiming batch none)
      (wanted : s.cancelRequested = false) : Move (.reclaimed expired) (deliver batch s)
  | cancelledGetting (top : s.todo = []) (at_ : s.worker = .getting)
      (cancelled : s.cancelRequested = true) : Move .workerCancelled { s with worker := .ended }
  | cancelledReclaiming {batch popped} (top : s.todo = []) (at_ : s.worker = .reclaiming batch popped)
      (cancelled : s.cancelRequested = true) :
      Move .workerCancelled
        { s with
          worker := .ended
          orphaned := s.orphaned ++ batch
          lost := s.lost ++ (popped.map Queued.ref).toList }
  | sinkAnswers {settled batch} (top : s.todo = []) (at_ : s.worker = .delivering batch) :
      Move (.sinkAnswers settled) (answer batch settled s)
  | flushSettles {flush result f} (top : s.todo = []) (found : s.flushes[flush]? = some f)
      (waiting : f.settled = false) (truthful : result = some true → f.joined = true) :
      Move (.flushSettles flush result)
        { s with
          draining := if s.stopped then s.draining else false
          flushes := s.flushes.set flush { f with settled := true }
          flushed := s.flushed ++ (result.map fun told => (f.submittedBefore, told)).toList }
  | stopTimesOut {joined} (top : s.todo = []) (at_ : s.stop = .draining joined) :
      Move (.stopDrains true) (push [.abandonQueue, .shutdown false] s)
  | stopJoins (top : s.todo = []) (at_ : s.stop = .draining true) :
      Move (.stopDrains false) (push [.shutdown false] s)
  | stopCancelledDraining {joined} (top : s.todo = []) (at_ : s.stop = .draining joined) :
      Move .stopCancelled (push [.shutdown true] s)
  | stopInterrupted {raising} (top : s.todo = []) (at_ : s.stop = .cancelling raising) :
      Move .stopCancelled { s with cancelRequested := true, stop := .interrupted }
  | stopCancelledClosing {raising} (top : s.todo = []) (at_ : s.stop = .closing raising) :
      Move .stopCancelled { s with stop := .ended true }
  | workerGathered {raising} (top : s.todo = []) (ended : s.worker = .ended)
      (at_ : s.stop = .cancelling raising) :
      Move .workerGathered (push [.abandonQueue, .closeSink raising] s)
  | gatherRaises (top : s.todo = []) (ended : s.worker = .ended) (at_ : s.stop = .interrupted) :
      Move .workerGathered { s with stop := .ended true }
  | closeSettles {raising escapes} (top : s.todo = []) (at_ : s.stop = .closing raising) :
      Move (.closeSettles escapes) { s with stop := .ended (raising || escapes) }

variable {o s} {t : State R} {act : Act R}

theorem exec_moves {op : Op R} {rest : List (Op R)} (top : s.todo = op :: rest)
    (taken : exec o (s.pop rest) op = some t) : Move o s .next t := by
  cases op with
  | user => cases taken
  | conclude pending =>
    cases pending with
    | nil => cases taken; exact .finish top
    | cons => cases taken; exact .concludeItem top
  | returned => cases taken; exact .returned top
  | fail => cases taken; exact .fail top
  | markSent => cases taken; exact .markSent top
  | notifyDelivered => cases taken; exact .notifyDelivered top
  | tryEnds => cases taken; exact .tryEnds top
  | releaseInFlight => cases taken; exact .releaseInFlight top
  | abandonQueue => cases taken; exact .abandonQueue top
  | abandonItems => cases taken; exact .abandonItems top
  | shutdown => cases taken; exact .shutdown top
  | closeSink => cases taken; exact .closeSink top

omit [AudrRecord R] in
theorem push_pop {op : Op R} {rest : List (Op R)} (top : s.todo = op :: rest) :
    push [op] (s.pop rest) = s := by
  cases s
  simp only [push, pop, List.cons_append, List.nil_append] at top ⊢
  rw [← top]

theorem userStep_moves {site : Site} {rest : List (Op R)} (top : s.todo = .user site :: rest)
    (taken : userStep o site (s.pop rest) act = some t) : Move o s act t := by
  cases act with
  | submit record =>
    simp only [userStep, push_pop top, Option.some.injEq] at taken
    exact taken ▸ .submit top
  | flush =>
    simp only [userStep, push_pop top, Option.some.injEq] at taken
    exact taken ▸ .flush top
  | stop =>
    simp only [userStep, push_pop top, Option.some.injEq] at taken
    exact taken ▸ .stop top
  | start =>
    simp only [userStep, push_pop top, Option.some.injEq] at taken
    exact taken ▸ .start top
  | leave exit =>
    simp only [userStep, leave, Option.some.injEq] at taken
    split_ifs at taken with escapes
    · subst escapes
      exact taken ▸ .escapes top
    · exact taken ▸ .leaves top escapes
  | _ => cases taken

/-! The waits of the worker, of flushes and of a stop. -/

theorem workerGets_moves {expired : Bool} (top : s.todo = []) (taken : workerGets o expired s = some t) :
    Move o s (.workerGets expired) t := by
  unfold workerGets at taken
  split at taken
  next q rest at_ queue =>
    split_ifs at taken with cancelled
    cases taken
    exact .workerGets top at_ queue (Bool.of_not_eq_true cancelled)
  next => cases taken

theorem getTaskPops_moves (top : s.todo = []) (taken : getTaskPops s = some t) :
    Move o s .getTaskPops t := by
  unfold getTaskPops at taken
  split at taken
  next batch q rest at_ queue =>
    cases taken
    exact .getTaskPops top at_ queue
  next => cases taken

theorem lingerReturns_moves (top : s.todo = []) (taken : lingerReturns s = some t) :
    Move o s .lingerReturns t := by
  unfold lingerReturns at taken
  split at taken
  next batch popped at_ =>
    cases taken
    exact .lingerReturns top at_
  next => cases taken

theorem reclaimed_moves {expired : Bool} (top : s.todo = []) (taken : reclaimed o expired s = some t) :
    Move o s (.reclaimed expired) t := by
  unfold reclaimed at taken
  split at taken
  next batch popped at_ =>
    split_ifs at taken with cancelled
    have wanted := Bool.of_not_eq_true cancelled
    cases popped with
    | some q => cases taken; exact .reclaimedRecord top at_ wanted
    | none => cases taken; exact .reclaimedNothing top at_ wanted
  next => cases taken

theorem workerCancelled_moves (top : s.todo = []) (taken : workerCancelled s = some t) :
    Move o s .workerCancelled t := by
  unfold workerCancelled at taken
  split_ifs at taken with cancelled
  split at taken
  next at_ =>
    cases taken
    exact .cancelledGetting top at_ cancelled
  next batch popped at_ =>
    cases taken
    exact .cancelledReclaiming top at_ cancelled
  next => cases taken

theorem settleFlush_moves {flush : Nat} {result : Option Bool} (top : s.todo = [])
    (taken : settleFlush flush result s = some t) : Move o s (.flushSettles flush result) t := by
  unfold settleFlush at taken
  split at taken
  next f found =>
    split at taken
    next => cases taken
    next refused =>
      cases taken
      simp only [Bool.or_eq_true, Bool.and_eq_true, decide_eq_true_eq, Bool.not_eq_true', not_or,
        not_and, Bool.not_eq_true, Bool.not_eq_false] at refused
      exact .flushSettles top found refused.1 refused.2
  next => cases taken

theorem stopDrains_moves {timedOut : Bool} (top : s.todo = []) (taken : stopDrains timedOut s = some t) :
    Move o s (.stopDrains timedOut) t := by
  unfold stopDrains at taken
  split at taken
  next joined at_ =>
    split_ifs at taken with timeout done
    · cases taken
      exact timeout ▸ .stopTimesOut top at_
    · cases taken
      rw [Bool.of_not_eq_true timeout]
      exact .stopJoins top (done ▸ at_)
  next => cases taken

theorem stopCancelled_moves (top : s.todo = []) (taken : stopCancelled s = some t) :
    Move o s .stopCancelled t := by
  unfold stopCancelled at taken
  split at taken
  next at_ => cases taken; exact .stopCancelledDraining top at_
  next at_ => cases taken; exact .stopInterrupted top at_
  next at_ => cases taken; exact .stopCancelledClosing top at_
  next => cases taken

theorem workerGathered_moves (top : s.todo = []) (taken : workerGathered s = some t) :
    Move o s .workerGathered t := by
  unfold workerGathered at taken
  split at taken
  next ended at_ => cases taken; exact .workerGathered top ended at_
  next ended at_ => cases taken; exact .gatherRaises top ended at_
  next => cases taken

theorem loopStep_moves (top : s.todo = []) (taken : loopStep o s act = some t) : Move o s act t := by
  cases act with
  | task => cases taken; exact .task top
  | workerGets expired => exact workerGets_moves top taken
  | getTaskPops => exact getTaskPops_moves top taken
  | lingerReturns => exact lingerReturns_moves top taken
  | reclaimed expired => exact reclaimed_moves top taken
  | workerCancelled => exact workerCancelled_moves top taken
  | sinkAnswers settled =>
    simp only [loopStep, sinkAnswers] at taken
    split at taken
    next batch at_ => cases taken; exact .sinkAnswers top at_
    next => cases taken
  | flushSettles flush result => exact settleFlush_moves top taken
  | stopDrains timedOut => exact stopDrains_moves top taken
  | stopCancelled => exact stopCancelled_moves top taken
  | workerGathered => exact workerGathered_moves top taken
  | closeSettles escapes =>
    simp only [loopStep, closeSettles] at taken
    split at taken
    next at_ => cases taken; exact .closeSettles top at_
    next => cases taken
  | _ => cases taken

/-- The steps are exactly those named above; nothing else can happen. -/
theorem step_moves (taken : step o s act = some t) : Move o s act t := by
  unfold step at taken
  split at taken
  next top => exact loopStep_moves top taken
  next site rest top => exact userStep_moves top taken
  next op rest _ top =>
    split_ifs at taken with next
    cases act with
    | next => exact exec_moves top taken
    | _ => cases next

end State

end Audr.PyPipeline
