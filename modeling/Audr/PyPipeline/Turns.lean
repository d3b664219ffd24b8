import Audr.PyPipeline.Control

/-! The steps of the Python machine that do more than count records and run user code,
with what the control invariant says about the state they are taken in. Every later
invariant looks at these steps only. -/

namespace Audr.PyPipeline

variable {R : Type}

/-- The steps of the worker and of its helper task. -/
def Act.works : Act R → Bool
  | .workerGets _ => true
  | .getTaskPops => true
  | .lingerReturns => true
  | .reclaimed _ => true
  | .sinkAnswers _ => true
  | _ => false

namespace State

/-- Where an exception that escapes from the running user code comes to rest. -/
def catcher (s : State R) : List (Op R) := s.todo.tail.dropWhile fun op => !op.catches

inductive Turn [AudrRecord R] (o : Options) (s : State R) : Act R → State R → Prop where
  | finish {batch raising} (top : s.todo = [.conclude [] batch raising])
      (at_ : s.worker = .concluding batch) (empty : s.inFlight = []) :
      Turn o s .next (finish batch raising (s.pop []))
  | abandonQueue {rest} (called : s.stop ≠ .notCalled) : Turn o s .next (abandonQueue o (s.pop rest))
  | shutdown {raising} (called : s.stop ≠ .notCalled) : Turn o s .next (shutdown raising (s.pop []))
  | closeSink {raising} (gone : s.worker.gone = true) (queue : s.queue = [])
      (live : liveRefs s.inFlight = []) : Turn o s .next (closeSink o raising (s.pop []))
  | submit {record} : Turn o s (.submit record) (submit o record s)
  | flush : Turn o s .flush (flush s)
  | stop : Turn o s .stop (beginStop s)
  | start : Turn o s .start (start s)
  | spills {pending batch raising} (caught : s.catcher = [.conclude pending batch raising])
      (at_ : s.worker = .concluding batch) : Turn o s (.leave .escapes) (finish batch true (s.pop []))
  | tears {raising} (caught : s.catcher = [.closeSink raising]) (gone : s.worker.gone = true) :
      Turn o s (.leave .escapes) { s.pop [] with stop := .ended true }
  | workerGets {expired q rest} (at_ : s.worker = .getting) (empty : s.inFlight = [])
      (queue : s.queue = q :: rest) (wanted : s.cancelRequested = false) :
      Turn o s (.workerGets expired)
        (collect o [q.ref] expired { takeUp 1 s with worker := .getting })
  | getTaskPops {batch q rest} (at_ : s.worker = .lingering batch none) (queue : s.queue = q :: rest) :
      Turn o s .getTaskPops { s with worker := .lingering batch (some q), queue := rest }
  | lingerReturns {batch popped} (at_ : s.worker = .lingering batch popped) :
      Turn o s .lingerReturns { s with worker := .reclaiming batch popped }
  | reclaimedRecord {expired batch q} (at_ : s.worker = .reclaiming batch (some q))
      (wanted : s.cancelRequested = false) :
      Turn o s (.reclaimed expired)
        (collect o (batch ++ [q.ref]) expired { beginInFlight q s with worker := .getting })
  | reclaimedNothing {expired batch} (at_ : s.worker = .reclaiming batch none)
      (wanted : s.cancelRequested = false) : Turn o s (.reclaimed expired) (deliver batch s)
  | cancelledGetting (at_ : s.worker = .getting) (cancelled : s.cancelRequested = true) :
      Turn o s .workerCancelled { s with worker := .ended }
  | cancelledReclaiming {batch popped} (at_ : s.worker = .reclaiming batch popped)
      (cancelled : s.cancelRequested = true) :
      Turn o s .workerCancelled
        { s with
          worker := .ended
          orphaned := s.orphaned ++ batch
          lost := s.lost ++ (popped.map Queued.ref).toList }
  | sinkAnswers {settled batch} (at_ : s.worker = .delivering batch) :
      Turn o s (.sinkAnswers settled) (answer batch settled s)
  | flushSettles {flush result f} (found : s.flushes[flush]? = some f)
      (waiting : f.settled = false) (truthful : result = some true → f.joined = true) :
      Turn o s (.flushSettles flush result)
        { s with
          draining := if s.stopped then s.draining else false
          flushes := s.flushes.set flush { f with settled := true }
          flushed := s.flushed ++ (result.map fun told => (f.submittedBefore, told)).toList }
  | stopInterrupted {raising} (at_ : s.stop = .cancelling raising) :
      Turn o s .stopCancelled { s with cancelRequested := true, stop := .interrupted }
  | stopCancelledClosing {raising} (at_ : s.stop = .closing raising) :
      Turn o s .stopCancelled { s with stop := .ended true }
  | gatherRaises (ended : s.worker = .ended) (at_ : s.stop = .interrupted) :
      Turn o s .workerGathered { s with stop := .ended true }
  | closeSettles {raising escapes} (at_ : s.stop = .closing raising) :
      Turn o s (.closeSettles escapes) { s with stop := .ended (raising || escapes) }

/-- A step that only counts records, or changes the stack. -/
structure Aside (s : State R) (act : Act R) (t : State R) : Prop where
  frame : t.frame = s.frame
  live : ∀ ref ∈ liveRefs t.inFlight, ref ∈ liveRefs s.inFlight
  works : act.works = false

variable [AudrRecord R] {o : Options} {s t : State R} {act : Act R}

/-- There are no other steps. -/
theorem Move.turn (move : Move o s act t) (control : s.Control) : Aside s act t ∨ Turn o s act t := by
  have carried := control.carried
  have counts {u : State R} {rest : List (Op R)} (accounted : Accounted (s.pop rest) u) :
      Aside s .next u :=
    ⟨accounted.frame, accounted.live, rfl⟩
  cases move with
  | returned top => exact .inl ⟨rfl, fun _ live => live, rfl⟩
  | fail top => exact .inl (counts (accounted_fail o _ _ _ _ _ _))
  | markSent top => exact .inl (counts (accounted_markSent _ _))
  | notifyDelivered top => exact .inl (counts (accounted_notifyDelivered o _ _))
  | tryEnds top => exact .inl ⟨rfl, fun _ live => live, rfl⟩
  | @concludeItem ref pending batch raising rest top =>
    have accounted := accounted_fail o ref .unknown .inconclusive true none
      (push [.releaseInFlight ref, .conclude pending batch raising] (s.pop rest))
    exact .inl ⟨accounted.frame, accounted.live, rfl⟩
  | finish top =>
    obtain ⟨rfl, at_, refs⟩ := (control.section_ top rfl).at_conclude
    exact .inr (.finish top at_ (List.map_eq_nil_iff.mp refs))
  | releaseInFlight top =>
    refine .inl ⟨rfl, fun _ live => ?_, rfl⟩
    exact ((List.filter_sublist.filter _).map _).subset live
  | abandonQueue top =>
    exact .inr (.abandonQueue ((control.section_ top rfl).at_abandon (.inl rfl)).1)
  | @abandonItems pending rest top =>
    cases pending with
    | nil => exact .inl ⟨rfl, fun _ live => live, rfl⟩
    | cons ref pending =>
      have accounted := accounted_fail o ref .unknown .shutdown true none
        (push [.abandonItems pending] (s.pop rest))
      exact .inl ⟨accounted.frame, accounted.live, rfl⟩
  | shutdown top =>
    obtain ⟨rfl, _, called⟩ := (control.section_ top rfl).at_shutdown
    exact .inr (.shutdown called)
  | closeSink top =>
    obtain ⟨rfl, gone, _, queue, live⟩ := (control.section_ top rfl).at_closeSink
    exact .inr (.closeSink gone queue live)
  | submit top => exact .inr .submit
  | flush top => exact .inr .flush
  | stop top => exact .inr .stop
  | start top => exact .inr .start
  | leaves top => exact .inl ⟨rfl, fun _ live => live, rfl⟩
  | @escapes site rest top =>
    have unwound : Unwound (s.pop rest) rest (unwind rest (s.pop rest)) := (control.pop top rfl).stack.unwound
    have catcher : s.catcher = rest.dropWhile fun op => !op.catches := by rw [State.catcher, top, List.tail_cons]
    generalize unwind rest (s.pop rest) = t at unwound ⊢
    cases unwound with
    | resumes => exact .inl ⟨rfl, fun _ live => live, rfl⟩
    | finishes caught at_ => exact .inr (.spills (catcher.trans caught) at_)
    | stops caught gone => exact .inr (.tears (catcher.trans caught) gone)
  | task top => exact .inl ⟨rfl, fun _ live => live, rfl⟩
  | @workerGets expired q rest top at_ queue wanted =>
    rw [at_] at carried
    have begun : beginInFlight q { s with queue := rest } = takeUp 1 s := by
      simp [beginInFlight, takeUp, queue]
    rw [begun, ← collect_worker o _ _ _ .getting]
    exact .inr (.workerGets at_ carried queue wanted)
  | getTaskPops top at_ queue => exact .inr (.getTaskPops at_ queue)
  | lingerReturns top at_ => exact .inr (.lingerReturns at_)
  | reclaimedRecord top at_ wanted =>
    rw [← collect_worker o _ _ _ .getting]
    exact .inr (.reclaimedRecord at_ wanted)
  | reclaimedNothing top at_ wanted => exact .inr (.reclaimedNothing at_ wanted)
  | cancelledGetting top at_ cancelled => exact .inr (.cancelledGetting at_ cancelled)
  | cancelledReclaiming top at_ cancelled => exact .inr (.cancelledReclaiming at_ cancelled)
  | sinkAnswers top at_ => exact .inr (.sinkAnswers at_)
  | flushSettles top found waiting truthful => exact .inr (.flushSettles found waiting truthful)
  | stopTimesOut top at_ => exact .inl ⟨rfl, fun _ live => live, rfl⟩
  | stopJoins top at_ => exact .inl ⟨rfl, fun _ live => live, rfl⟩
  | stopCancelledDraining top at_ => exact .inl ⟨rfl, fun _ live => live, rfl⟩
  | stopInterrupted top at_ => exact .inr (.stopInterrupted at_)
  | stopCancelledClosing top at_ => exact .inr (.stopCancelledClosing at_)
  | workerGathered top ended at_ => exact .inl ⟨rfl, fun _ live => live, rfl⟩
  | gatherRaises top ended at_ => exact .inr (.gatherRaises ended at_)
  | closeSettles top at_ => exact .inr (.closeSettles at_)

end State

end Audr.PyPipeline
