import Audr.PyPipeline.Batches

/-! Whether the delivery worker survives its sink. Only an exception that leaves the
`finally` block of `_worker` ends it while the pipeline runs, and such an exception comes
from an answer that cannot be read, or from a callback that lets one escape. Otherwise
the worker goes on: every record queued comes nearer to the sink with each of its steps. -/

namespace Audr.PyPipeline

open Transition (Run anyStep)

variable {R : Type}

/-- Operations that will end the worker when they are done. -/
def Op.raises : Op R → Bool
  | .tryEnds _ raising => raising
  | .conclude _ _ raising => raising
  | _ => false

namespace State

/-- The steps that do not raise through the worker: the sink answers with a well-formed
result or an `Exception`, and a callback run by the worker lets nothing else escape. -/
def behaves (s : State R) : Act R → Bool
  | .sinkAnswers (.malformed _ _ _) => false
  | .sinkAnswers .escape => false
  | .sinkAnswers .cancelled => s.cancelRequested
  | .leave .escapes =>
      match s.catcher with
      | .tryEnds _ _ :: _ => false
      | .conclude _ _ _ :: _ => false
      | _ => true
  | _ => true

/-- An exception is on its way through the worker. -/
def raising (s : State R) : Bool := s.todo.any Op.raises

variable {s t : State R} {o : Options}

theorem Accounted.calm (accounted : Accounted s t) : t.raising = s.raising := by
  obtain ⟨above, todo, calls⟩ := accounted.above
  have none : above.any Op.raises = false := by
    rw [List.any_eq_false]
    intro op member
    have called := calls op member
    cases op <;> first | exact Bool.false_ne_true | cases called
  rw [raising, todo, List.any_append, none, Bool.false_or]
  rfl

theorem raising_push (ops : List (Op R)) (s : State R) :
    (push ops s).raising = (ops.any Op.raises || s.raising) := by
  rw [raising, push, List.any_append]
  rfl

theorem raising_pop {op : Op R} {rest : List (Op R)} (top : s.todo = op :: rest) :
    s.raising = (op.raises || (s.pop rest).raising) := by
  rw [raising, top, List.any_cons]
  rfl

theorem raising_tail {rest : List (Op R)} (sub : ∀ op ∈ rest, op ∈ s.todo) (calm : s.raising = false) :
    (s.pop rest).raising = false := by
  rw [raising, List.any_eq_false] at calm ⊢
  exact fun op member => calm op (sub op member)

section Answer
variable [AudrRecord R]

theorem raising_answer {batch : List Ref} {settled : SinkAnswer} (calm : s.raising = false)
    (permitted : s.behaves (.sinkAnswers settled) = true) (wanted : s.cancelRequested = false) :
    (answer batch settled s).raising = false := by
  have none (items : List (InFlight R)) : (applyAnswer items settled).1.any Op.raises = false := by
    rw [List.any_eq_false]
    intro op member
    have accounts := applyAnswer_accounts _ _ op member
    cases op <;> first | exact Bool.false_ne_true | cases accounts
  have returns (items : List (InFlight R)) : (applyAnswer items settled).2 = false := by
    cases settled with
    | result => rfl
    | exception => rfl
    | malformed => cases permitted
    | escape => cases permitted
    | cancelled =>
      rw [show s.cancelRequested = true from permitted] at wanted
      cases wanted
  rw [answer, raising_push, List.any_append, none, List.any_cons, List.any_nil, Op.raises, returns]
  exact calm

end Answer

theorem raising_finish {batch : List Ref} {raises : Bool} (calm : s.raising = false) :
    (finish batch raises s).raising = false := by
  obtain ⟨_, _, _, _, done⟩ := tasksDone_eq batch s
  rw [finish, done]
  exact calm

theorem raising_collect {batch : List Ref} {expired : Bool} (calm : s.raising = false) :
    (collect o batch expired s).raising = false := by
  rcases collect_cases o batch expired s with ⟨size, _, out⟩ | ⟨_, _, _, waits⟩
  · rw [out]
    exact calm
  · rw [waits]
    exact calm

/-- An exception that escapes from user code outside of a delivery raises nothing in the worker. -/
theorem raising_unwind {rest : List (Op R)} (calm : (s.pop rest).raising = false)
    (elsewhere : ∀ batch raising below, rest.dropWhile (fun op => !op.catches) ≠ .tryEnds batch raising :: below)
    (outside : ∀ pending batch raising below,
      rest.dropWhile (fun op => !op.catches) ≠ .conclude pending batch raising :: below) :
    (unwind rest (s.pop rest)).raising = false := by
  have sub : ∀ op ∈ rest.dropWhile (fun op => !op.catches), op ∈ rest :=
    fun op member => (List.dropWhile_sublist _).subset member
  have still : (rest.dropWhile fun op => !op.catches).any Op.raises = false := by
    rw [raising, List.any_eq_false] at calm
    rw [List.any_eq_false]
    exact fun op member => calm op (sub op member)
  unfold unwind
  split
  next shape => exact absurd shape (elsewhere _ _ _)
  next shape => exact absurd shape (outside _ _ _ _)
  next shape =>
    rw [shape] at still
    exact still
  next shape =>
    rw [shape] at still
    exact still
  next => exact still

/-- No step that behaves raises an exception through a worker that may not be cancelled. -/
theorem Move.calm [AudrRecord R] {act : Act R} (move : Move o s act t) (permitted : s.behaves act = true)
    (wanted : s.cancelRequested = false) (calm : s.raising = false) : t.raising = false := by
  have popped {op : Op R} {rest : List (Op R)} (top : s.todo = op :: rest) : (s.pop rest).raising = false :=
    raising_tail (fun op member => top ▸ List.mem_cons_of_mem _ member) calm
  have counts {rest : List (Op R)} {op : Op R} {u : State R} (top : s.todo = op :: rest)
      (accounted : Accounted (s.pop rest) u) : u.raising = false := accounted.calm.trans (popped top)
  have pushes {ops : List (Op R)} {u : State R} (none : ops.any Op.raises = false)
      (calm : u.raising = false) : (push ops u).raising = false := by
    rw [raising_push, none, calm]
    rfl
  cases move with
  | returned top => exact popped top
  | fail top => exact counts top (accounted_fail o _ _ _ _ _ _)
  | markSent top => exact counts top (accounted_markSent _ _)
  | notifyDelivered top => exact counts top (accounted_notifyDelivered o _ _)
  | tryEnds top =>
    have quiet := raising_pop top
    rw [calm] at quiet
    obtain ⟨none, rest⟩ := Bool.or_eq_false_iff.mp quiet.symm
    exact pushes (by simpa [Op.raises] using none) rest
  | @concludeItem ref pending batch raising rest top =>
    have quiet := raising_pop top
    rw [calm] at quiet
    obtain ⟨none, quiet⟩ := Bool.or_eq_false_iff.mp quiet.symm
    have ready : (push [.releaseInFlight ref, .conclude pending batch raising] (s.pop rest)).raising = false :=
      pushes (by simpa [Op.raises] using none) quiet
    exact (accounted_fail o _ _ _ _ _ _).calm.trans ready
  | finish top => exact raising_finish (popped top)
  | releaseInFlight top => exact popped top
  | @abandonQueue rest top =>
    have ready := popped top
    unfold State.abandonQueue
    split
    next q others queued =>
      obtain ⟨_, _, _, _, done⟩ := taskDone_eq { s.pop rest with queue := others }
      refine (accounted_notifyFailure o _ _ _).calm.trans ?_
      rw [done]
      exact show (push [.abandonQueue] _).raising = false from pushes rfl ready
    next => exact pushes rfl ready
  | @abandonItems pending rest top =>
    cases pending with
    | nil => exact popped top
    | cons ref pending =>
      have ready : (push [.abandonItems pending] (s.pop rest)).raising = false := pushes rfl (popped top)
      exact (accounted_fail o _ _ _ _ _ _).calm.trans ready
  | shutdown top =>
    unfold State.shutdown
    split_ifs
    · exact pushes rfl (popped top)
    · exact popped top
  | closeSink top => exact popped top
  | @submit record site rest top =>
    rcases submit_cases o record s with ⟨_, refused, _⟩ | ⟨_, _, queued⟩
    · exact refused.calm.trans calm
    · rw [queued]
      exact calm
  | flush top =>
    unfold State.flush
    split_ifs <;> exact calm
  | stop top =>
    unfold State.beginStop
    split_ifs <;> exact calm
  | start top =>
    unfold State.start
    split_ifs <;> exact calm
  | leaves top => exact popped top
  | @escapes site rest top =>
    have catcher : s.catcher = rest.dropWhile fun op => !op.catches := by rw [State.catcher, top, List.tail_cons]
    refine raising_unwind (popped top) ?_ ?_
    · intro batch raising below shape
      simp [behaves, catcher, shape] at permitted
    · intro pending batch raising below shape
      simp [behaves, catcher, shape] at permitted
  | task top => exact pushes rfl calm
  | workerGets top at_ queue wanted => exact raising_collect calm
  | reclaimedRecord top at_ wanted => exact raising_collect calm
  | sinkAnswers top at_ => exact raising_answer calm permitted wanted
  | stopTimesOut top at_ => exact pushes rfl calm
  | stopJoins top at_ => exact pushes rfl calm
  | stopCancelledDraining top at_ => exact pushes rfl calm
  | workerGathered top ended at_ => exact pushes rfl calm
  | _ => exact calm

/-- Only `start` and `stop` change the flags. -/
theorem Turn.flags [AudrRecord R] {act : Act R} (turn : Turn o s act t) :
    (t.running = s.running ∧ t.stopped = s.stopped) ∨ t = State.beginStop s ∨ t = State.start s := by
  cases turn with
  | @finish batch raising =>
    obtain ⟨_, _, _, _, done⟩ := tasksDone_eq batch (s.pop [])
    rw [State.finish, done]
    exact .inl ⟨rfl, rfl⟩
  | @abandonQueue rest called =>
    rcases abandonQueue_cases o (s.pop rest) with ⟨q, others, _, framed⟩ | ⟨_, framed⟩
    · obtain ⟨_, _, _, _, done⟩ := taskDone_eq { s.pop rest with queue := others }
      rw [done] at framed
      exact .inl ⟨congrArg (fun s => s.running) framed, congrArg (fun s => s.stopped) framed⟩
    · exact .inl ⟨congrArg (fun s => s.running) framed, congrArg (fun s => s.stopped) framed⟩
  | shutdown =>
    unfold State.shutdown
    split_ifs <;> exact .inl ⟨rfl, rfl⟩
  | @submit record =>
    rcases submit_cases o record s with ⟨_, refused, _⟩ | ⟨_, _, queued⟩
    · exact .inl ⟨congrArg (fun s => s.running) refused.frame, congrArg (fun s => s.stopped) refused.frame⟩
    · rw [queued]
      exact .inl ⟨rfl, rfl⟩
  | flush =>
    unfold State.flush
    split_ifs <;> exact .inl ⟨rfl, rfl⟩
  | stop => exact .inr (.inl rfl)
  | start => exact .inr (.inr rfl)
  | @spills pending batch =>
    obtain ⟨_, _, _, _, done⟩ := tasksDone_eq batch (s.pop [])
    rw [State.finish, done]
    exact .inl ⟨rfl, rfl⟩
  | workerGets =>
    rcases collect_cases o _ _ _ with ⟨size, _, out⟩ | ⟨_, _, _, waits⟩
    · rw [out]
      exact .inl ⟨rfl, rfl⟩
    · rw [waits]
      exact .inl ⟨rfl, rfl⟩
  | reclaimedRecord =>
    rcases collect_cases o _ _ _ with ⟨size, _, out⟩ | ⟨_, _, _, waits⟩
    · rw [out]
      exact .inl ⟨rfl, rfl⟩
    · rw [waits]
      exact .inl ⟨rfl, rfl⟩
  | _ => exact .inl ⟨rfl, rfl⟩

theorem Move.flags [AudrRecord R] {act : Act R} (move : Move o s act t) (control : s.Control) :
    (t.running = s.running ∧ t.stopped = s.stopped) ∨ t = State.beginStop s ∨ t = State.start s := by
  rcases move.turn control with ⟨framed, _, _⟩ | turn
  · exact .inl ⟨congrArg (fun s => s.running) framed, congrArg (fun s => s.stopped) framed⟩
  · exact turn.flags

/-- A stop is never taken back. -/
theorem opened_before [AudrRecord R] {act : Act R} (move : Move o s act t) (control : s.Control)
    (opened : t.stopped = false) : s.stopped = false := by
  rcases move.flags control with ⟨_, stopped⟩ | rfl | rfl
  · rw [← stopped]
    exact opened
  · unfold beginStop at opened
    split_ifs at opened with stopped
    · exact opened
  · unfold start at opened
    split_ifs at opened <;> exact opened

/-- A pipeline is started once: what runs after a step was running before it. -/
theorem begun_before [AudrRecord R] {act : Act R} (move : Move o s act t) (control : s.Control)
    (begun : s.running = true ∨ s.stopped = true) :
    (t.running = true ∨ t.stopped = true) ∧ (t.running = true → s.running = true) := by
  rcases move.flags control with ⟨running, stopped⟩ | rfl | rfl
  · rw [running, stopped]
    exact ⟨begun, id⟩
  · unfold beginStop
    split_ifs with stopped
    · exact ⟨begun, id⟩
    · exact ⟨.inr rfl, nofun⟩
  · have started : (s.running || s.stopped) = true := Bool.or_eq_true_iff.mpr begun
    rw [start, if_pos started]
    exact ⟨begun, id⟩

/-- Until a stop is called the worker goes on and nothing is about to end it. -/
structure Alive (s : State R) : Prop where
  calm : s.stopped = false → s.raising = false
  going : s.stopped = false → s.worker ≠ .ended

theorem Turn.going [AudrRecord R] {act : Act R} (turn : Turn o s act t) (permitted : s.behaves act = true)
    (wanted : s.cancelRequested = false) (uncalled : s.stop = .notCalled) (calm : s.raising = false)
    (going : s.worker ≠ .ended) : t.worker ≠ .ended := by
  cases turn with
  | @finish batch raising top =>
    have none : raising = false := by simpa [State.raising, top, Op.raises] using calm
    rw [State.finish, none]
    simp
  | abandonQueue called => exact absurd uncalled called
  | shutdown called => exact absurd uncalled called
  | @submit record =>
    rcases submit_cases o record s with ⟨_, refused, _⟩ | ⟨_, _, queued⟩
    · have worker : (State.submit o record s).worker = s.worker := congrArg (fun s => s.worker) refused.frame
      rw [worker]
      exact going
    · rw [queued]
      exact going
  | flush =>
    unfold State.flush
    split_ifs <;> exact going
  | stop =>
    unfold State.beginStop
    split_ifs <;> exact going
  | start =>
    unfold State.start
    split_ifs
    · exact going
    · simp
  | spills caught at_ => simp [behaves, caught] at permitted
  | workerGets => exact collect_going o _ _ _
  | reclaimedRecord => exact collect_going o _ _ _
  | getTaskPops => simp
  | lingerReturns => simp
  | reclaimedNothing => simp [deliver]
  | sinkAnswers => simp [answer, push]
  | cancelledGetting at_ cancelled =>
    rw [wanted] at cancelled
    cases cancelled
  | cancelledReclaiming at_ cancelled =>
    rw [wanted] at cancelled
    cases cancelled
  | _ => exact going

theorem Alive.move [AudrRecord R] {act : Act R} (alive : s.Alive) (control : s.Control)
    (permitted : s.behaves act = true) (move : Move o s act t) : t.Alive := by
  refine ⟨fun opened => ?_, fun opened => ?_⟩
  · have before := opened_before move control opened
    exact move.calm permitted (control.phased.uncalled before).2 (alive.calm before)
  · have before := opened_before move control opened
    obtain ⟨uncalled, wanted⟩ := control.phased.uncalled before
    rcases move.turn control with ⟨framed, _, _⟩ | turn
    · have worker : t.worker = s.worker := congrArg (fun s => s.worker) framed
      rw [worker]
      exact alive.going before
    · exact turn.going permitted wanted uncalled (alive.calm before) (alive.going before)

theorem alive_initial : (initial R).Alive := ⟨fun _ => rfl, nofun⟩

end State

end Audr.PyPipeline
