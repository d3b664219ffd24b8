import Audr.Lib.Transition
import Audr.PyPipeline.Conservation

/-! When the Python pipeline stays in drain mode. Every flush sets the one event on entry and
clears it when it returns, whoever else waits; so the mode lasts for an outstanding flush as
long as flushes return one at a time. -/

namespace Audr.PyPipeline

open Transition (Run)

variable {R : Type}

def WorkerAt.lingers : WorkerAt R → Bool
  | .lingering _ _ => true
  | _ => false

namespace State

variable {s t : State R} {o : Options}

/-- A flush has not returned. -/
def Outstanding (s : State R) : Prop := ∃ flush ∈ s.flushes, flush.settled = false

instance (s : State R) : Decidable s.Outstanding := inferInstanceAs (Decidable (∃ flush ∈ s.flushes, flush.settled = false))

/-- Drain mode: the event is set, which also wakes a worker that lingers already, and no step
makes the worker start to linger. -/
structure DrainMode [AudrRecord R] (o : Options) (s : State R) : Prop where
  event : s.draining = true
  prompt : ∀ act t, step o s act = some t → t.worker.lingers = true → s.worker.lingers = true

/-- Before a stop, a flush returns only when no other one waits. -/
def returnsLast (s : State R) : Act R → Bool
  | .flushSettles flush _ => s.stopped || (s.flushes.eraseIdx flush).all Flush.settled
  | _ => true

/-- The event is set while a flush waits and once `stop` was called; and no flush waits in a
pipeline that was not started. -/
structure Drained (s : State R) : Prop where
  event : s.Outstanding → s.draining = true
  stopping : s.stopped = true → s.draining = true
  idle : s.running = false → s.stopped = false → ¬s.Outstanding

/-- What the mode rests on. -/
def mode (s : State R) : Bool × Bool × Bool × List Bool :=
  (s.running, s.stopped, s.draining, s.flushes.map Flush.settled)

theorem outstanding_iff : s.Outstanding ↔ false ∈ s.flushes.map Flush.settled := by
  rw [Outstanding, List.mem_map]

theorem Drained.congr (drained : s.Drained) (same : t.mode = s.mode) : t.Drained := by
  simp only [mode, Prod.mk.injEq] at same
  obtain ⟨running, stopped, draining, flushes⟩ := same
  have outstanding : t.Outstanding ↔ s.Outstanding := by rw [outstanding_iff, outstanding_iff, flushes]
  refine ⟨?_, ?_, ?_⟩
  · rw [outstanding, draining]
    exact drained.event
  · rw [stopped, draining]
    exact drained.stopping
  · rw [running, stopped, outstanding]
    exact drained.idle

theorem mode_joinAll (s : State R) : (joinAll s).mode = s.mode := by
  simp [mode, joinAll, Function.comp_def]

theorem mode_taskDone (s : State R) : (taskDone s).mode = s.mode := by
  rcases taskDone_cases s with done | ⟨_, done⟩
  · rw [done]
    rfl
  · rw [done]
    exact mode_joinAll s

theorem mode_tasksDone (refs : List Ref) (s : State R) : (tasksDone refs s).mode = s.mode := by
  induction refs generalizing s with
  | nil => rfl
  | cons ref rest ih => exact (ih (taskDone s)).trans (mode_taskDone s)

theorem mode_framed (same : t.frame = s.frame) : t.mode = s.mode := by
  change t.frame.mode = s.frame.mode
  rw [same]

theorem mode_collect (o : Options) (batch : List Ref) (expired : Bool) (s : State R) :
    (collect o batch expired s).mode = s.mode := by
  rcases collect_cases o batch expired s with ⟨size, _, out⟩ | ⟨_, _, _, waits⟩
  · rw [out]
    rfl
  · rw [waits]
    rfl

theorem mode_abandonQueue (o : Options) (s : State R) : (abandonQueue o s).mode = s.mode := by
  rcases abandonQueue_cases o s with ⟨q, rest, _, framed⟩ | ⟨_, framed⟩
  · exact (mode_framed framed).trans (mode_taskDone _)
  · exact mode_framed framed

theorem mode_submit (o : Options) (record : R) (s : State R) : (submit o record s).mode = s.mode := by
  rcases submit_cases o record s with ⟨_, refused, _⟩ | ⟨_, _, queued⟩
  · exact (mode_framed refused.frame).trans rfl
  · rw [queued]
    rfl

theorem Drained.flush (drained : s.Drained) : (flush s).Drained := by
  unfold State.flush
  split
  · exact drained.congr rfl
  next running => exact ⟨fun _ => rfl, fun _ => rfl, fun stopped => absurd stopped (by simpa using running)⟩

theorem Drained.beginStop (drained : s.Drained) : (beginStop s).Drained := by
  unfold State.beginStop
  split
  · exact drained
  · exact ⟨fun _ => rfl, fun _ => rfl, nofun⟩

theorem Drained.start (drained : s.Drained) : (start s).Drained := by
  unfold State.start
  split
  · exact drained
  next begun =>
    simp only [Bool.or_eq_true, not_or, Bool.not_eq_true] at begun
    have none := drained.idle begun.1 begun.2
    exact ⟨fun waiting => absurd waiting none, fun stopped => absurd stopped (by simp [begun.2]), nofun⟩

/-- After a flush has returned, the others wait. -/
theorem outstanding_set {flush : Nat} {f : Flush} (found : s.flushes[flush]? = some f) :
    (∃ other ∈ s.flushes.set flush { f with settled := true }, other.settled = false) ↔
      ¬(s.flushes.eraseIdx flush).all Flush.settled = true := by
  obtain ⟨bound, rfl⟩ := List.getElem?_eq_some_iff.mp found
  rw [List.set_eq_take_append_cons_drop, if_pos bound, List.eraseIdx_eq_take_drop_succ, List.all_eq_true]
  push Not
  simp [or_and_right, exists_or]

theorem Drained.turn [AudrRecord R] {act : Act R} (drained : s.Drained) (permitted : s.returnsLast act = true)
    (turn : Turn o s act t) : t.Drained := by
  cases turn with
  | @finish batch raising => exact drained.congr (mode_tasksDone batch _)
  | abandonQueue called => exact drained.congr (mode_abandonQueue o _)
  | shutdown called =>
    unfold State.shutdown
    split_ifs <;> exact drained.congr rfl
  | submit => exact drained.congr (mode_submit o _ s)
  | flush => exact drained.flush
  | stop => exact drained.beginStop
  | start => exact drained.start
  | @spills pending batch raising => exact drained.congr (mode_tasksDone batch _)
  | workerGets => exact drained.congr (mode_collect o _ _ _)
  | reclaimedRecord => exact drained.congr (mode_collect o _ _ _)
  | @flushSettles flush result f found waiting truthful =>
    simp only [returnsLast, Bool.or_eq_true] at permitted
    by_cases stopped : s.stopped = true
    · have set := drained.stopping stopped
      refine ⟨fun _ => ?_, fun _ => ?_, fun _ running => absurd running (by simp [stopped])⟩ <;> simp [stopped, set]
    · have last := permitted.resolve_left stopped
      refine ⟨fun outstanding => absurd last ((outstanding_set found).mp outstanding), fun _ => absurd ‹_› stopped, fun _ _ outstanding => ?_⟩
      exact absurd last ((outstanding_set found).mp outstanding)
  | _ => exact drained.congr rfl

theorem Drained.move [AudrRecord R] {act : Act R} (drained : s.Drained) (control : s.Control)
    (permitted : s.returnsLast act = true) (move : Move o s act t) : t.Drained := by
  rcases move.turn control with ⟨framed, _, _⟩ | turn
  · exact drained.congr (mode_framed framed)
  · exact drained.turn permitted turn

theorem drained_initial : (initial R).Drained := ⟨nofun, nofun, fun _ _ => nofun⟩

theorem collect_prompt (o : Options) (batch : List Ref) (expired : Bool) (drains : s.draining = true) :
    (collect o batch expired s).worker.lingers = false := by
  rcases collect_cases o batch expired s with ⟨size, _, out⟩ | ⟨_, idle, _, _⟩
  · rw [out]
    rfl
  · rw [drains] at idle
    cases idle

/-- With the event set, the worker does not start to linger. -/
theorem Turn.prompt [AudrRecord R] {act : Act R} (turn : Turn o s act t) (drains : s.draining = true)
    (lingers : t.worker.lingers = true) : s.worker.lingers = true := by
  cases turn with
  | @finish batch raising =>
    cases raising <;> cases lingers
  | @abandonQueue rest called =>
    have worker : (State.abandonQueue o (s.pop rest)).worker = s.worker := by
      rcases abandonQueue_cases o (s.pop rest) with ⟨q, others, _, framed⟩ | ⟨_, framed⟩
      · obtain ⟨_, _, _, _, done⟩ := taskDone_eq { s.pop rest with queue := others }
        rw [done] at framed
        exact congrArg (fun s => s.worker) framed
      · exact congrArg (fun s => s.worker) framed
    rwa [worker] at lingers
  | shutdown called =>
    unfold State.shutdown at lingers
    split_ifs at lingers <;> exact lingers
  | @submit record =>
    rcases submit_cases o record s with ⟨_, refused, _⟩ | ⟨_, _, queued⟩
    · have worker : (State.submit o record s).worker = s.worker := congrArg (fun s => s.worker) refused.frame
      rwa [worker] at lingers
    · rwa [queued] at lingers
  | flush =>
    unfold State.flush at lingers
    split_ifs at lingers <;> exact lingers
  | stop =>
    unfold State.beginStop at lingers
    split_ifs at lingers <;> exact lingers
  | start =>
    unfold State.start at lingers
    split_ifs at lingers
    · exact lingers
    · cases lingers
  | @spills pending batch raising =>
    cases lingers
  | workerGets => cases (collect_prompt o _ _ (by exact drains)).symm.trans lingers
  | getTaskPops at_ => simp [at_, WorkerAt.lingers]
  | reclaimedRecord => cases (collect_prompt o _ _ (by exact drains)).symm.trans lingers
  | flushSettles => exact lingers
  | _ => first | exact lingers | cases lingers

end State

open State

section Runs

variable [AudrRecord R] {o : Options} {labels : List (Act R)} {s : State R}

/-- Reachable with flushes that return one at a time. -/
abbrev ReachesInTurn (o : Options) (labels : List (Act R)) (s : State R) : Prop :=
  Run (step o) (fun s act => s.returnsLast act = true) (initial R) labels s

theorem drained_run (run : ReachesInTurn o labels s) : s.Drained ∧ s.Control :=
  run.invariant (fun s => s.Drained ∧ s.Control) ⟨drained_initial, control_initial⟩
    fun _ _ _ ⟨drained, control⟩ permitted taken =>
      ⟨drained.move control permitted (step_moves taken), control.move (step_moves taken)⟩

/-- While a flush is outstanding the pipeline is in drain mode, if flushes return one at a time;
and it is not as soon as one returns before another that waits. -/
theorem flush_drains (run : ReachesInTurn o labels s) :
    (s.Outstanding → s.DrainMode o) ∧
      ∀ act t, step o s act = some t → s.returnsLast act = false → t.Outstanding ∧ ¬t.DrainMode o := by
  obtain ⟨drained, control⟩ := drained_run run
  refine ⟨fun outstanding => ⟨drained.event outstanding, fun act t taken lingers => ?_⟩, fun act t taken early => ?_⟩
  · rcases (step_moves taken).turn control with ⟨framed, _, _⟩ | turn
    · have worker : t.worker = s.worker := congrArg (fun s => s.worker) framed
      rwa [worker] at lingers
    · exact turn.prompt (drained.event outstanding) lingers
  · cases step_moves taken with
    | @flushSettles flush result f top found waiting truthful =>
      simp only [returnsLast, Bool.or_eq_false_iff] at early
      refine ⟨(outstanding_set found).mpr (by simp [early.2]), fun mode => ?_⟩
      have event := mode.event
      simp [early.1] at event
    | _ => cases early

end Runs

/-- Two overlapping flushes, each with a record of its own to wait for. -/
def overlapLabels : List (Act String) :=
  [.task, .start, .submit "a", .flush, .leave .returns, .workerGets false, .task, .submit "b", .flush, .leave .returns]

def overlapping : State String :=
  (Transition.executeWithin (step smallOptions) (fun s act => s.returnsLast act = true) (initial String)
    overlapLabels).getD (initial String)

theorem flush_drains_overlapping : overlapping.flushes.map Flush.settled = [false, false] ∧
    overlapping.DrainMode smallOptions := by
  have run : ReachesInTurn smallOptions overlapLabels overlapping := Run.of_executeWithin rfl
  exact ⟨rfl, (flush_drains run).1 (by decide)⟩

/-- The first flush expires before the sink has answered. -/
def heldLabels : List (Act String) :=
  [.task, .start, .submit "a", .flush, .leave .returns, .workerGets false, .task, .submit "b", .flush, .leave .returns,
    .flushSettles 0 (some false), .sinkAnswers (.result (.accepted [] [])), .next, .next, .leave .returns, .next, .next,
    .next, .next, .workerGets false]

def heldBack : State String :=
  (Transition.execute (step smallOptions) (initial String) heldLabels).getD (initial String)

/-- The first of two flushes expires; the second still waits when the worker starts to linger
with the record it waits for. -/
theorem flush_held_back : Reaches smallOptions heldLabels heldBack ∧ heldBack.Outstanding ∧ heldBack.draining = false ∧
    heldBack.worker = .lingering [1] none ∧ ¬heldBack.DrainMode smallOptions :=
  ⟨Run.of_execute rfl, by decide, by decide, by decide, fun mode => absurd mode.event (by decide)⟩

end Audr.PyPipeline
