import Audr.Lib.Batching
import Audr.PyPipeline.Flushes

/-! What the Python pipeline owes a sink, and how far its queue stays within its bound.
The pipeline refines a batching queue whose waiting numbers are the batch being collected,
the record the helper task has taken, and the queue. The admission test of `submit`
leaves out the second of these. -/

namespace Audr.PyPipeline

open Batching (Traffic Disciplined)
open Transition (Run anyStep)

variable {R : Type}

/-- The batch that is not handed over yet. -/
def WorkerAt.collecting : WorkerAt R → List Ref
  | .lingering batch _ => batch
  | .reclaiming batch _ => batch
  | _ => []

/-- Whether a call of the sink is unanswered. -/
def WorkerAt.calling : WorkerAt R → Bool
  | .delivering _ => true
  | _ => false

namespace State

def waiting (s : State R) : List Ref :=
  s.worker.collecting ++ s.worker.popped.map Queued.ref ++ s.queueRefs

/-- The batching queue a state of the pipeline stands for. -/
def traffic (s : State R) : Traffic where
  offered := s.submitted
  accepted := s.accepted
  waiting := s.waiting
  handed := s.handed
  answered := s.answered
  calling := s.worker.calling
  closed := s.stopped

/-- A batch being collected has place for one more. -/
def Fitting (o : Options) (s : State R) : Prop :=
  s.worker.collecting ≠ [] → s.worker.collecting.length < o.batchMaxSize

abbrev Carries (o : Options) (s t : State R) : Prop :=
  Batching.Steps o.batchMaxSize true s.traffic t.traffic

variable {s t u : State R} {o : Options}

/-- The part of the state that the batching queue shows, besides what is waiting. -/
def shown (s : State R) : Nat × List Ref × List (List Ref) × Nat × Bool :=
  (s.submitted, s.accepted, s.handed, s.answered, s.stopped)

theorem Carries.congr (waiting : t.waiting = s.waiting) (calling : t.worker.calling = s.worker.calling)
    (same : t.shown = s.shown) : Carries o s t := by
  simp only [shown, Prod.mk.injEq] at same
  obtain ⟨submitted, accepted, handed, answered, stopped⟩ := same
  have equal : t.traffic = s.traffic := by
    simp only [traffic, submitted, accepted, waiting, handed, answered, calling, stopped]
  rw [Carries, equal]

/-- A batch goes out from the front of what was waiting, or goes on collecting there. -/
theorem carries_collect {batch : List Ref} {expired : Bool} (some : batch ≠ [])
    (fits : batch.length ≤ o.batchMaxSize) (front : s.waiting = batch ++ t.queueRefs)
    (idle : s.worker.calling = false)
    (same : t.shown = s.shown) :
    Carries o s (collect o batch expired t) ∧ (collect o batch expired t).Fitting o := by
  rcases collect_cases o batch expired t with ⟨size, room, out⟩ | ⟨below, _, _, waits⟩
  · simp only [shown, Prod.mk.injEq] at same
    obtain ⟨submitted, accepted, handed, answered, stopped⟩ := same
    rw [out]
    refine ⟨?_, fun collecting => absurd rfl collecting⟩
    have taken : s.waiting.take (batch.length + size) = batch ++ (t.queue.take size).map Queued.ref := by
      rw [front, List.take_append, List.take_of_length_le (Nat.le_add_right _ _), Nat.add_sub_cancel_left,
        queueRefs, List.map_take]
    have left : s.waiting.drop (batch.length + size) = (t.queue.drop size).map Queued.ref := by
      rw [front, List.drop_append, List.drop_eq_nil_of_le (Nat.le_add_right _ _), Nat.add_sub_cancel_left,
        List.nil_append, queueRefs, List.map_drop]
    have next : (deliver (batch ++ (t.queue.take size).map Queued.ref) (takeUp size t)).traffic =
        s.traffic.hand (batch.length + size) := by
      simp only [traffic, Traffic.hand, taken, left, ← submitted, ← accepted, ← handed, ← answered, ← stopped]
      rfl
    rw [Carries, next]
    refine .single (.hand _ (by omega) ?_ idle)
    change s.waiting.take _ ≠ []
    rw [taken]
    simp [some]
  · rw [waits]
    refine ⟨Carries.congr ?_ idle.symm same, fun _ => below⟩
    rw [front]
    simp [State.waiting, WorkerAt.collecting, WorkerAt.popped, queueRefs]

/-- What is waiting and shown depends on the frame alone. -/
theorem traffic_framed (same : t.frame = s.frame) : t.traffic = s.traffic :=
  show t.frame.traffic = s.frame.traffic from congrArg State.traffic same

theorem Fitting.congr (fitting : s.Fitting o) (worker : t.worker = s.worker) : t.Fitting o := by
  unfold Fitting
  rw [worker]
  exact fitting

theorem carries_finish {batch : List Ref} {raising : Bool} (at_ : s.worker = .concluding batch)
    (queue : t.queue = s.queue) (same : t.shown = s.shown) :
    Carries o s (finish batch raising t) ∧ (finish batch raising t).Fitting o := by
  obtain ⟨_, _, _, _, done⟩ := tasksDone_eq batch t
  rw [finish, done]
  refine ⟨Carries.congr ?_ ?_ same, ?_⟩
  · simp only [waiting, queueRefs, queue, at_]
    cases raising <;> rfl
  · rw [at_]
    cases raising <;> rfl
  · cases raising <;> exact fun collecting => absurd rfl collecting

/-- Every step is some steps of the batching queue. -/
theorem Turn.carries [AudrRecord R] {act : Act R} (turn : Turn o s act t) (control : s.Control)
    (tasks : s.Tasks) (fitting : s.Fitting o) : Carries o s t ∧ t.Fitting o := by
  have stays {u : State R} (same : u.shown = s.shown) (worker : u.worker = s.worker)
      (queue : u.queue = s.queue) : Carries o s u ∧ u.Fitting o := by
    refine ⟨.congr ?_ (by rw [worker]) same, fitting.congr worker⟩
    simp only [waiting, queueRefs, worker, queue]
  cases turn with
  | finish top at_ empty => exact carries_finish at_ rfl rfl
  | @abandonQueue rest called =>
    have closed := (control.phased.halted called).1
    rcases abandonQueue_cases o (s.pop rest) with ⟨q, others, queued, framed⟩ | ⟨_, framed⟩
    · have full : s.queue = q :: others := queued
      obtain ⟨_, _, _, _, done⟩ := taskDone_eq { s.pop rest with queue := others }
      rw [done] at framed
      have worker : (State.abandonQueue o (s.pop rest)).worker = s.worker := congrArg (fun s => s.worker) framed
      have fewer : (s.worker.collecting ++ s.worker.popped.map Queued.ref ++ others.map Queued.ref).Sublist
          s.waiting := by
        rw [waiting, queueRefs, full, List.map_cons]
        exact (List.sublist_cons_self _ _).append_left _
      have kept : (State.abandonQueue o (s.pop rest)).traffic = s.traffic.keep
          (s.worker.collecting ++ s.worker.popped.map Queued.ref ++ others.map Queued.ref) :=
        traffic_framed framed
      refine ⟨?_, fitting.congr worker⟩
      rw [Carries, kept]
      exact .single (.keep _ rfl closed fewer)
    · have worker : _ = s.worker := congrArg (fun s => s.worker) framed
      have same : _ = s.traffic := traffic_framed framed
      exact ⟨by rw [Carries, same], fitting.congr worker⟩
  | shutdown called =>
    unfold State.shutdown
    split_ifs <;> exact stays rfl rfl rfl
  | @submit record =>
    rcases submit_cases o record s with ⟨_, refused, _⟩ | ⟨running, _, queued⟩
    · have worker : (State.submit o record s).worker = s.worker := congrArg (fun s => s.worker) refused.frame
      have next : (State.submit o record s).traffic = s.traffic.refuse := traffic_framed refused.frame
      refine ⟨?_, fitting.congr worker⟩
      rw [Carries, next]
      exact .single .refuse
    · have opened : s.traffic.closed = false := control.phased.running running
      rw [queued]
      refine ⟨?_, fitting⟩
      have next : ({ s with
          submitted := s.submitted + 1
          queue := s.queue ++ [⟨s.submitted, record⟩]
          unfinished := s.unfinished + 1
          accepted := s.accepted ++ [s.submitted]
          returned := s.returned ++ [(s.submitted, .queued)] } : State R).traffic = s.traffic.accept := by
        simp [traffic, Traffic.accept, waiting, queueRefs]
      rw [Carries, next]
      exact .single (.accept opened)
  | flush =>
    unfold State.flush
    split_ifs <;> exact stays rfl rfl rfl
  | stop =>
    unfold State.beginStop
    split_ifs
    · exact stays rfl rfl rfl
    · exact ⟨.single .close, fitting⟩
  | start =>
    unfold State.start
    split_ifs with begun
    · exact stays rfl rfl rfl
    · have absent : s.worker = .absent := by
        by_contra present
        have started := control.phased.started present
        simp_all
      refine ⟨Carries.congr ?_ (by rw [absent]; rfl) rfl, fun collecting => absurd rfl collecting⟩
      simp only [waiting, absent]
      rfl
  | spills caught at_ => exact carries_finish at_ rfl rfl
  | @workerGets expired q rest at_ empty queue wanted =>
    refine carries_collect (by simp) o.batch_pos ?_ (by rw [at_]; rfl) rfl
    simp [waiting, queueRefs, takeUp, queue, at_, WorkerAt.collecting, WorkerAt.popped]
  | getTaskPops at_ queue =>
    refine ⟨Carries.congr ?_ (by rw [at_]; rfl) rfl, fun _ => ?_⟩
    · rw [waiting, waiting, at_, queueRefs, queueRefs, queue]
      simp [WorkerAt.collecting, WorkerAt.popped]
    · have some := tasks.solid_at at_ rfl rfl
      have below : s.worker.collecting.length < o.batchMaxSize := fitting (by rw [at_]; exact some)
      rwa [at_] at below
  | lingerReturns at_ =>
    refine ⟨Carries.congr (by rw [waiting, waiting, at_]; rfl) (by rw [at_]; rfl) rfl, fun some => ?_⟩
    have below : s.worker.collecting.length < o.batchMaxSize := fitting (by rw [at_]; exact some)
    rwa [at_] at below
  | reclaimedRecord at_ wanted =>
    have some := tasks.solid_at at_ rfl rfl
    have below : s.worker.collecting.length < o.batchMaxSize := fitting (by rw [at_]; exact some)
    rw [at_] at below
    refine carries_collect (by simp) ?_ ?_ (by rw [at_]; rfl) rfl
    · rw [List.length_append]
      exact below
    · simp [waiting, queueRefs, beginInFlight, at_, WorkerAt.collecting, WorkerAt.popped]
  | @reclaimedNothing expired batch at_ wanted =>
    have some := tasks.solid_at at_ rfl rfl
    have below : s.worker.collecting.length < o.batchMaxSize := fitting (by rw [at_]; exact some)
    rw [at_] at below
    refine ⟨?_, fun collecting => absurd rfl collecting⟩
    have front : s.waiting = batch ++ s.queueRefs := by
      simp [waiting, at_, WorkerAt.collecting, WorkerAt.popped]
    have next : (deliver batch s).traffic = s.traffic.hand batch.length := by
      simp only [traffic, Traffic.hand, front, List.take_left, List.drop_left]
      rfl
    rw [Carries, next]
    refine .single (.hand _ (Nat.le_of_lt below) ?_ (by simp only [traffic, at_]; rfl))
    simp only [traffic, front, List.take_left]
    exact some
  | cancelledGetting at_ cancelled =>
    refine ⟨Carries.congr ?_ (by rw [at_]; rfl) rfl, fun collecting => absurd rfl collecting⟩
    rw [waiting, waiting, at_]
    rfl
  | @cancelledReclaiming batch popped at_ cancelled =>
    have closed : s.stopped = true := by
      refine Bool.of_not_eq_false fun open_ => ?_
      rw [(control.phased.uncalled open_).2] at cancelled
      cases cancelled
    refine ⟨?_, fun collecting => absurd rfl collecting⟩
    have next : ({ s with
        worker := .ended
        orphaned := s.orphaned ++ batch
        lost := s.lost ++ (popped.map Queued.ref).toList } : State R).traffic =
          s.traffic.keep s.queueRefs := by
      simp only [traffic, Traffic.keep, at_]
      rfl
    rw [Carries, next]
    exact .single (.keep _ rfl closed (List.sublist_append_right _ _))
  | @sinkAnswers settled batch at_ =>
    refine ⟨?_, fun collecting => absurd rfl collecting⟩
    have busy : s.traffic.calling = true := by simp only [traffic, at_]; rfl
    have next : (answer batch settled s).traffic = s.traffic.answer := by
      simp only [traffic, Traffic.answer, waiting, at_]
      rfl
    rw [Carries, next]
    exact .single (.answer busy)
  | _ => exact stays rfl rfl rfl

/-! The bound. -/

/-- No submission is admitted into the last place while the helper task holds a record
that the depth leaves out. -/
def keepsBound (o : Options) (s : State R) : Act R → Bool
  | .submit _ => !s.running || decide (o.maxQueueSize ≤ s.currentDepth) ||
      decide (s.currentDepth + s.worker.popped.length < o.maxQueueSize)
  | _ => true

/-- Until a stop is called nothing is cancelled, so nothing is lost. -/
def Lossless (s : State R) : Prop := s.stopped = false → s.lost = []

theorem Lossless.congr (lossless : s.Lossless) (stopped : t.stopped = s.stopped) (lost : t.lost = s.lost) :
    t.Lossless := by
  unfold Lossless
  rw [stopped, lost]
  exact lossless

theorem lossless_collect {batch : List Ref} {expired : Bool} (lossless : s.Lossless) :
    (collect o batch expired s).Lossless := by
  rcases collect_cases o batch expired s with ⟨size, _, out⟩ | ⟨_, _, _, waits⟩
  · rw [out]
    exact lossless
  · rw [waits]
    exact lossless

theorem lossless_finish {batch : List Ref} {raising : Bool} (lossless : s.Lossless) :
    (finish batch raising s).Lossless := by
  obtain ⟨_, _, _, _, done⟩ := tasksDone_eq batch s
  rw [finish, done]
  exact lossless

theorem Turn.lossless [AudrRecord R] {act : Act R} (turn : Turn o s act t) (control : s.Control)
    (lossless : s.Lossless) : t.Lossless := by
  cases turn with
  | finish => exact lossless_finish (s := s.pop []) lossless
  | @abandonQueue rest called =>
    rcases abandonQueue_cases o (s.pop rest) with ⟨q, others, _, framed⟩ | ⟨_, framed⟩
    · obtain ⟨_, _, _, _, done⟩ := taskDone_eq { s.pop rest with queue := others }
      rw [done] at framed
      exact lossless.congr (congrArg (fun s => s.stopped) framed) (congrArg (fun s => s.lost) framed)
    · exact lossless.congr (congrArg (fun s => s.stopped) framed) (congrArg (fun s => s.lost) framed)
  | shutdown =>
    unfold State.shutdown
    split_ifs <;> exact lossless
  | @submit record =>
    rcases submit_cases o record s with ⟨_, refused, _⟩ | ⟨_, _, queued⟩
    · exact lossless.congr (congrArg (fun s => s.stopped) refused.frame)
        (congrArg (fun s => s.lost) refused.frame)
    · rw [queued]
      exact lossless
  | flush =>
    unfold State.flush
    split_ifs <;> exact lossless
  | stop =>
    unfold State.beginStop
    split_ifs
    · exact lossless
    · exact nofun
  | start =>
    unfold State.start
    split_ifs <;> exact lossless
  | spills => exact lossless_finish (s := s.pop []) lossless
  | workerGets => exact lossless_collect lossless
  | reclaimedRecord => exact lossless_collect lossless
  | cancelledReclaiming at_ cancelled =>
    intro opened
    rw [(control.phased.uncalled opened).2] at cancelled
    cases cancelled
  | _ => exact lossless

/-- Everything taken in and not yet counted fits the queue, and batches fit the sink. -/
structure Bounded (o : Options) (s : State R) : Prop where
  sound : s.Sound
  tasks : s.Tasks
  fitting : s.Fitting o
  lossless : s.Lossless
  disciplined : Disciplined o.batchMaxSize true s.traffic

theorem Bounded.move [AudrRecord R] {act : Act R} (bounded : s.Bounded o) (move : Move o s act t) :
    t.Bounded o := by
  have control := bounded.sound.control
  have sound := bounded.sound.move move
  have tasks := bounded.tasks.move control move
  rcases move.turn control with ⟨framed, _, _⟩ | turn
  · have traffic := traffic_framed framed
    exact ⟨sound, tasks, bounded.fitting.congr (congrArg (fun s => s.worker) framed),
      bounded.lossless.congr (congrArg (fun s => s.stopped) framed) (congrArg (fun s => s.lost) framed),
      traffic ▸ bounded.disciplined⟩
  · obtain ⟨carries, fitting⟩ := turn.carries control bounded.tasks bounded.fitting
    exact ⟨sound, tasks, fitting, turn.lossless control bounded.lossless,
      Batching.disciplined_steps carries bounded.disciplined⟩

theorem bounded_initial : (initial R).Bounded o :=
  ⟨sound_initial, tasks_initial, fun collecting => absurd rfl collecting, fun _ => rfl,
    ⟨nofun, .refl _, fun _ => rfl, fun _ => List.prefix_refl _, .nil, nofun, rfl⟩⟩

/-- Only a submission can make more records wait for their end. -/
theorem held_grows (sound : s.Sound) (after : t.Sound)
    (books : State.Books 0 s t) : t.held.card ≤ s.held.card := by
  have before : s.submitted = s.held.card + s.settled.length := sound.balanced.card_eq
  have later : t.submitted = t.held.card + t.settled.length := after.balanced.card_eq
  have closed : s.settled.length ≤ t.settled.length := (Accounts.closed_prefix books.steps).length_le
  have taken := books.taken
  omega

theorem held_bound [AudrRecord R] {act : Act R} (bounded : s.Bounded o) (permitted : s.keepsBound o act = true)
    (move : Move o s act t) (bound : s.held.card ≤ o.maxQueueSize) : t.held.card ≤ o.maxQueueSize := by
  have sound := bounded.sound
  rcases move.books sound.control with ⟨record, rfl, books⟩ | books
  · cases move with
    | submit top =>
      rcases submit_cases o record s with ⟨_, refused, items⟩ | ⟨running, room, queued⟩
      · rw [held_refused items refused]
        exact bound
      · have free : s.currentDepth + s.worker.popped.length < o.maxQueueSize := by
          have shut : ¬ o.maxQueueSize ≤ s.currentDepth := Nat.not_le_of_lt room
          simpa [keepsBound, running, shut] using permitted
        have kept := bounded.lossless (sound.control.phased.running running)
        have live : (liveRefs s.inFlight).length ≤ s.inFlight.length :=
          (liveRefs_sublist _).length_le.trans (by simp [itemRefs])
        rw [queued, held_card]
        simp only [currentDepth, List.length_append, List.length_singleton, kept, List.length_nil] at free ⊢
        omega
  · exact (held_grows sound (sound.move move) books).trans bound

/-- The records that were queued and have not ended are among those held. -/
theorem Bounded.unresolved (bounded : s.Bounded o) :
    (s.accepted.filter fun ref => ref ∉ s.settled.map Prod.fst).length ≤ s.held.card := by
  have distinct : s.accepted.Nodup := bounded.disciplined.rising.imp fun smaller => Nat.ne_of_lt smaller
  have inside : (↑(s.accepted.filter fun ref => ref ∉ s.settled.map Prod.fst) : Multiset Nat) ≤ s.held := by
    refine (Multiset.le_iff_subset (Multiset.coe_nodup.mpr (distinct.filter _))).mpr fun ref member => ?_
    obtain ⟨accepted, open_⟩ := List.mem_filter.mp member
    have known : ref < s.submitted := bounded.disciplined.known ref accepted
    exact (bounded.sound.balanced.lt_issued.mp known).resolve_right (of_decide_eq_true open_)
  exact Multiset.card_le_card inside

end State

variable [AudrRecord R] {o : Options} {labels : List (Act R)} {s : State R}

theorem bounded_run (run : Reaches o labels s) : s.Bounded o :=
  run.invariant (fun s => s.Bounded o) State.bounded_initial fun _ _ _ bounded _ taken =>
    bounded.move (State.step_moves taken)

/-- The discipline owed to sinks, in every state of every run. -/
theorem sink_discipline (run : Reaches o labels s) :
    (∀ batch ∈ s.handed, batch ≠ [] ∧ batch.length ≤ o.batchMaxSize) ∧
    s.answered ≤ s.handed.length ∧ s.handed.length ≤ s.answered + 1 ∧
    s.handed.flatten.Sublist s.accepted ∧ s.accepted.Pairwise (· < ·) ∧ s.handed.flatten.Nodup := by
  have disciplined := (bounded_run run).disciplined
  refine ⟨disciplined.sizes, ?_, disciplined.single, disciplined.handed_sublist, disciplined.rising,
    disciplined.handed_nodup⟩
  have flight : s.handed.length = _ := disciplined.flight
  exact flight ▸ Nat.le_add_right _ _

theorem held_run (run : Run (step o) (fun s act => s.keepsBound o act = true) (initial R) labels s) :
    s.held.card ≤ o.maxQueueSize := by
  have both : s.Bounded o ∧ s.held.card ≤ o.maxQueueSize := by
    refine run.invariant (fun s => s.Bounded o ∧ s.held.card ≤ o.maxQueueSize)
      ⟨State.bounded_initial, Nat.zero_le _⟩ ?_
    rintro before label after ⟨bounded, bound⟩ permitted taken
    have move := State.step_moves taken
    exact ⟨bounded.move move, State.held_bound bounded permitted move bound⟩
  exact both.2

/-- The discipline and the bound, as long as no submission takes the last place while the
helper task holds a record. -/
theorem discipline_bounded
    (run : Run (step o) (fun s act => s.keepsBound o act = true) (initial R) labels s) :
    (∀ batch ∈ s.handed, batch ≠ [] ∧ batch.length ≤ o.batchMaxSize) ∧
    (s.answered ≤ s.handed.length ∧ s.handed.length ≤ s.answered + 1) ∧
    (s.handed.flatten.Sublist s.accepted ∧ s.accepted.Pairwise (· < ·) ∧ s.handed.flatten.Nodup) ∧
    (s.accepted.filter fun ref => ref ∉ s.settled.map Prod.fst).length ≤ o.maxQueueSize := by
  have any : Reaches o labels s := run.weaken fun _ _ _ => trivial
  obtain ⟨sizes, answered, single, order, rising, once⟩ := sink_discipline any
  exact ⟨sizes, ⟨answered, single⟩, ⟨order, rising, once⟩,
    (bounded_run any).unresolved.trans (held_run run)⟩

/-- The helper task holds the second record when a third is submitted. -/
def overfullLabels : List (Act String) :=
  [.task, .start, .submit "a", .leave .returns, .workerGets false, .task, .submit "b", .leave .returns,
    .getTaskPops, .task, .submit "c"]

def overfull : State String :=
  (Transition.execute (step smallOptions) (initial String) overfullLabels).getD (initial String)

/-- Three records are queued and unresolved where two fit. -/
theorem bound_exceeded : Reaches smallOptions overfullLabels overfull ∧
    ¬ (overfull.accepted.filter fun ref => ref ∉ overfull.settled.map Prod.fst).length ≤
      smallOptions.maxQueueSize :=
  ⟨Run.of_execute rfl, by decide⟩

/-- The third record is submitted before the second is taken, and finds no place. -/
def fullLabels : List (Act String) :=
  [.task, .start, .submit "a", .leave .returns, .workerGets false, .task, .submit "b", .submit "c",
    .leave .returns, .next, .leave .returns, .getTaskPops, .lingerReturns, .reclaimed false]

def full : State String :=
  (Transition.executeWithin (step smallOptions) (fun s act => s.keepsBound smallOptions act = true)
    (initial String) fullLabels).getD (initial String)

theorem discipline_bounded_full : full.handed = [[0, 1]] ∧ full.dropped = 1 ∧
    (full.accepted.filter fun ref => ref ∉ full.settled.map Prod.fst).length ≤ smallOptions.maxQueueSize := by
  have run : Run (step smallOptions) (fun s act => s.keepsBound smallOptions act = true) (initial String)
      fullLabels full := Run.of_executeWithin rfl
  exact ⟨rfl, rfl, (discipline_bounded run).2.2.2⟩

end Audr.PyPipeline
