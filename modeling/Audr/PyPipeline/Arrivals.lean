import Mathlib.Data.List.Infix
import Audr.PyPipeline.Survival

/-! Every record the Python pipeline has queued arrives at the sink, if nothing ends the
worker. Its distance from the sink counts the steps of the worker still to be taken; each
one brings it nearer and nothing else takes it farther away. -/

namespace Audr.PyPipeline

open Transition (Run anyStep)

variable {R : Type}

/-- The most steps left in this turn of the worker's loop. -/
def WorkerAt.remaining (limit : Nat) : WorkerAt R → Nat
  | .lingering batch none => 5 + 3 * (limit - batch.length)
  | .lingering batch (some _) => 4 + 3 * (limit - batch.length)
  | .reclaiming batch (some _) => 3 + 3 * (limit - batch.length)
  | .reclaiming _ none => 3
  | .delivering _ => 2
  | .concluding _ => 1
  | _ => 0

namespace State

/-- The records on the queue up to a given one. -/
def ahead (ref : Ref) (s : State R) : Nat := s.queueRefs.countP (· ≤ ref)

/-- The most steps the worker takes before it hands a record over. -/
def distance (o : Options) (ref : Ref) (s : State R) : Nat :=
  (6 + 3 * o.batchMaxSize) * s.ahead ref + s.worker.remaining o.batchMaxSize

variable {s t : State R} {o : Options} {ref : Ref}

/-- While the pipeline runs, what it took in was handed over or is waiting. -/
theorem Bounded.whole (bounded : s.Bounded o) (running : s.running = true) :
    s.handed.flatten ++ s.waiting = s.accepted :=
  bounded.disciplined.whole (bounded.sound.control.phased.running running)

theorem Bounded.waits (bounded : s.Bounded o) (running : s.running = true) (accepted : ref ∈ s.accepted)
    (unhanded : ref ∉ s.handed.flatten) : ref ∈ s.waiting := by
  rw [← bounded.whole running] at accepted
  exact (List.mem_append.mp accepted).resolve_left unhanded

/-- The end of the queue is the last to be waited for. -/
theorem Bounded.rising (bounded : s.Bounded o) (running : s.running = true) :
    s.waiting.Pairwise (· < ·) := by
  have rising : s.accepted.Pairwise (· < ·) := bounded.disciplined.rising
  rw [← bounded.whole running] at rising
  exact (List.pairwise_append.mp rising).2.1

/-- Once the sink has answered and the pipeline's own code is done, a batch has ended. -/
theorem Bounded.settled (bounded : s.Bounded o) (running : s.running = true) (going : s.worker ≠ .ended)
    (elsewhere : s.worker.concludes = false) (uncalled : s.worker.calling = false)
    (handed : ref ∈ s.handed.flatten) : ref ∈ s.settled.map Prod.fst := by
  have whole := bounded.whole running
  have distinct : (s.handed.flatten ++ s.waiting).Nodup := by
    rw [whole]
    exact bounded.disciplined.rising.imp fun smaller => Nat.ne_of_lt smaller
  have gone : ref ∉ s.waiting := fun member => List.disjoint_of_nodup_append distinct handed member
  have accepted : ref ∈ s.accepted := by
    rw [← whole]
    exact List.mem_append_left _ handed
  have lost : s.lost = [] := bounded.lossless (bounded.sound.control.phased.running running)
  have idle : liveRefs s.inFlight ⊆ s.worker.collecting := by
    have carried := bounded.sound.control.carried
    have inside : liveRefs s.inFlight ⊆ itemRefs s.inFlight := (liveRefs_sublist _).subset
    cases at_ : s.worker <;> rw [at_] at carried elsewhere uncalled going
    case absent =>
      rw [show s.inFlight = [] from carried]
      exact List.nil_subset _
    case getting =>
      rw [show s.inFlight = [] from carried]
      exact List.nil_subset _
    case lingering => exact carried ▸ inside
    case reclaiming => exact carried ▸ inside
    case delivering => cases uncalled
    case concluding => cases elsewhere
    case ended => exact absurd rfl going
  rcases bounded.sound.balanced.lt_issued.mp (bounded.disciplined.known ref accepted) with held | settled
  · have inside : ref ∈ s.held := held
    refine absurd ?_ gone
    simp only [State.held, Multiset.mem_add, Multiset.mem_coe, lost, List.not_mem_nil, or_false] at inside
    rw [waiting, List.mem_append, List.mem_append]
    rcases inside with (queued | popped) | live
    · exact .inr queued
    · exact .inl (.inr popped)
    · exact .inl (.inl (idle live))
  · exact settled

/-! One step. -/

theorem ahead_le (fewer : t.queueRefs.Sublist s.queueRefs) : t.ahead ref ≤ s.ahead ref :=
  fewer.countP_le

/-- A shorter queue and no more steps in this turn of the loop. -/
theorem distance_le (spent : Nat) (fewer : t.queueRefs.Sublist s.queueRefs)
    (remaining : t.worker.remaining o.batchMaxSize + spent ≤ s.worker.remaining o.batchMaxSize) :
    t.distance o ref + spent ≤ s.distance o ref := by
  have shorter : t.ahead ref ≤ s.ahead ref := ahead_le fewer
  have scaled := Nat.mul_le_mul_left (6 + 3 * o.batchMaxSize) shorter
  unfold distance
  omega

/-- A turn of the loop that has begun with a record takes fewer steps than the queue allowed for. -/
theorem distance_lt {rest : List (Queued R)} {q : Queued R} (queue : s.queue = q :: rest)
    (before : q.ref ≤ ref) (fewer : t.queueRefs.Sublist (rest.map Queued.ref))
    (remaining : t.worker.remaining o.batchMaxSize ≤ 5 + 3 * o.batchMaxSize) :
    t.distance o ref + 1 ≤ s.distance o ref := by
  have counted : s.ahead ref = (rest.map Queued.ref).countP (· ≤ ref) + 1 := by
    rw [ahead, queueRefs, queue, List.map_cons, List.countP_cons_of_pos (by simpa using before)]
  have shorter : t.ahead ref + 1 ≤ s.ahead ref := by
    rw [counted]
    exact Nat.succ_le_succ (fewer.countP_le)
  have scaled := Nat.mul_le_mul_left (6 + 3 * o.batchMaxSize) shorter
  rw [Nat.mul_add, Nat.mul_one] at scaled
  unfold distance
  omega

theorem collect_remaining (batch : List Ref) (expired : Bool) (limit : Nat) (s : State R) :
    (collect o batch expired s).worker.remaining limit ≤ 5 + 3 * (limit - batch.length) ∧
      (collect o batch expired s).queueRefs.Sublist s.queueRefs := by
  rcases collect_cases o batch expired s with ⟨size, _, out⟩ | ⟨_, _, _, waits⟩
  · rw [out]
    refine ⟨?_, (List.drop_sublist _ _).map _⟩
    change 2 ≤ _
    omega
  · rw [waits]
    exact ⟨Nat.le_refl _, .refl _⟩

/-- Every step of the worker brings a queued record nearer to the sink, and no other step takes
it farther away. -/
theorem Turn.nearer [AudrRecord R] {act : Act R} (turn : Turn o s act t) (bounded : s.Bounded o)
    (running : s.running = true) (accepted : ref ∈ s.accepted) (unhanded : ref ∉ s.handed.flatten) :
    t.distance o ref + (if act.works then 1 else 0) ≤ s.distance o ref := by
  have control := bounded.sound.control
  have stays {u : State R} (worker : u.worker = s.worker) (queue : u.queue = s.queue) :
      u.distance o ref + 0 ≤ s.distance o ref :=
    distance_le 0 (by rw [queueRefs, queue, queueRefs]) (by rw [worker]; exact Nat.le_refl _)
  cases turn with
  | @finish batch raising top at_ =>
    obtain ⟨_, _, _, _, done⟩ := tasksDone_eq batch (s.pop [])
    rw [State.finish, done]
    refine distance_le 0 (.refl _) ?_
    rw [at_]
    cases raising <;> exact Nat.zero_le _
  | @abandonQueue rest called => exact absurd (control.phased.uncalled (control.phased.running running)).1 called
  | shutdown called => exact absurd (control.phased.uncalled (control.phased.running running)).1 called
  | @submit record =>
    rcases submit_cases o record s with ⟨_, refused, _⟩ | ⟨_, _, queued⟩
    · exact stays (congrArg (fun s => s.worker) refused.frame) (congrArg (fun s => s.queue) refused.frame)
    · have older : ref < s.submitted := bounded.disciplined.known ref accepted
      have same : (State.submit o record s).ahead ref = s.ahead ref := by
        rw [queued]
        simp [ahead, queueRefs, Nat.not_le_of_lt older]
      have worker : (State.submit o record s).worker = s.worker := by rw [queued]
      unfold distance
      rw [same, worker]
      exact Nat.le_refl _
  | flush =>
    have same : (State.flush s).worker = s.worker ∧ (State.flush s).queue = s.queue := by
      unfold State.flush
      split_ifs <;> exact ⟨rfl, rfl⟩
    exact stays same.1 same.2
  | stop =>
    have same : (State.beginStop s).worker = s.worker ∧ (State.beginStop s).queue = s.queue := by
      unfold State.beginStop
      split_ifs <;> exact ⟨rfl, rfl⟩
    exact stays same.1 same.2
  | start =>
    rw [State.start, if_pos (by rw [running, Bool.true_or])]
    exact stays rfl rfl
  | @spills pending batch raising caught at_ =>
    obtain ⟨_, _, _, _, done⟩ := tasksDone_eq batch (s.pop [])
    rw [State.finish, done]
    refine distance_le 0 (.refl _) ?_
    rw [at_]
    exact Nat.zero_le _
  | @workerGets expired q rest at_ empty queue wanted =>
    have first : q.ref ≤ ref := by
      have rising := bounded.rising running
      have waits := bounded.waits running accepted unhanded
      rw [waiting, at_, queueRefs, queue] at rising waits
      rcases List.mem_cons.mp (show ref ∈ q.ref :: rest.map Queued.ref from waits) with same | later
      · exact Nat.le_of_eq same.symm
      · exact Nat.le_of_lt ((List.pairwise_cons.mp (show (q.ref :: rest.map Queued.ref).Pairwise (· < ·)
          from rising)).1 ref later)
    obtain ⟨remaining, fewer⟩ := collect_remaining (o := o) [q.ref] expired o.batchMaxSize
      { takeUp 1 s with worker := .getting }
    refine distance_lt queue first (by simpa [queueRefs, takeUp, queue] using fewer) ?_
    exact remaining.trans (by omega)
  | @getTaskPops batch q rest at_ queue =>
    refine distance_le 1 ?_ ?_
    · rw [queueRefs, queueRefs, queue]
      exact List.sublist_cons_self _ _
    · rw [at_]
      simp only [WorkerAt.remaining]
      omega
  | @lingerReturns batch popped at_ =>
    refine distance_le 1 (.refl _) ?_
    rw [at_]
    cases popped <;> simp only [WorkerAt.remaining] <;> omega
  | @reclaimedRecord expired batch q at_ wanted =>
    have some := bounded.tasks.solid_at at_ rfl rfl
    have below : s.worker.collecting.length < o.batchMaxSize := bounded.fitting (by rw [at_]; exact some)
    rw [at_] at below
    obtain ⟨remaining, fewer⟩ := collect_remaining (o := o) (batch ++ [q.ref]) expired o.batchMaxSize
      { beginInFlight q s with worker := .getting }
    refine distance_le 1 fewer ?_
    rw [List.length_append, List.length_singleton] at remaining
    simp only [WorkerAt.collecting] at below
    have before : s.worker.remaining o.batchMaxSize = 3 + 3 * (o.batchMaxSize - batch.length) := by
      rw [at_]
      rfl
    omega
  | @reclaimedNothing expired batch at_ wanted =>
    refine distance_le 1 (.refl _) ?_
    rw [at_]
    exact Nat.le_refl _
  | cancelledGetting at_ cancelled =>
    refine distance_le 0 (.refl _) ?_
    rw [at_]
    exact Nat.le_refl _
  | cancelledReclaiming at_ cancelled =>
    exact distance_le 0 (.refl _) (Nat.zero_le _)
  | @sinkAnswers settled batch at_ =>
    refine distance_le 1 (.refl _) ?_
    rw [at_]
    exact Nat.le_refl _
  | _ => exact stays rfl rfl

/-- What was accepted and handed over is only ever added to. -/
theorem Bounded.history [AudrRecord R] {act : Act R} (bounded : s.Bounded o) (move : Move o s act t) :
    s.accepted <+: t.accepted ∧ s.handed <+: t.handed := by
  have control := bounded.sound.control
  rcases move.turn control with ⟨framed, _, _⟩ | turn
  · have traffic := traffic_framed framed
    exact ⟨(show t.accepted = s.accepted from congrArg Batching.Traffic.accepted traffic) ▸ List.prefix_refl _,
      (show t.handed = s.handed from congrArg Batching.Traffic.handed traffic) ▸ List.prefix_refl _⟩
  · exact Batching.history_steps (turn.carries control bounded.tasks bounded.fitting).1

theorem Move.nearer [AudrRecord R] {act : Act R} (move : Move o s act t) (bounded : s.Bounded o)
    (running : s.running = true) (accepted : ref ∈ s.accepted) (unhanded : ref ∉ s.handed.flatten) :
    t.distance o ref + (if act.works then 1 else 0) ≤ s.distance o ref := by
  rcases move.turn bounded.sound.control with ⟨framed, _, idle⟩ | turn
  · have worker : t.worker = s.worker := congrArg (fun s => s.worker) framed
    have queue : t.queue = s.queue := congrArg (fun s => s.queue) framed
    rw [idle]
    exact distance_le 0 (by rw [queueRefs, queueRefs, queue]) (by rw [worker]; exact Nat.le_refl _)
  · exact turn.nearer bounded running accepted unhanded

theorem remaining_pos {worker : WorkerAt R} {limit : Nat}
    (holds : worker.collecting ≠ [] ∨ worker.popped ≠ []) : 0 < worker.remaining limit := by
  cases worker with
  | lingering batch popped => cases popped <;> simp only [WorkerAt.remaining] <;> omega
  | reclaiming batch popped => cases popped <;> simp only [WorkerAt.remaining] <;> omega
  | _ => simp [WorkerAt.collecting, WorkerAt.popped] at holds

/-- Nothing is at the sink before it is handed over. -/
theorem Bounded.distance_pos (bounded : s.Bounded o) (running : s.running = true)
    (accepted : ref ∈ s.accepted) (unhanded : ref ∉ s.handed.flatten) : 0 < s.distance o ref := by
  have waits := bounded.waits running accepted unhanded
  rw [waiting, List.mem_append, List.mem_append] at waits
  unfold distance
  rcases waits with (collecting | popped) | queued
  · exact Nat.add_pos_right _ (remaining_pos (.inl (List.ne_nil_of_mem collecting)))
  · obtain ⟨q, popped, _⟩ := List.mem_map.mp popped
    exact Nat.add_pos_right _ (remaining_pos (.inr (List.ne_nil_of_mem popped)))
  · have some : 0 < s.ahead ref := List.countP_pos_iff.mpr ⟨ref, queued, by simp⟩
    exact Nat.add_pos_left (Nat.mul_pos (by omega) some) _

/-- The worker is never stuck: with nothing left to run it can take a step, or its sink can. -/
theorem Bounded.advances [AudrRecord R] (bounded : s.Bounded o) (running : s.running = true)
    (going : s.worker ≠ .ended) (free : s.todo = []) (accepted : ref ∈ s.accepted)
    (unhanded : ref ∉ s.handed.flatten) :
    ∃ act : Act R, act.works = true ∧ s.behaves act = true ∧ (step o s act).isSome = true := by
  have control := bounded.sound.control
  have wanted := (control.phased.uncalled (control.phased.running running)).2
  have elsewhere : s.worker.concludes = false := by
    have stack := control.stack
    rw [free] at stack
    exact stack.empty
  have present : s.worker ≠ .absent := by
    intro absent
    have stopped := (control.phased.absent absent).1
    rw [running] at stopped
    cases stopped
  cases at_ : s.worker with
  | absent => exact absurd at_ present
  | getting =>
    have waits := bounded.waits running accepted unhanded
    rw [waiting, at_] at waits
    cases queue : s.queue with
    | nil =>
      rw [queueRefs, queue] at waits
      cases waits
    | cons q rest =>
      exact ⟨.workerGets true, rfl, rfl, by simp [step, free, loopStep, workerGets, at_, queue, wanted]⟩
  | lingering batch popped =>
    exact ⟨.lingerReturns, rfl, rfl, by simp [step, free, loopStep, lingerReturns, at_]⟩
  | reclaiming batch popped =>
    refine ⟨.reclaimed true, rfl, rfl, ?_⟩
    cases popped <;> simp [step, free, loopStep, reclaimed, at_, wanted]
  | delivering batch =>
    exact ⟨.sinkAnswers .exception, rfl, rfl, by simp [step, free, loopStep, sinkAnswers, at_]⟩
  | concluding batch =>
    rw [at_] at elsewhere
    cases elsewhere
  | ended => exact absurd at_ going

end State

/-- The states a pipeline can be in, when nothing raises through its worker. -/
abbrev ReachesBehaving [AudrRecord R] (o : Options) (labels : List (Act R)) (s : State R) : Prop :=
  Run (step o) (fun s act => s.behaves act = true) (initial R) labels s

variable [AudrRecord R] {o : Options} {labels more : List (Act R)} {s t : State R} {ref : Ref}

theorem alive_run (run : ReachesBehaving o labels s) : s.Bounded o ∧ s.Alive := by
  refine run.invariant (fun s => s.Bounded o ∧ s.Alive) ⟨State.bounded_initial, State.alive_initial⟩ ?_
  rintro before label after ⟨bounded, alive⟩ permitted taken
  have move := State.step_moves taken
  exact ⟨bounded.move move, alive.move bounded.sound.control permitted move⟩

/-- Along a run of a pipeline that goes on running, each step of the worker is one less to take. -/
theorem nearer_run {allowed : State R → Act R → Prop} (run : Run (step o) allowed s more t)
    (bounded : s.Bounded o) (began : s.running = true) (accepted : ref ∈ s.accepted) :
    t.Bounded o ∧ (t.running = true ∨ t.stopped = true) ∧ ref ∈ t.accepted ∧
      (t.running = true → ref ∉ t.handed.flatten →
        t.distance o ref + more.countP Act.works ≤ s.distance o ref) := by
  induction run with
  | refl => exact ⟨bounded, .inl began, accepted, fun _ _ => Nat.le_refl _⟩
  | @tail labels u t label before permitted taken ih =>
    obtain ⟨bounded, begun, accepted, near⟩ := ih
    have move := State.step_moves taken
    obtain ⟨begun', before'⟩ := State.begun_before move bounded.sound.control begun
    obtain ⟨more, handed⟩ := bounded.history move
    refine ⟨bounded.move move, begun', more.subset accepted, fun running unhanded => ?_⟩
    have ran := before' running
    have kept : ref ∉ u.handed.flatten := fun member => unhanded (handed.flatten.subset member)
    have step := move.nearer bounded ran accepted kept
    have rest := near ran kept
    rw [List.countP_append, List.countP_singleton]
    omega

/-- As long as the sink's answers can be read and no callback lets an exception escape
through the worker, the worker lives while the pipeline runs. What the sink has answered
for has ended; and what is queued reaches the sink after so many steps of the worker,
which can always take the next one. -/
theorem worker_survives (run : ReachesBehaving o labels s) (running : s.running = true) :
    (s.worker ≠ .absent ∧ s.worker ≠ .ended) ∧
    (s.todo = [] → s.worker.calling = false →
      ∀ ref ∈ s.handed.flatten, ref ∈ s.settled.map Prod.fst) ∧
    ∀ ref ∈ s.accepted, ref ∉ s.handed.flatten →
      (s.todo = [] →
        ∃ act : Act R, act.works = true ∧ s.behaves act = true ∧ (step o s act).isSome = true) ∧
      ∀ more t, Run (step o) (fun s act => s.behaves act = true) s more t → t.running = true →
        s.distance o ref ≤ more.countP Act.works → ref ∈ t.handed.flatten := by
  obtain ⟨bounded, alive⟩ := alive_run run
  have control := bounded.sound.control
  have going := alive.going (control.phased.running running)
  have present : s.worker ≠ .absent := by
    intro absent
    have stopped := (control.phased.absent absent).1
    rw [running] at stopped
    cases stopped
  refine ⟨⟨present, going⟩, fun free uncalled ref handed => ?_, fun ref accepted unhanded => ⟨fun free => ?_, ?_⟩⟩
  · have stack := control.stack
    rw [free] at stack
    exact bounded.settled running going stack.empty uncalled handed
  · exact bounded.advances running going free accepted unhanded
  · intro more t later still steps
    obtain ⟨bounded', _, accepted', near⟩ := nearer_run later bounded running accepted
    by_contra unhanded'
    have left := near still unhanded'
    have some := bounded'.distance_pos still accepted' unhanded'
    omega

/-- The sink answers the first batch with something that is no result; a record is
submitted after that. -/
def silencedLabels : List (Act String) :=
  [.task, .start, .submit "a", .leave .returns, .workerGets true, .sinkAnswers (.malformed [] [] 0),
    .next, .next, .leave .returns, .next, .next, .task, .submit "b", .leave .returns]

def silenced : State String :=
  (Transition.execute (step smallOptions) (initial String) silencedLabels).getD (initial String)

/-- The pipeline runs, takes records in, and has no worker any more. -/
theorem worker_silenced : Reaches smallOptions silencedLabels silenced ∧ silenced.running = true ∧
    silenced.worker = .ended ∧ silenced.queueRefs = [1] :=
  ⟨Run.of_execute rfl, rfl, rfl, rfl⟩

/-- A record is queued while the sink is busy with another. -/
def busyLabels : List (Act String) :=
  [.task, .start, .submit "a", .leave .returns, .workerGets true, .task, .submit "b", .leave .returns]

def busy : State String :=
  (Transition.executeWithin (step smallOptions) (fun s act => s.behaves act = true) (initial String)
    busyLabels).getD (initial String)

/-- The sink raises for one batch after the other, while more records come in. -/
def raisingLabels : List (Act String) :=
  let round : List (Act String) :=
    [.sinkAnswers .exception, .next, .leave .raises, .next, .next, .next, .next, .task, .submit "c",
      .leave .returns, .workerGets false, .lingerReturns, .reclaimed false]
  round ++ round ++ round ++ round

def raised : State String :=
  (Transition.executeWithin (step smallOptions) (fun s act => s.behaves act = true) busy
    raisingLabels).getD (initial String)

theorem worker_survives_exceptions : busy.worker ≠ .ended ∧ 1 ∈ raised.handed.flatten := by
  have run : ReachesBehaving smallOptions busyLabels busy := Run.of_executeWithin rfl
  have more : Run (step smallOptions) (fun s act => s.behaves act = true) busy raisingLabels raised :=
    Run.of_executeWithin rfl
  obtain ⟨⟨_, going⟩, _, arrives⟩ := worker_survives run rfl
  exact ⟨going, (arrives 1 (by decide) (by decide)).2 raisingLabels raised more rfl (by decide)⟩

end Audr.PyPipeline
