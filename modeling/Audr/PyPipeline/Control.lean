import Audr.PyPipeline.Frame

/-! The control invariant of the Python pipeline: the stack is user code on one section,
the worker holds the records its place says it holds, the records on their way to the
sink stand in the order of their submission, and the flags agree with the tasks. -/

namespace Audr.PyPipeline

variable {R : Type}

/-- What the helper task of the worker has taken off the queue. -/
def WorkerAt.popped : WorkerAt R → List (Queued R)
  | .lingering _ popped => popped.toList
  | .reclaiming _ popped => popped.toList
  | _ => []

/-- The records in flight, as far as the place of the worker tells. -/
def Carried (items : List (InFlight R)) : WorkerAt R → Prop
  | .absent => items = []
  | .getting => items = []
  | .lingering batch _ => itemRefs items = batch
  | .reclaiming batch _ => itemRefs items = batch
  | .delivering batch => itemRefs items = batch
  | .concluding _ => True
  | .ended => True

theorem Carried.counted {items more : List (InFlight R)} {worker : WorkerAt R}
    (carried : Carried items worker) (refs : itemRefs more = itemRefs items) : Carried more worker := by
  have empty (none : items = []) : more = [] := by
    subst none
    exact List.map_eq_nil_iff.mp refs
  cases worker with
  | absent => exact empty carried
  | getting => exact empty carried
  | lingering => exact refs.trans carried
  | reclaiming => exact refs.trans carried
  | delivering => exact refs.trans carried
  | concluding => trivial
  | ended => trivial

namespace State

def queueRefs (s : State R) : List Ref := s.queue.map Queued.ref

/-- The records on their way to the sink, first the ones in flight. -/
def line (s : State R) : List Ref :=
  itemRefs s.inFlight ++ s.worker.popped.map Queued.ref ++ s.queueRefs

/-- The line is in the order of submission, and made of submitted records. -/
def Lined (s : State R) : Prop := s.line.Pairwise (· < ·) ∧ ∀ ref ∈ s.line, ref < s.submitted

/-- The flags of the pipeline agree with where its tasks stand. -/
structure Phased (s : State R) : Prop where
  uncalled : s.stopped = false → s.stop = .notCalled ∧ s.cancelRequested = false
  running : s.running = true → s.stopped = false
  absent : s.worker = .absent → s.running = false ∧ s.queue = []
  started : s.worker ≠ .absent → s.running = true ∨ s.stopped = true

structure Control (s : State R) : Prop where
  stack : s.Stacked s.todo
  carried : Carried s.inFlight s.worker
  lined : s.Lined
  phased : s.Phased

variable {s t u : State R} {o : Options}

theorem Lined.sublist (lined : s.Lined) (fewer : t.line.Sublist s.line) (submitted : s.submitted ≤ t.submitted) :
    t.Lined :=
  ⟨lined.1.sublist fewer, fun ref member => Nat.lt_of_lt_of_le (lined.2 ref (fewer.subset member)) submitted⟩

theorem Control.nodup (control : s.Control) : (itemRefs s.inFlight).Nodup := by
  have first : (itemRefs s.inFlight).Sublist s.line :=
    (List.sublist_append_left _ _).trans (List.sublist_append_left _ _)
  exact (control.lined.1.sublist first).imp fun smaller => Nat.ne_of_lt smaller

/-- While a stop is under way nothing is admitted. -/
theorem Phased.halted (phased : s.Phased) (called : s.stop ≠ .notCalled) :
    s.stopped = true ∧ s.running = false := by
  have stopped : s.stopped = true :=
    Bool.of_not_eq_false fun open_ => called (phased.uncalled open_).1
  refine ⟨stopped, Bool.of_not_eq_true fun running => ?_⟩
  rw [phased.running running] at stopped
  cases stopped

/-- The part of the state the control invariant reads, besides the stack and the items. -/
def scene (s : State R) : WorkerAt R × StopAt × List (Queued R) × Nat × Bool × Bool × Bool :=
  (s.worker, s.stop, s.queue, s.submitted, s.running, s.stopped, s.cancelRequested)

theorem Control.rebuild (control : s.Control) (same : t.scene = s.scene)
    (refs : itemRefs t.inFlight = itemRefs s.inFlight) (stack : t.Stacked t.todo) : t.Control := by
  simp only [scene, Prod.mk.injEq] at same
  obtain ⟨worker, stop, queue, submitted, running, stopped, cancelRequested⟩ := same
  have phased := control.phased
  refine ⟨stack, ?_, ?_, ⟨?_, ?_, ?_, ?_⟩⟩
  · rw [worker]
    exact control.carried.counted refs
  · simpa only [Lined, line, queueRefs, worker, refs, queue, submitted] using control.lined
  · simpa only [stopped, stop, cancelRequested] using phased.uncalled
  · simpa only [running, stopped] using phased.running
  · simpa only [worker, running, queue] using phased.absent
  · simpa only [worker, running, stopped] using phased.started

/-- Code that changes the stack alone. -/
theorem Control.restack (control : s.Control) (same : t.scene = s.scene) (items : t.inFlight = s.inFlight)
    (stack : s.Stacked t.todo) : t.Control := by
  refine control.rebuild same (congrArg itemRefs items) ?_
  simp only [scene, Prod.mk.injEq] at same
  obtain ⟨worker, stop, queue, _⟩ := same
  simpa only [Stacked, worker, stop, queue, items] using stack

theorem Accounted.scene (accounted : Accounted s t) : t.scene = s.scene :=
  show t.frame.scene = s.frame.scene from congrArg State.scene accounted.frame

theorem Accounted.stack (accounted : Accounted s t) (stacked : s.Stacked s.todo) : t.Stacked t.todo := by
  have worker : t.worker = s.worker := congrArg (fun s => s.worker) accounted.frame
  have queue : t.queue = s.queue := congrArg (fun s => s.queue) accounted.frame
  have stop : t.stop = s.stop := congrArg (fun s => s.stop) accounted.frame
  obtain ⟨above, todo, calls⟩ := accounted.above
  obtain ⟨users, below, shape, more, part⟩ := stacked.add above calls
  refine ⟨users, below, todo.trans shape, more, ?_⟩
  rw [worker, stop, queue]
  exact part.counted accounted.refs accounted.live

theorem Control.accounted (control : s.Control) (accounted : Accounted s t) : t.Control :=
  control.rebuild accounted.scene accounted.refs (accounted.stack control.stack)

/-! The functions that move records along. -/

theorem line_takeUp (size : Nat) (at_ : s.worker.popped = []) :
    itemRefs (takeUp size s).inFlight ++ (takeUp size s).queueRefs = s.line := by
  have whole := congrArg (List.map Queued.ref) (List.take_append_drop size s.queue)
  rw [List.map_append] at whole
  rw [line, at_, takeUp, queueRefs, queueRefs, itemRefs_append, itemRefs_fresh, List.map_nil,
    List.append_nil, List.append_assoc, whole]

/-- The worker goes from one wait to another, or ends. -/
theorem Control.worker_on (control : s.Control) {worker : WorkerAt R} (at_ : t.worker = worker)
    (todo : t.todo = []) (elsewhere : worker.concludes = false) (present : worker ≠ .absent)
    (going : s.worker ≠ .absent) (carried : Carried t.inFlight worker) (line : t.line.Sublist s.line)
    (same : (t.stop, t.submitted, t.running, t.stopped, t.cancelRequested) =
      (s.stop, s.submitted, s.running, s.stopped, s.cancelRequested)) : t.Control := by
  simp only [Prod.mk.injEq] at same
  obtain ⟨stop, submitted, running, stopped, cancelRequested⟩ := same
  refine ⟨todo ▸ .of_section (.free (at_ ▸ elsewhere)), at_ ▸ carried,
    control.lined.sublist line (Nat.le_of_eq submitted.symm), ⟨?_, ?_, fun gone => ?_, fun _ => ?_⟩⟩
  · exact stopped ▸ stop ▸ cancelRequested ▸ control.phased.uncalled
  · exact running ▸ stopped ▸ control.phased.running
  · exact absurd (at_.symm.trans gone) present
  · exact running ▸ stopped ▸ control.phased.started going

/-- What a batch being collected must be for the control invariant to go on. -/
theorem Control.collect (control : s.Control) {batch : List Ref} {expired : Bool}
    (refs : itemRefs t.inFlight = batch) (worker : t.worker.popped = [])
    (line : t.line = s.line) (todo : t.todo = []) (going : s.worker ≠ .absent)
    (same : (t.stop, t.submitted, t.running, t.stopped, t.cancelRequested) =
      (s.stop, s.submitted, s.running, s.stopped, s.cancelRequested)) :
    (State.collect o batch expired t).Control := by
  rcases collect_cases o batch expired t with ⟨size, _, out⟩ | ⟨_, _, _, waits⟩
  · rw [out]
    refine control.worker_on rfl todo rfl (by simp [deliver]) going ?_ ?_ same
    · simp only [Carried, deliver, takeUp, itemRefs_append, itemRefs_fresh, refs]
    · have moved : (deliver (batch ++ (t.queue.take size).map Queued.ref) (takeUp size t)).line = s.line := by
        rw [← line, ← line_takeUp size worker]
        simp [State.line, deliver, WorkerAt.popped, queueRefs]
      exact moved ▸ List.Sublist.refl _
  · rw [waits]
    refine control.worker_on rfl todo rfl (by simp) going refs ?_ same
    have moved : { t with worker := .lingering batch none }.line = s.line := by
      rw [← line]
      simp only [State.line, worker]
      rfl
    exact moved ▸ List.Sublist.refl _

theorem Control.pop (control : s.Control) {op : Op R} {rest : List (Op R)} (top : s.todo = op :: rest)
    (user : op.calls = true) : (s.pop rest).Control :=
  control.restack rfl rfl ((top ▸ control.stack).under user)

/-- With code of the pipeline on top, the stack is one section. -/
theorem Control.section_ (control : s.Control) {op : Op R} {rest : List (Op R)}
    (top : s.todo = op :: rest) (own : op.calls = false) :
    Section s.worker s.stop s.queue s.inFlight (op :: rest) :=
  (top ▸ control.stack).section_ own

theorem Control.pop_account (control : s.Control) {op : Op R} {rest : List (Op R)}
    (top : s.todo = op :: rest) (accounts : op.accounts = true) : (s.pop rest).Control := by
  have own : op.calls = false := by cases op <;> first | rfl | cases accounts
  exact control.restack rfl rfl (.of_section ((control.section_ top own).after_account accounts))

/-- The worker is done with a batch, or with everything. -/
theorem Control.finish (control : s.Control) {batch : List Ref} {raising : Bool}
    (going : s.worker ≠ .absent) (empty : raising = false → s.inFlight = []) (todo : t.todo = [])
    (same : t.scene = s.scene) (items : t.inFlight = s.inFlight) : (finish batch raising t).Control := by
  simp only [scene, Prod.mk.injEq] at same
  obtain ⟨worker, stop, queue, submitted, running, stopped, cancelRequested⟩ := same
  have fewer (at_ : WorkerAt R) (none : at_.popped = []) :
      (itemRefs s.inFlight ++ at_.popped.map Queued.ref ++ s.queueRefs).Sublist s.line := by
    rw [none, List.map_nil, List.append_nil]
    exact (List.sublist_append_left _ _).append_right _
  have started := control.phased.started going
  have lined (last : WorkerAt R) (none : last.popped = []) :
      ({ t with worker := last } : State R).Lined := by
    have sub : ({ t with worker := last } : State R).line.Sublist s.line := by
      simp only [line, queueRefs, items, queue]
      exact fewer last none
    exact control.lined.sublist sub (Nat.le_of_eq submitted.symm)
  have at_ : (if raising then .ended else .getting : WorkerAt R).concludes = false := by
    cases raising <;> rfl
  have none : (if raising then .ended else .getting : WorkerAt R).popped = [] := by
    cases raising <;> rfl
  have present : (if raising then .ended else .getting : WorkerAt R) ≠ .absent := by
    cases raising <;> simp
  have carried : Carried t.inFlight (if raising then .ended else .getting) := by
    cases raising with
    | true => trivial
    | false => exact items.trans (empty rfl)
  obtain ⟨left, flushes, here, called, done⟩ := tasksDone_eq batch t
  rw [State.finish, done]
  refine ⟨todo ▸ .of_section (.free at_), carried, lined _ none, ⟨fun open_ => ?_, ?_, fun gone => ?_, fun _ => ?_⟩⟩
  · obtain ⟨uncalled, wanted⟩ := control.phased.uncalled (stopped ▸ open_)
    exact ⟨called.mpr (stop.trans uncalled), cancelRequested.trans wanted⟩
  · exact running ▸ stopped ▸ control.phased.running
  · exact absurd gone present
  · exact running ▸ stopped ▸ started

theorem Control.conclude_item (control : s.Control) {ref : Ref} {pending batch : List Ref} {raising : Bool}
    {rest : List (Op R)} (top : s.todo = .conclude (ref :: pending) batch raising :: rest) :
    (conclude o (ref :: pending) batch raising (s.pop rest)).Control := by
  obtain ⟨rfl, at_, refs⟩ := (control.section_ top rfl).at_conclude
  have counts := fail_counts o ref .unknown .inconclusive true none
    (push [.releaseInFlight ref, .conclude pending batch raising] (s.pop []))
  have accounted := accounted_fail o ref .unknown .inconclusive true none
    (push [.releaseInFlight ref, .conclude pending batch raising] (s.pop []))
  have worker := congrArg (fun s => s.worker) accounted.frame
  obtain ⟨above, todo, calls⟩ := accounted.above
  refine control.rebuild accounted.scene accounted.refs ⟨above, _, todo, calls, ?_⟩
  exact .releasing (worker.trans at_) (accounted.refs.trans refs) counts

theorem Control.release (control : s.Control) {ref : Ref} {rest : List (Op R)}
    (top : s.todo = .releaseInFlight ref :: rest) : (releaseInFlight ref (s.pop rest)).Control := by
  obtain ⟨pending, batch, raising, rfl, at_, refs, _⟩ := (control.section_ top rfl).at_release
  have distinct := control.nodup
  rw [refs] at distinct
  have left : itemRefs (s.inFlight.filter fun item => item.ref ≠ ref) = pending := by
    have filtered : itemRefs (s.inFlight.filter fun item => item.ref ≠ ref) =
        (itemRefs s.inFlight).filter (· ≠ ref) := by
      rw [itemRefs, itemRefs, List.filter_map]
      rfl
    rw [filtered, refs, List.filter_cons_of_neg (by simp)]
    apply List.filter_eq_self.mpr
    intro other member
    simpa using fun same : other = ref => (List.nodup_cons.mp distinct).1 (same ▸ member)
  have shorter : (itemRefs (s.inFlight.filter fun item => item.ref ≠ ref)).Sublist (itemRefs s.inFlight) :=
    List.filter_sublist.map _
  refine ⟨.of_section (.concluding at_ left), ?_, ?_, ?_⟩
  · change Carried _ s.worker
    rw [at_]
    trivial
  · exact control.lined.sublist ((shorter.append_right _).append_right _) (Nat.le_refl _)
  · exact ⟨control.phased.uncalled, control.phased.running, control.phased.absent, control.phased.started⟩

theorem Control.abandon_queue (control : s.Control) {rest : List (Op R)}
    (top : s.todo = .abandonQueue :: rest) : (abandonQueue o (s.pop rest)).Control := by
  have part := control.section_ top rfl
  unfold State.abandonQueue
  split
  next q others queued =>
    have full : s.queue = q :: others := queued
    refine Control.accounted ?_ ((accounted_count _ _ _).trans (accounted_notifyFailure o _ _ _))
    have shorter : (itemRefs s.inFlight ++ s.worker.popped.map Queued.ref ++ others.map Queued.ref).Sublist
        s.line := by
      rw [line, queueRefs, full, List.map_cons]
      exact (List.sublist_cons_self _ _).append_left _
    obtain ⟨left, flushes, at_, called, done⟩ := taskDone_eq { s.pop rest with queue := others }
    rw [done]
    refine ⟨.of_section ?_, control.carried, control.lined.sublist shorter (Nat.le_refl _),
      ⟨fun open_ => ?_, control.phased.running, fun gone => ?_, control.phased.started⟩⟩
    · exact part.abandons (.inl rfl) called (fun _ => .queue) fun _ => trivial
    · obtain ⟨uncalled, wanted⟩ := control.phased.uncalled open_
      exact ⟨called.mpr uncalled, wanted⟩
    · have empty := (control.phased.absent gone).2
      rw [full] at empty
      cases empty
  next empty =>
    refine control.restack rfl rfl (.of_section ?_)
    refine part.abandons (.inl rfl) Iff.rfl (fun _ => .items _) fun _ => ⟨empty, fun ref live => ?_⟩
    exact (liveRefs_sublist _).subset live

theorem Control.abandon_items (control : s.Control) {pending : List Ref} {rest : List (Op R)}
    (top : s.todo = .abandonItems pending :: rest) : (abandonItems o pending (s.pop rest)).Control := by
  have part := control.section_ top rfl
  cases pending with
  | nil =>
    refine control.restack rfl rfl (.of_section ?_)
    obtain ⟨stop, ⟨raising, rfl, elsewhere⟩ | ⟨raising, rfl, gone, queue, covered⟩⟩ :=
      part.at_abandon (.inr ⟨_, rfl⟩)
    · exact .draining elsewhere stop .done
    · refine .closing gone stop ⟨queue, ?_⟩ .done
      exact List.eq_nil_iff_forall_not_mem.mpr fun ref live => List.not_mem_nil (covered ref live)
  | cons ref pending =>
    have counts := fail_counts o ref .unknown .shutdown true none
      (push [.abandonItems pending] (s.pop rest))
    have accounted := accounted_fail o ref .unknown .shutdown true none
      (push [.abandonItems pending] (s.pop rest))
    have worker : _ = s.worker := congrArg (fun s => s.worker) accounted.frame
    have queue : _ = s.queue := congrArg (fun s => s.queue) accounted.frame
    have stop : _ = s.stop := congrArg (fun s => s.stop) accounted.frame
    obtain ⟨above, todo, calls⟩ := accounted.above
    refine control.rebuild accounted.scene accounted.refs ⟨above, _, todo, calls, ?_⟩
    rw [show (abandonItems o (ref :: pending) (s.pop rest)).worker = s.worker from worker,
      show (abandonItems o (ref :: pending) (s.pop rest)).queue = s.queue from queue,
      show (abandonItems o (ref :: pending) (s.pop rest)).stop = s.stop from stop]
    refine part.abandons (.inr ⟨_, rfl⟩) Iff.rfl (fun _ => .items _) fun ⟨empty, covered⟩ =>
      ⟨empty, fun other live => ?_⟩
    refine (List.mem_cons.mp (covered other (accounted.live other live))).resolve_left ?_
    rintro rfl
    exact counts live

theorem Control.shutdown (control : s.Control) {raising : Bool} {rest : List (Op R)}
    (top : s.todo = .shutdown raising :: rest) : (shutdown raising (s.pop rest)).Control := by
  obtain ⟨rfl, elsewhere, called⟩ := (control.section_ top rfl).at_shutdown
  unfold State.shutdown
  split_ifs with none
  · have absent : s.worker = .absent := by
      cases at_ : s.worker <;> simp_all [State.pop]
    refine control.restack rfl rfl (.of_section (.closing ?_ called trivial .queue))
    rw [absent]
    rfl
  · refine ⟨.of_section (.free elsewhere), control.carried, control.lined, ⟨fun open_ => ?_,
      control.phased.running, control.phased.absent, control.phased.started⟩⟩
    exact absurd (control.phased.uncalled open_).1 called

/-- A stop under way may go on to wherever it likes. -/
theorem Control.stop_on (control : s.Control) (stack : s.Stacked t.todo) (called : s.stop ≠ .notCalled)
    (going : t.stop ≠ .notCalled) (items : t.inFlight = s.inFlight)
    (same : (t.worker, t.queue, t.submitted, t.running, t.stopped) =
      (s.worker, s.queue, s.submitted, s.running, s.stopped)) : t.Control := by
  simp only [Prod.mk.injEq] at same
  obtain ⟨worker, queue, submitted, running, stopped⟩ := same
  obtain ⟨above, below, shape, calls, part⟩ := stack
  refine ⟨⟨above, below, shape, calls, ?_⟩, ?_, ?_, ⟨fun open_ => ?_, ?_, ?_, ?_⟩⟩
  · rw [worker, queue, items]
    exact part.recalled going
  · rw [worker, items]
    exact control.carried
  · simpa only [Lined, line, queueRefs, worker, queue, items, submitted] using control.lined
  · exact absurd (control.phased.uncalled (stopped ▸ open_)).1 called
  · exact running ▸ stopped ▸ control.phased.running
  · exact worker ▸ queue ▸ running ▸ control.phased.absent
  · exact worker ▸ running ▸ stopped ▸ control.phased.started

theorem Control.beginStop (control : s.Control) : (beginStop s).Control := by
  unfold State.beginStop
  split_ifs with stopped
  · exact control
  · obtain ⟨above, below, shape, calls, part⟩ := control.stack
    refine ⟨⟨above, below, shape, calls, part.recalled (by simp)⟩, control.carried, control.lined,
      ⟨by simp, by simp, fun gone => ⟨rfl, (control.phased.absent gone).2⟩, fun _ => .inr rfl⟩⟩

theorem Control.start (control : s.Control) : (start s).Control := by
  unfold State.start
  split_ifs with begun
  · exact control
  · simp only [Bool.or_eq_true, not_or, Bool.not_eq_true] at begun
    have absent : s.worker = .absent := by
      by_contra present
      have started := control.phased.started present
      simp [begun.1, begun.2] at started
    have uncalled := control.phased.uncalled begun.2
    have carried := control.carried
    rw [absent] at carried
    obtain ⟨above, below, shape, calls, part⟩ := control.stack
    rw [absent] at part
    have free : below = [] := by
      cases part with
      | free => rfl
      | trying at_ => cases at_
      | concluding at_ => cases at_
      | releasing at_ => cases at_
      | draining _ called => exact absurd uncalled.1 called
      | closing _ called => exact absurd uncalled.1 called
    refine ⟨⟨above, below, shape, calls, ?_⟩, carried, ?_, ⟨fun _ => uncalled, fun _ => begun.2,
      nofun, fun _ => .inl rfl⟩⟩
    · rw [free]
      exact .free rfl
    · have lined := control.lined
      simp only [Lined, line, absent] at lined
      exact lined

theorem Control.submit (control : s.Control) (record : R) : (submit o record s).Control := by
  have counted (outcome : SubmitOutcome) (failure : FailedRecord R) :
      (notifyFailure o s.submitted failure (push [.returned s.submitted outcome]
        (count s.submitted .dropped { s with submitted := s.submitted + 1 }))).Control := by
    have taken : (push [.returned s.submitted outcome]
        (count s.submitted .dropped { s with submitted := s.submitted + 1 })).Control :=
      ⟨control.stack.add [.returned s.submitted outcome] (by simp [Op.calls]), control.carried,
        control.lined.sublist (List.Sublist.refl _) (Nat.le_succ _),
        ⟨control.phased.uncalled, control.phased.running, control.phased.absent, control.phased.started⟩⟩
    exact taken.accounted (accounted_notifyFailure o _ _ _)
  unfold State.submit
  simp only
  split_ifs with closed full
  · exact counted _ _
  · exact counted _ _
  · have running : s.running = true := by simpa using closed
    have opened := control.phased.running running
    obtain ⟨above, below, shape, calls, part⟩ := control.stack
    refine ⟨⟨above, below, shape, calls, part.queued (control.phased.uncalled opened).1⟩, control.carried,
      ?_, ⟨control.phased.uncalled, control.phased.running, fun gone => ?_, control.phased.started⟩⟩
    · have longer : ({ s with
          submitted := s.submitted + 1
          queue := s.queue ++ [⟨s.submitted, record⟩]
          unfinished := s.unfinished + 1
          accepted := s.accepted ++ [s.submitted]
          returned := s.returned ++ [(s.submitted, .queued)] } : State R).line = s.line ++ [s.submitted] := by
        simp [line, queueRefs]
      unfold Lined
      rw [longer]
      refine ⟨List.pairwise_append.mpr ⟨control.lined.1, List.pairwise_singleton _ _, ?_⟩, ?_⟩
      · intro earlier member number new
        rw [List.mem_singleton.mp new]
        exact control.lined.2 earlier member
      · intro ref member
        rcases List.mem_append.mp member with old | new
        · exact Nat.lt_succ_of_lt (control.lined.2 ref old)
        · rw [List.mem_singleton.mp new]
          exact Nat.lt_succ_self _
    · rw [(control.phased.absent gone).1] at running
      cases running

section Answer
variable [AudrRecord R]

omit [AudrRecord R] in
theorem trying_ends {batch : List Ref} {ops : List (Op R)} {raising : Bool}
    (accounts : ∀ op ∈ ops, op.accounts = true) : Trying batch (ops ++ [.tryEnds batch raising]) := by
  induction ops with
  | nil => exact .ends raising
  | cons op rest ih =>
    refine .account (accounts op List.mem_cons_self) (ih fun op member => ?_)
    exact accounts op (List.mem_cons_of_mem _ member)

theorem applyAccepted_accounts (batch : List (InFlight R)) (rejected : List (String × Option String))
    (unknown : List String) : ∀ op ∈ applyAccepted batch rejected unknown, op.accounts = true := by
  intro op member
  obtain ⟨item, _, rfl⟩ := List.mem_map.mp member
  dsimp only
  split
  · rfl
  · split_ifs <;> rfl

theorem applyAnswer_accounts (batch : List (InFlight R)) (answer : SinkAnswer) :
    ∀ op ∈ (applyAnswer batch answer).1, op.accounts = true := by
  intro op member
  cases answer with
  | result result =>
    cases result with
    | accepted rejected unknown =>
      rcases List.mem_append.mp member with each | last
      · exact applyAccepted_accounts _ _ _ op each
      · rw [List.mem_singleton.mp last]
        rfl
    | failed retryable detail =>
      obtain ⟨item, _, rfl⟩ := List.mem_map.mp member
      rfl
    | closed =>
      obtain ⟨item, _, rfl⟩ := List.mem_map.mp member
      rfl
  | malformed rejected unknown reads => exact applyAccepted_accounts _ _ _ op member
  | exception =>
    obtain ⟨item, _, rfl⟩ := List.mem_map.mp member
    rfl
  | cancelled =>
    obtain ⟨item, _, rfl⟩ := List.mem_map.mp member
    rfl
  | escape => cases member

theorem Control.answer (control : s.Control) {batch : List Ref} (top : s.todo = [])
    (at_ : s.worker = .delivering batch) (settled : SinkAnswer) : (answer batch settled s).Control := by
  have carried := control.carried
  rw [at_] at carried
  refine ⟨.of_section (.trying rfl carried ?_), trivial, ?_, ⟨fun open_ => ⟨?_, rfl⟩,
    control.phased.running, nofun, fun _ => control.phased.started (by rw [at_]; nofun)⟩⟩
  · simp only [State.answer, State.push, top, List.append_nil]
    exact trying_ends (applyAnswer_accounts _ _)
  · have lined := control.lined
    simp only [Lined, line, at_] at lined
    exact lined
  · exact (control.phased.uncalled open_).1

end Answer

theorem Control.escape (control : s.Control) {site : Site} {rest : List (Op R)}
    (top : s.todo = .user site :: rest) : (unwind rest (s.pop rest)).Control := by
  have under : (s.pop rest).Control := control.pop top rfl
  have unwound : Unwound (s.pop rest) rest (unwind rest (s.pop rest)) := under.stack.unwound
  generalize unwind rest (s.pop rest) = t at unwound ⊢
  cases unwound with
  | resumes stacked => exact under.restack rfl rfl stacked
  | finishes caught at_ => exact under.finish (by rw [at_]; nofun) nofun rfl rfl rfl
  | stops caught gone called =>
    have free : WorkerAt.concludes s.worker = false := by
      have gone : s.worker.gone = true := gone
      cases at_ : s.worker <;> simp_all [WorkerAt.gone, WorkerAt.concludes]
    exact under.stop_on (.of_section (.free free)) called nofun rfl rfl

theorem Control.move [AudrRecord R] {act : Act R} (control : s.Control) (move : Move o s act t) :
    t.Control := by
  cases move with
  | returned top => exact (control.pop top rfl).restack rfl rfl (control.pop top rfl).stack
  | fail top => exact (control.pop_account top rfl).accounted (accounted_fail o _ _ _ _ _ _)
  | markSent top => exact (control.pop_account top rfl).accounted (accounted_markSent _ _)
  | notifyDelivered top => exact (control.pop_account top rfl).accounted (accounted_notifyDelivered o _ _)
  | tryEnds top =>
    obtain ⟨rfl, at_, refs⟩ := (control.section_ top rfl).at_tryEnds
    exact control.restack rfl rfl (.of_section (.concluding at_ refs))
  | concludeItem top => exact control.conclude_item top
  | finish top =>
    obtain ⟨rfl, at_, refs⟩ := (control.section_ top rfl).at_conclude
    exact control.finish (by simp [at_]) (fun _ => List.map_eq_nil_iff.mp refs) rfl rfl rfl
  | releaseInFlight top => exact control.release top
  | abandonQueue top => exact control.abandon_queue top
  | abandonItems top => exact control.abandon_items top
  | shutdown top => exact control.shutdown top
  | @closeSink raising rest top =>
    obtain ⟨rfl, gone, called, _⟩ := (control.section_ top rfl).at_closeSink
    have free : s.worker.concludes = false := by
      cases at_ : s.worker <;> simp_all [WorkerAt.gone, WorkerAt.concludes]
    refine control.stop_on (.of_section (.free free)) called ?_ rfl rfl
    simp only [State.closeSink]
    split_ifs <;> simp
  | submit top => exact control.submit _
  | flush top =>
    unfold State.flush
    split_ifs
    · exact control.restack rfl rfl control.stack
    · exact control.restack rfl rfl control.stack
  | stop top => exact control.beginStop
  | start top => exact control.start
  | leaves top => exact control.pop top rfl
  | escapes top => exact control.escape top
  | task top => exact control.restack rfl rfl (control.stack.add [.user .host] (by simp [Op.calls]))
  | workerGets top at_ queue wanted =>
    have carried := control.carried
    rw [at_] at carried
    refine control.collect ?_ (by simp [beginInFlight, at_, WorkerAt.popped]) ?_ top (by simp [at_]) rfl
    · simp [beginInFlight, show s.inFlight = [] from carried, itemRefs]
    · simp [line, beginInFlight, itemRefs, queueRefs, queue, at_, WorkerAt.popped]
  | getTaskPops top at_ queue =>
    have carried := control.carried
    rw [at_] at carried
    refine control.worker_on rfl top rfl (by simp) (by simp [at_]) carried ?_ rfl
    simp [line, queueRefs, queue, at_, WorkerAt.popped]
  | lingerReturns top at_ =>
    have carried := control.carried
    rw [at_] at carried
    refine control.worker_on rfl top rfl (by simp) (by simp [at_]) carried ?_ rfl
    simp [line, queueRefs, at_, WorkerAt.popped]
  | @reclaimedRecord expired batch q top at_ wanted =>
    have carried := control.carried
    rw [at_] at carried
    rw [← collect_worker o _ _ _ .getting]
    refine control.collect ?_ rfl ?_ top (by simp [at_]) rfl
    · simp only [beginInFlight, itemRefs_append, show itemRefs s.inFlight = batch from carried]
      rfl
    · simp [line, beginInFlight, itemRefs, queueRefs, at_, WorkerAt.popped]
  | reclaimedNothing top at_ wanted =>
    have carried := control.carried
    rw [at_] at carried
    refine control.worker_on rfl top rfl (by simp [deliver]) (by simp [at_]) carried ?_ rfl
    simp [line, queueRefs, deliver, at_, WorkerAt.popped]
  | cancelledGetting top at_ cancelled =>
    refine control.worker_on rfl top rfl (by simp) (by simp [at_]) trivial ?_ rfl
    simp [line, queueRefs, at_, WorkerAt.popped]
  | cancelledReclaiming top at_ cancelled =>
    refine control.worker_on rfl top rfl (by simp) (by simp [at_]) trivial ?_ rfl
    simp only [line, queueRefs, WorkerAt.popped, List.map_nil, List.append_nil]
    exact (List.sublist_append_left _ _).append_right _
  | sinkAnswers top at_ => exact control.answer top at_ _
  | flushSettles top found waiting truthful => exact control.restack rfl rfl control.stack
  | stopTimesOut top at_ =>
    have free := (top ▸ control.stack).empty
    refine control.restack rfl rfl ?_
    rw [State.push, top, List.append_nil]
    exact .of_section (.draining free (by simp [at_]) .queue)
  | stopJoins top at_ =>
    have free := (top ▸ control.stack).empty
    refine control.restack rfl rfl ?_
    rw [State.push, top, List.append_nil]
    exact .of_section (.draining free (by simp [at_]) .done)
  | stopCancelledDraining top at_ =>
    have free := (top ▸ control.stack).empty
    refine control.restack rfl rfl ?_
    rw [State.push, top, List.append_nil]
    exact .of_section (.draining free (by simp [at_]) .done)
  | stopInterrupted top at_ => exact control.stop_on control.stack (by simp [at_]) (by simp) rfl rfl
  | stopCancelledClosing top at_ => exact control.stop_on control.stack (by simp [at_]) (by simp) rfl rfl
  | workerGathered top ended at_ =>
    refine control.restack rfl rfl ?_
    rw [State.push, top, List.append_nil]
    exact .of_section (.closing (by rw [ended]; rfl) (by simp [at_]) trivial .queue)
  | gatherRaises top ended at_ => exact control.stop_on control.stack (by simp [at_]) (by simp) rfl rfl
  | closeSettles top at_ => exact control.stop_on control.stack (by simp [at_]) (by simp) rfl rfl

theorem control_initial : (initial R).Control where
  stack := .of_section (.free rfl)
  carried := rfl
  lined := ⟨.nil, nofun⟩
  phased := ⟨fun _ => ⟨rfl, rfl⟩, nofun, fun _ => ⟨rfl, rfl⟩, fun present => absurd rfl present⟩

end State

end Audr.PyPipeline
