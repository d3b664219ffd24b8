import Audr.PyPipeline.Conservation

/-! When a flush of the Python pipeline tells the truth. `queue.join()` waits for a count
of unfinished tasks, and that count covers whatever is queued, being collected or being
delivered; so a flush that waits may be believed. One that is called after a stop has
begun does not wait, and is right only when nothing is outstanding. -/

namespace Audr.PyPipeline

open Transition (Run)

variable {R : Type}

/-- The batch the worker is collecting, delivering or accounting for. -/
def WorkerAt.batch : WorkerAt R → List Ref
  | .lingering batch _ => batch
  | .reclaiming batch _ => batch
  | .delivering batch => batch
  | .concluding batch => batch
  | _ => []

def WorkerAt.busy : WorkerAt R → Bool
  | .absent => false
  | .getting => false
  | .ended => false
  | _ => true

namespace State

/-- The count behind `queue.join()` is right: every record taken off the queue is owed one
`task_done`, by the worker or by nobody any more. And no batch is empty. -/
structure Tasks (s : State R) : Prop where
  unfinished : s.unfinished = s.queue.length + s.worker.batch.length + s.worker.popped.length +
    s.orphaned.length + s.lost.length
  solid : s.worker.busy = true → s.worker.batch ≠ []

variable {s t : State R} {o : Options}

theorem Tasks.solid_at (tasks : s.Tasks) {worker : WorkerAt R} {batch : List Ref} (at_ : s.worker = worker)
    (busy : worker.busy = true) (same : worker.batch = batch) : batch ≠ [] :=
  same ▸ at_ ▸ tasks.solid (at_ ▸ busy)

theorem tasks_finish {batch : List Ref} {raising : Bool} (tasks : s.Tasks)
    (at_ : s.worker = .concluding batch) : (finish batch raising s).Tasks := by
  have owed := tasks.unfinished
  have none : (if raising then .ended else .getting : WorkerAt R).batch = [] ∧
      (if raising then .ended else .getting : WorkerAt R).popped = [] ∧
      (if raising then .ended else .getting : WorkerAt R).busy = false := by
    cases raising <;> exact ⟨rfl, rfl, rfl⟩
  simp only [at_, WorkerAt.batch, WorkerAt.popped, List.length_nil, Nat.add_zero] at owed
  refine ⟨?_, fun busy => ?_⟩
  · rcases tasksDone_cases batch s with done | ⟨few, done⟩
    · simp only [finish, done, none.1, none.2.1, List.length_nil]
      omega
    · simp only [finish, done, joinAll, none.1, none.2.1, List.length_nil]
      omega
  · change (if raising then .ended else .getting : WorkerAt R).busy = true at busy
    rw [none.2.2] at busy
    cases busy

theorem tasks_collect {batch : List Ref} {expired : Bool} (some : batch ≠ [])
    (owed : s.unfinished = s.queue.length + batch.length + s.orphaned.length + s.lost.length) :
    (collect o batch expired s).Tasks := by
  rcases collect_cases o batch expired s with ⟨size, _, out⟩ | ⟨_, _, _, waits⟩
  · rw [out]
    refine ⟨?_, fun _ => by simp [deliver, WorkerAt.batch, some]⟩
    simp only [deliver, takeUp, WorkerAt.batch, WorkerAt.popped, List.length_append, List.length_map,
      List.length_take, List.length_drop, List.length_nil]
    omega
  · rw [waits]
    exact ⟨by simpa [WorkerAt.batch, WorkerAt.popped] using owed, fun _ => some⟩

theorem Tasks.congr (tasks : s.Tasks) (same : (t.unfinished, t.queue, t.worker, t.orphaned, t.lost) =
    (s.unfinished, s.queue, s.worker, s.orphaned, s.lost)) : t.Tasks := by
  simp only [Prod.mk.injEq] at same
  obtain ⟨unfinished, queue, worker, orphaned, lost⟩ := same
  exact ⟨by simpa only [unfinished, queue, worker, orphaned, lost] using tasks.unfinished,
    by simpa only [worker] using tasks.solid⟩

theorem Tasks.framed (tasks : s.Tasks) (same : t.frame = s.frame) : t.Tasks :=
  tasks.congr (show (t.frame.unfinished, t.frame.queue, t.frame.worker, t.frame.orphaned, t.frame.lost) = _ by
    rw [same]; rfl)

theorem tasks_abandonQueue (tasks : s.Tasks) : (abandonQueue o s).Tasks := by
  rcases abandonQueue_cases o s with ⟨q, rest, queued, same⟩ | ⟨_, same⟩
  · have owed := tasks.unfinished
    rw [queued, List.length_cons] at owed
    have after : (taskDone { s with queue := rest }).Tasks := by
      rcases taskDone_cases { s with queue := rest } with done | ⟨last, done⟩ <;> rw [done]
      · exact ⟨by dsimp only; omega, tasks.solid⟩
      · exact ⟨by simp only [joinAll] at last ⊢; omega, tasks.solid⟩
    exact after.framed same
  · exact tasks.framed same

theorem Tasks.turn [AudrRecord R] {act : Act R} (tasks : s.Tasks) (control : s.Control)
    (turn : Turn o s act t) : t.Tasks := by
  have owed := tasks.unfinished
  cases turn with
  | finish top at_ empty => exact tasks_finish (tasks.congr rfl) at_
  | abandonQueue called => exact tasks_abandonQueue (tasks.congr rfl)
  | shutdown called =>
    unfold State.shutdown
    split_ifs <;> exact tasks.congr rfl
  | @submit record =>
    rcases submit_cases o record s with ⟨_, refused, _⟩ | ⟨_, _, queued⟩
    · exact (tasks.congr rfl : Tasks { s with submitted := s.submitted + 1 }).framed refused.frame
    · rw [queued]
      exact ⟨by simp only [List.length_append, List.length_singleton]; omega, tasks.solid⟩
  | flush =>
    unfold State.flush
    split_ifs <;> exact tasks.congr rfl
  | stop =>
    unfold State.beginStop
    split_ifs <;> exact tasks.congr rfl
  | start =>
    unfold State.start
    split_ifs with begun
    · exact tasks
    · have absent : s.worker = .absent := by
        by_contra present
        have started := control.phased.started present
        simp_all
      rw [absent] at owed
      exact ⟨owed, fun busy => by cases busy⟩
  | spills caught at_ => exact tasks_finish (tasks.congr rfl) at_
  | @workerGets expired q rest at_ empty queue wanted =>
    refine tasks_collect (by simp) ?_
    simp only [at_, queue, takeUp, WorkerAt.batch, WorkerAt.popped, List.length_nil, List.length_cons,
      List.drop_succ_cons, List.drop_zero] at owed ⊢
    omega
  | getTaskPops at_ queue =>
    simp only [at_, queue, WorkerAt.batch, WorkerAt.popped, List.length_cons, Option.toList_none,
      List.length_nil] at owed
    refine ⟨?_, fun _ => tasks.solid_at at_ rfl rfl⟩
    simp only [WorkerAt.batch, WorkerAt.popped, Option.toList_some, List.length_singleton]
    omega
  | lingerReturns at_ =>
    rw [at_] at owed
    exact ⟨owed, fun _ => tasks.solid_at at_ rfl rfl⟩
  | reclaimedRecord at_ wanted =>
    refine tasks_collect (by simp) ?_
    simp only [at_, WorkerAt.batch, WorkerAt.popped, Option.toList_some, List.length_singleton] at owed
    simp only [beginInFlight, List.length_append, List.length_singleton]
    omega
  | reclaimedNothing at_ wanted =>
    rw [at_] at owed
    exact ⟨owed, fun _ => tasks.solid_at at_ rfl rfl⟩
  | cancelledGetting at_ cancelled =>
    rw [at_] at owed
    exact ⟨owed, fun busy => by cases busy⟩
  | @cancelledReclaiming batch popped at_ cancelled =>
    refine ⟨?_, fun busy => by cases busy⟩
    simp only [at_, WorkerAt.batch, WorkerAt.popped] at owed
    cases popped <;> simp_all [WorkerAt.batch, WorkerAt.popped] <;> omega
  | sinkAnswers at_ =>
    rw [at_] at owed
    exact ⟨owed, fun _ => tasks.solid_at at_ rfl rfl⟩
  | _ => exact tasks.congr rfl

theorem Tasks.move [AudrRecord R] {act : Act R} (tasks : s.Tasks) (control : s.Control)
    (move : Move o s act t) : t.Tasks := by
  rcases move.turn control with ⟨same, _, _⟩ | turn
  · exact tasks.framed same
  · exact tasks.turn control turn

theorem tasks_initial : (initial R).Tasks := ⟨rfl, nofun⟩

/-! A count of zero means that nothing is outstanding. -/

theorem collect_going (o : Options) (batch : List Ref) (expired : Bool) (s : State R) :
    (collect o batch expired s).worker ≠ .ended := by
  rcases collect_cases o batch expired s with ⟨size, _, out⟩ | ⟨_, _, _, waits⟩
  · rw [out]
    nofun
  · rw [waits]
    nofun

/-- A worker that has ended left nothing in flight, unless it left its batch uncollected. -/
def Emptied (s : State R) : Prop := s.worker = .ended → s.orphaned = [] → liveRefs s.inFlight = []

/-- With no task unfinished every record submitted is counted. -/
theorem Tasks.idle (tasks : s.Tasks) (control : s.Control) (emptied : s.Emptied) (none : s.unfinished = 0) :
    s.held = 0 := by
  have owed := tasks.unfinished
  rw [none] at owed
  have queue : s.queue = [] := List.length_eq_zero_iff.mp (by omega)
  have batch : s.worker.batch = [] := List.length_eq_zero_iff.mp (by omega)
  have popped : s.worker.popped = [] := List.length_eq_zero_iff.mp (by omega)
  have orphaned : s.orphaned = [] := List.length_eq_zero_iff.mp (by omega)
  have lost : s.lost = [] := List.length_eq_zero_iff.mp (by omega)
  refine held_none queue popped ?_ lost
  have carried := control.carried
  cases at_ : s.worker with
  | absent => rw [at_] at carried; rw [show s.inFlight = [] from carried]; rfl
  | getting => rw [at_] at carried; rw [show s.inFlight = [] from carried]; rfl
  | ended => exact emptied at_ orphaned
  | _ => exact absurd batch (tasks.solid (by rw [at_]; rfl))

/-- The steps after which a flush may still be believed: a flush is called while the
pipeline runs or while nothing is outstanding, and no callback lets an exception escape
from the `finally` block of `_deliver` while a record of the batch is not counted. -/
def keepsFaith (s : State R) : Act R → Bool
  | .flush => s.running || (s.quiet && s.worker.popped.isEmpty && s.lost.isEmpty)
  | .leave .escapes =>
      match s.catcher with
      | .conclude _ _ _ :: _ => (liveRefs s.inFlight).isEmpty
      | _ => true
  | _ => true

theorem Emptied.stays (emptied : s.Emptied) (worker : t.worker = s.worker) (orphaned : t.orphaned = s.orphaned)
    (live : ∀ ref ∈ liveRefs t.inFlight, ref ∈ liveRefs s.inFlight) : t.Emptied := by
  intro ended none
  have before := emptied (worker ▸ ended) (orphaned ▸ none)
  exact List.eq_nil_iff_forall_not_mem.mpr fun ref member => List.not_mem_nil (before ▸ live ref member)

theorem Emptied.turn [AudrRecord R] {act : Act R} (emptied : s.Emptied) (tasks : s.Tasks)
    (control : s.Control) (permitted : s.keepsFaith act = true) (turn : Turn o s act t) : t.Emptied := by
  cases turn with
  | finish top at_ empty =>
    intro _ _
    obtain ⟨_, _, _, _, done⟩ := tasksDone_eq _ (s.pop [])
    rw [State.finish, done]
    simp [State.pop, empty, liveRefs, itemRefs]
  | @abandonQueue rest called =>
    have items := abandonQueue_inFlight o (s.pop rest)
    rcases abandonQueue_cases o (s.pop rest) with ⟨q, others, _, framed⟩ | ⟨_, framed⟩
    · have worker : _ = (taskDone { s.pop rest with queue := others }).worker :=
        congrArg (fun s => s.worker) framed
      have orphaned : _ = (taskDone { s.pop rest with queue := others }).orphaned :=
        congrArg (fun s => s.orphaned) framed
      obtain ⟨_, _, _, _, done⟩ := taskDone_eq { s.pop rest with queue := others }
      rw [done] at worker orphaned
      exact emptied.stays worker orphaned fun ref live => by rwa [items] at live
    · have worker : _ = s.worker := congrArg (fun s => s.worker) framed
      have orphaned : _ = s.orphaned := congrArg (fun s => s.orphaned) framed
      exact emptied.stays worker orphaned fun ref live => by rwa [items] at live
  | shutdown called =>
    unfold State.shutdown
    split_ifs <;> exact emptied.stays rfl rfl fun _ live => live
  | @submit record =>
    rcases submit_cases o record s with ⟨_, refused, items⟩ | ⟨_, _, queued⟩
    · have worker : _ = s.worker := congrArg (fun s => s.worker) refused.frame
      have orphaned : _ = s.orphaned := congrArg (fun s => s.orphaned) refused.frame
      exact emptied.stays worker orphaned fun ref live => by rwa [items] at live
    · rw [queued]
      exact emptied.stays rfl rfl fun _ live => live
  | flush =>
    unfold State.flush
    split_ifs <;> exact emptied.stays rfl rfl fun _ live => live
  | stop =>
    unfold State.beginStop
    split_ifs <;> exact emptied.stays rfl rfl fun _ live => live
  | start =>
    unfold State.start
    split_ifs
    · exact emptied
    · exact fun ended => by cases ended
  | spills caught at_ =>
    intro _ _
    obtain ⟨_, _, _, _, done⟩ := tasksDone_eq _ (s.pop [])
    rw [State.finish, done]
    have none : liveRefs s.inFlight = [] := by simpa [keepsFaith, caught] using permitted
    exact none
  | workerGets at_ empty queue wanted => exact fun ended => absurd ended (collect_going o _ _ _)
  | reclaimedRecord at_ wanted => exact fun ended => absurd ended (collect_going o _ _ _)
  | cancelledGetting at_ cancelled =>
    have carried := control.carried
    rw [at_] at carried
    intro _ _
    rw [show s.inFlight = [] from carried]
    rfl
  | cancelledReclaiming at_ cancelled =>
    intro _ none
    exact absurd (List.append_eq_nil_iff.mp none).2 (tasks.solid_at at_ rfl rfl)
  | getTaskPops at_ queue => exact fun ended => by cases ended
  | lingerReturns at_ => exact fun ended => by cases ended
  | reclaimedNothing at_ wanted => exact fun ended => by cases ended
  | sinkAnswers at_ => exact fun ended => by cases ended
  | _ => exact emptied.stays rfl rfl fun _ live => live

theorem Emptied.move [AudrRecord R] {act : Act R} (emptied : s.Emptied) (tasks : s.Tasks)
    (control : s.Control) (permitted : s.keepsFaith act = true) (move : Move o s act t) : t.Emptied := by
  rcases move.turn control with ⟨framed, live, _⟩ | turn
  · exact emptied.stays (congrArg (fun s => s.worker) framed) (congrArg (fun s => s.orphaned) framed) live
  · exact emptied.turn tasks control permitted turn

/-! What flushes were told. -/

/-- Every record submitted before a certain one is in a terminal state. -/
def DoneBefore (s : State R) (count : Nat) : Prop := ∀ ref < count, ref ∈ s.settled.map Prod.fst

/-- A flush whose `queue.join()` may return, and one that was told `True`, are right. -/
structure Truthful (s : State R) : Prop where
  known : ∀ flush ∈ s.flushes, flush.submittedBefore ≤ s.submitted
  joined : ∀ flush ∈ s.flushes, flush.joined = true → s.DoneBefore flush.submittedBefore
  told : ∀ count, (count, true) ∈ s.flushed → s.DoneBefore count

theorem Sound.done (sound : s.Sound) (none : s.held = 0) {count : Nat} (known : count ≤ s.submitted) :
    s.DoneBefore count := fun _ before =>
  sound.balanced.all_closed none (Nat.lt_of_lt_of_le before known)

/-- A terminal state is never left. -/
theorem DoneBefore.stays [AudrRecord R] {act : Act R} {count : Nat} (sound : s.Sound)
    (done : s.DoneBefore count) (move : Move o s act t) : t.DoneBefore count := by
  intro ref before
  rcases move.books sound.control with ⟨_, _, books⟩ | books
  · exact ((Accounts.closed_prefix books.steps).sublist.map Prod.fst).subset (done ref before)
  · exact ((Accounts.closed_prefix books.steps).sublist.map Prod.fst).subset (done ref before)

/-- What a step does to the flushes: nothing; or it wakes all of them, with no task left
unfinished; or one is called, with nothing outstanding if it does not wait; or one is over. -/
inductive Waits (s t : State R) : Prop where
  | same (flushes : t.flushes = s.flushes) (flushed : t.flushed = s.flushed) : Waits s t
  | joins (flushes : t.flushes = s.flushes.map fun flush => { flush with joined := true })
      (flushed : t.flushed = s.flushed) (none : t.unfinished = 0) : Waits s t
  | refused (none : s.held = 0) (flushes : t.flushes = s.flushes)
      (flushed : t.flushed = s.flushed ++ [(s.submitted, true)]) : Waits s t
  | called (flushes : t.flushes = s.flushes ++ [⟨s.submitted, s.unfinished = 0, false⟩])
      (flushed : t.flushed = s.flushed) : Waits s t
  | settles {index : Nat} {flush : Flush} {result : Option Bool} (found : s.flushes[index]? = some flush)
      (truthful : result = some true → flush.joined = true)
      (flushes : t.flushes = s.flushes.set index { flush with settled := true })
      (flushed : t.flushed = s.flushed ++
        (result.map fun told => (flush.submittedBefore, told)).toList) : Waits s t

theorem waits_finish (batch : List Ref) (raising : Bool) (flushes : t.flushes = s.flushes)
    (flushed : t.flushed = s.flushed) : Waits s (finish batch raising t) := by
  rcases tasksDone_cases batch t with done | ⟨_, done⟩ <;> rw [finish, done]
  · exact .same flushes flushed
  · exact .joins (by rw [← flushes]; rfl) flushed rfl

theorem Waits.framed {u : State R} (waits : Waits s t) (same : u.frame = t.frame) : Waits s u := by
  have flushes : u.flushes = t.flushes := congrArg (fun s => s.flushes) same
  have flushed : u.flushed = t.flushed := congrArg (fun s => s.flushed) same
  have unfinished : u.unfinished = t.unfinished := congrArg (fun s => s.unfinished) same
  cases waits with
  | same one two => exact .same (flushes.trans one) (flushed.trans two)
  | joins one two none => exact .joins (flushes.trans one) (flushed.trans two) (unfinished.trans none)
  | refused none one two => exact .refused none (flushes.trans one) (flushed.trans two)
  | called one two => exact .called (flushes.trans one) (flushed.trans two)
  | settles found truthful one two => exact .settles found truthful (flushes.trans one) (flushed.trans two)

theorem waits_collect (batch : List Ref) (expired : Bool) (flushes : t.flushes = s.flushes)
    (flushed : t.flushed = s.flushed) : Waits s (collect o batch expired t) := by
  rcases collect_cases o batch expired t with ⟨size, _, out⟩ | ⟨_, _, _, waits⟩
  · rw [out]
    exact .same flushes flushed
  · rw [waits]
    exact .same flushes flushed

theorem Turn.waits [AudrRecord R] {act : Act R} (turn : Turn o s act t)
    (permitted : s.keepsFaith act = true) : Waits s t := by
  cases turn with
  | @finish batch raising => exact waits_finish batch raising rfl rfl
  | @abandonQueue rest called =>
    rcases abandonQueue_cases o (s.pop rest) with ⟨q, others, _, framed⟩ | ⟨_, framed⟩
    · refine Waits.framed ?_ framed
      rcases taskDone_cases { s.pop rest with queue := others } with done | ⟨_, done⟩ <;> rw [done]
      · exact .same rfl rfl
      · exact .joins rfl rfl rfl
    · exact Waits.framed (t := s.pop rest) (.same rfl rfl) framed
  | shutdown called =>
    unfold State.shutdown
    split_ifs <;> exact .same rfl rfl
  | @submit record =>
    rcases submit_cases o record s with ⟨_, refused, _⟩ | ⟨_, _, queued⟩
    · exact Waits.framed (t := { s with submitted := s.submitted + 1 }) (.same rfl rfl) refused.frame
    · rw [queued]
      exact .same rfl rfl
  | flush =>
    unfold State.flush
    split_ifs with stopped
    · simp only [keepsFaith, Bool.or_eq_true, Bool.and_eq_true, List.isEmpty_iff, quiet_iff] at permitted
      obtain ⟨⟨⟨queue, live⟩, popped⟩, lost⟩ := permitted.resolve_left (by simpa using stopped)
      exact .refused (held_none queue popped live lost) rfl rfl
    · exact .called rfl rfl
  | stop =>
    unfold State.beginStop
    split_ifs <;> exact .same rfl rfl
  | start =>
    unfold State.start
    split_ifs <;> exact .same rfl rfl
  | @spills pending batch raising => exact waits_finish batch true rfl rfl
  | workerGets => exact waits_collect _ _ rfl rfl
  | reclaimedRecord => exact waits_collect _ _ rfl rfl
  | flushSettles found waiting truthful => exact .settles found truthful rfl rfl
  | _ => exact .same rfl rfl

theorem submitted_le [AudrRecord R] {act : Act R} (sound : s.Sound) (move : Move o s act t) :
    s.submitted ≤ t.submitted := by
  rcases move.books sound.control with ⟨_, _, books⟩ | books <;> rw [books.taken]
  · exact Nat.le_succ _
  · exact Nat.le_refl _

/-- What is known of the flushes stays known across a step. -/
theorem Truthful.step [AudrRecord R] {act : Act R} (truthful : s.Truthful) (sound : s.Sound)
    (after : t.Sound) (idle : ∀ u : State R, (u = s ∨ u = t) → u.unfinished = 0 → u.held = 0)
    (move : Move o s act t) (waits : Waits s t) : t.Truthful := by
  have grows := submitted_le sound move
  have known {flush : Flush} (member : flush ∈ s.flushes) : flush.submittedBefore ≤ t.submitted :=
    Nat.le_trans (truthful.known flush member) grows
  have joined {flush : Flush} (member : flush ∈ s.flushes) (done : flush.joined = true) :
      t.DoneBefore flush.submittedBefore :=
    (truthful.joined flush member done).stays sound move
  have told {count : Nat} (member : (count, true) ∈ s.flushed) : t.DoneBefore count :=
    (truthful.told count member).stays sound move
  cases waits with
  | same flushes flushed =>
    exact ⟨fun _ member => known (flushes ▸ member), fun _ member => joined (flushes ▸ member),
      fun _ member => told (flushed ▸ member)⟩
  | joins flushes flushed none =>
    refine ⟨fun flush member => ?_, fun flush member _ => ?_, fun _ member => told (flushed ▸ member)⟩
    · rw [flushes] at member
      obtain ⟨before, present, rfl⟩ := List.mem_map.mp member
      exact show before.submittedBefore ≤ _ from known present
    · rw [flushes] at member
      obtain ⟨before, present, rfl⟩ := List.mem_map.mp member
      exact after.done (idle t (.inr rfl) none) (show before.submittedBefore ≤ _ from known present)
  | refused none flushes flushed =>
    refine ⟨fun _ member => known (flushes ▸ member), fun _ member => joined (flushes ▸ member),
      fun count member => ?_⟩
    rw [flushed] at member
    rcases List.mem_append.mp member with old | new
    · exact told old
    · obtain ⟨rfl, _⟩ := Prod.mk.inj (List.mem_singleton.mp new)
      exact (sound.done none (Nat.le_refl _)).stays sound move
  | called flushes flushed =>
    refine ⟨fun flush member => ?_, fun flush member done => ?_, fun _ member => told (flushed ▸ member)⟩
    · rw [flushes] at member
      rcases List.mem_append.mp member with old | new
      · exact known old
      · rw [List.mem_singleton.mp new]
        exact grows
    · rw [flushes] at member
      rcases List.mem_append.mp member with old | new
      · exact joined old done
      · rw [List.mem_singleton.mp new] at done ⊢
        have none : s.unfinished = 0 := by simpa using done
        exact (sound.done (idle s (.inl rfl) none) (Nat.le_refl _)).stays sound move
  | @settles index flush result found believed flushes flushed =>
    have present := List.mem_of_getElem? found
    refine ⟨fun other member => ?_, fun other member done => ?_, fun count member => ?_⟩
    · rw [flushes] at member
      rcases List.mem_or_eq_of_mem_set member with old | rfl
      · exact known old
      · exact show flush.submittedBefore ≤ _ from known present
    · rw [flushes] at member
      rcases List.mem_or_eq_of_mem_set member with old | rfl
      · exact joined old done
      · exact show t.DoneBefore flush.submittedBefore from joined present done
    · rw [flushed] at member
      rcases List.mem_append.mp member with old | new
      · exact told old
      · cases result with
        | none => cases new
        | some said =>
          obtain ⟨rfl, rfl⟩ := Prod.mk.inj (List.mem_singleton.mp new)
          exact joined present (believed rfl)

/-- All that makes a flush of the pipeline believable. -/
structure Faithful (s : State R) : Prop where
  sound : s.Sound
  tasks : s.Tasks
  emptied : s.Emptied
  truthful : s.Truthful

theorem Faithful.move [AudrRecord R] {act : Act R} (faithful : s.Faithful)
    (permitted : s.keepsFaith act = true) (move : Move o s act t) : t.Faithful := by
  have control := faithful.sound.control
  have sound := faithful.sound.move move
  have tasks := faithful.tasks.move control move
  have emptied := faithful.emptied.move faithful.tasks control permitted move
  have waits : Waits s t := by
    rcases move.turn control with ⟨framed, _, _⟩ | turn
    · exact Waits.framed (t := s) (.same rfl rfl) framed
    · exact turn.waits permitted
  refine ⟨sound, tasks, emptied, faithful.truthful.step faithful.sound sound ?_ move waits⟩
  rintro u (rfl | rfl) none
  · exact faithful.tasks.idle control faithful.emptied none
  · exact tasks.idle sound.control emptied none

theorem faithful_initial : (initial R).Faithful :=
  ⟨sound_initial, tasks_initial, nofun, ⟨nofun, nofun, nofun⟩⟩

/-- A flush called after a stop has begun is wrong whenever something is outstanding. -/
theorem flush_untrue (sound : s.Sound) (stopped : s.running = false) (outstanding : s.held ≠ 0) :
    (s.submitted, true) ∈ (flush s).flushed ∧ ¬ (flush s).DoneBefore s.submitted := by
  have told : flush s = { s with flushed := s.flushed ++ [(s.submitted, true)] } := by
    simp [flush, stopped]
  rw [told]
  refine ⟨List.mem_append_right _ (List.mem_singleton.mpr rfl), fun done => ?_⟩
  obtain ⟨ref, member⟩ := Multiset.exists_mem_of_ne_zero outstanding
  have known : ref < s.submitted := sound.balanced.lt_issued.mpr (.inl member)
  exact sound.balanced.not_held (done ref known) member

end State

/-- The states a pipeline can be in while flushes may be believed. -/
abbrev ReachesFaithfully [AudrRecord R] (o : Options) (labels : List (Act R)) (s : State R) : Prop :=
  Run (step o) (fun s act => s.keepsFaith act = true) (initial R) labels s

variable [AudrRecord R] {o : Options} {labels : List (Act R)} {s : State R}

theorem faithful_run (run : ReachesFaithfully o labels s) : s.Faithful :=
  run.invariant State.Faithful State.faithful_initial fun _ _ _ faithful permitted taken =>
    faithful.move permitted (State.step_moves taken)

/-- Every flush that was told `True` was told so after each record submitted before it had
reached a terminal state. -/
theorem flush_truthful (run : ReachesFaithfully o labels s) :
    ∀ count, (count, true) ∈ s.flushed → ∀ ref < count, ref ∈ s.settled.map Prod.fst :=
  fun count member ref before => (faithful_run run).truthful.told count member ref before

/-- A flush called while a stop drains is told `True` at once. -/
def lieLabels : List (Act String) :=
  [.task, .start, .submit "a", .leave .returns, .workerGets true, .task, .stop, .flush]

def lie : State String :=
  (Transition.execute (step smallOptions) (initial String) lieLabels).getD (initial String)

/-- The record it speaks for is still with the sink. -/
theorem flush_lies : Reaches smallOptions lieLabels lie ∧ (1, true) ∈ lie.flushed ∧
    ¬ ∀ ref < 1, ref ∈ lie.settled.map Prod.fst :=
  ⟨Run.of_execute rfl, by decide, by decide⟩

/-- Two overlapping flushes of a running pipeline, the first of which times out. -/
def flushLabels : List (Act String) :=
  [.task, .start, .submit "a", .flush, .leave .returns, .workerGets false, .task, .submit "b", .flush,
    .leave .returns, .flushSettles 0 (some false), .sinkAnswers (.result (.accepted [] [])), .next, .next,
    .leave .raises, .next, .next, .next, .next, .workerGets true, .sinkAnswers .exception, .next,
    .leave .returns, .next, .next, .next, .next, .flushSettles 1 (some true)]

def flushedTwice : State String :=
  (Transition.executeWithin (step smallOptions) (fun s act => s.keepsFaith act = true) (initial String)
    flushLabels).getD (initial String)

theorem flush_truthful_overlapping : flushedTwice.flushed = [(1, false), (2, true)] ∧
    ∀ ref < 2, ref ∈ flushedTwice.settled.map Prod.fst := by
  have run : ReachesFaithfully smallOptions flushLabels flushedTwice := Run.of_executeWithin rfl
  exact ⟨rfl, flush_truthful run 2 (by decide)⟩

end Audr.PyPipeline
