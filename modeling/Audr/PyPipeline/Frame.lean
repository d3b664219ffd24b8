import Audr.PyPipeline.Stack

/-! What the functions of the Python pipeline leave alone, and what the loops of the
worker come to. Counting a record touches the counters and the records in flight only. -/

namespace Audr.PyPipeline

variable {R : Type}

namespace State

variable {s t u : State R} {o : Options}

/-! Counting a record. -/

/-- What counting leaves alone. -/
def frame (s : State R) : State R :=
  { s with
    inFlight := []
    sent := 0
    dropped := 0
    unknown := 0
    todo := []
    settled := []
    reported := []
    returned := [] }

/-- Code that counts records, and leaves user code to run. -/
structure Accounted (s t : State R) : Prop where
  frame : t.frame = s.frame
  above : ∃ above, t.todo = above ++ s.todo ∧ ∀ op ∈ above, op.calls = true
  refs : itemRefs t.inFlight = itemRefs s.inFlight
  live : ∀ ref ∈ liveRefs t.inFlight, ref ∈ liveRefs s.inFlight

theorem Accounted.refl (s : State R) : Accounted s s := ⟨rfl, ⟨[], rfl, by simp⟩, rfl, fun _ live => live⟩

theorem Accounted.trans (first : Accounted s t) (second : Accounted t u) : Accounted s u := by
  obtain ⟨inner, under, calls⟩ := first.above
  obtain ⟨outer, onto, more⟩ := second.above
  refine ⟨second.frame.trans first.frame, ⟨outer ++ inner, ?_, fun op member => ?_⟩,
    second.refs.trans first.refs, fun ref live => first.live ref (second.live ref live)⟩
  · rw [onto, under, List.append_assoc]
  · rcases List.mem_append.mp member with early | late
    · exact more op early
    · exact calls op late

theorem accounted_count (ref : Ref) (terminal : Terminal) (s : State R) : Accounted s (count ref terminal s) :=
  ⟨rfl, ⟨[], rfl, by simp⟩, rfl, fun _ live => live⟩

theorem accounted_notifyFailure (o : Options) (ref : Ref) (failure : FailedRecord R) (s : State R) :
    Accounted s (notifyFailure o ref failure s) := by
  unfold notifyFailure
  split_ifs
  · exact ⟨rfl, ⟨[.user .onFailure], rfl, by simp [Op.calls]⟩, rfl, fun _ live => live⟩
  · exact .refl s

theorem accounted_settleItem (ref : Ref) (terminal : Terminal) (s : State R) :
    Accounted s (settleItem ref terminal s) := by
  refine ⟨rfl, ⟨[], rfl, by simp⟩, itemRefs_marked ref terminal _, fun other live => ?_⟩
  have member : other ∈ liveRefs (marked ref terminal s.inFlight) := live
  rw [liveRefs_marked] at member
  exact List.mem_of_mem_filter member

theorem accounted_markSent (ref : Ref) (s : State R) : Accounted s (markSent ref s) := by
  unfold markSent
  split_ifs
  · exact accounted_settleItem ref .sent s
  · exact .refl s

theorem accounted_fail (o : Options) (ref : Ref) (disposition : Disposition) (reason : FailureReason)
    (retryable : Bool) (detail : Option String) (s : State R) :
    Accounted s (fail o ref disposition reason retryable detail s) := by
  unfold fail
  split
  · exact .refl s
  · exact (accounted_settleItem ref disposition.terminal s).trans (accounted_notifyFailure o _ _ _)

/-- After `_drop` or `_mark_unknown` the record is counted, if it was in flight at all. -/
theorem fail_counts (o : Options) (ref : Ref) (disposition : Disposition) (reason : FailureReason)
    (retryable : Bool) (detail : Option String) (s : State R) :
    ref ∉ liveRefs (fail o ref disposition reason retryable detail s).inFlight := by
  unfold fail
  split
  next absent => exact not_mem_of_findLive absent
  next item found =>
    have items : (notifyFailure o ref ⟨item.record, disposition, reason, retryable, detail⟩
        (settleItem ref disposition.terminal s)).inFlight = marked ref disposition.terminal s.inFlight := by
      unfold notifyFailure
      split_ifs <;> rfl
    rw [items, liveRefs_marked]
    simp

theorem accounted_notifyDelivered (o : Options) (batch : List Ref) (s : State R) :
    Accounted s (notifyDelivered o batch s) := by
  unfold notifyDelivered
  split_ifs
  · exact ⟨rfl, ⟨[.user .onDelivered], rfl, by simp [Op.calls]⟩, rfl, fun _ live => live⟩
  · exact .refl s

/-! What `task_done` and `_collect_batch` come to. -/

/-- Every `queue.join()` may return. -/
def joinAll (s : State R) : State R :=
  { s with flushes := s.flushes.map fun flush => { flush with joined := true }, stop := s.stop.join }

theorem join_notCalled (at_ : StopAt) : at_.join = .notCalled ↔ at_ = .notCalled := by
  cases at_ <;> simp [StopAt.join]

theorem joinAll_joinAll (s : State R) : joinAll (joinAll s) = joinAll s := by
  have stop : s.stop.join.join = s.stop.join := by cases s.stop <;> rfl
  simp only [joinAll, List.map_map, stop]
  rfl

theorem taskDone_cases (s : State R) :
    taskDone s = { s with unfinished := s.unfinished - 1 } ∨
    (s.unfinished = 1 ∧ taskDone s = { joinAll s with unfinished := 0 }) := by
  by_cases last : s.unfinished = 1
  · exact .inr ⟨last, by rw [taskDone, if_pos last]; rfl⟩
  · exact .inl (by rw [taskDone, if_neg last])

/-- Finished tasks wake a `queue.join()` only by leaving none unfinished. -/
theorem tasksDone_cases (refs : List Ref) (s : State R) :
    tasksDone refs s = { s with unfinished := s.unfinished - refs.length } ∨
    (s.unfinished ≤ refs.length ∧ tasksDone refs s = { joinAll s with unfinished := 0 }) := by
  induction refs generalizing s with
  | nil => exact .inl rfl
  | cons ref rest ih =>
    change tasksDone rest (taskDone s) = _ ∨ _ ∧ tasksDone rest (taskDone s) = _
    rcases taskDone_cases s with one | ⟨last, one⟩
    · rw [one]
      rcases ih { s with unfinished := s.unfinished - 1 } with all | ⟨few, all⟩
      · left
        rw [all]
        simp only [List.length_cons, Nat.sub_sub, Nat.add_comm]
      · right
        simp only at few
        exact ⟨by simp only [List.length_cons]; omega, all⟩
    · right
      refine ⟨by simp only [List.length_cons]; omega, ?_⟩
      rw [one]
      rcases ih { joinAll s with unfinished := 0 } with all | ⟨_, all⟩
      · rw [all]
        simp only [Nat.zero_sub]
      · rw [all]
        exact congrArg (fun s : State R => { s with unfinished := 0 }) (joinAll_joinAll s)

theorem taskDone_eq (s : State R) : ∃ left flushes at_, (at_ = .notCalled ↔ s.stop = .notCalled) ∧
    taskDone s = { s with unfinished := left, flushes := flushes, stop := at_ } := by
  rcases taskDone_cases s with done | ⟨_, done⟩
  · exact ⟨_, _, _, Iff.rfl, done⟩
  · exact ⟨_, _, _, join_notCalled s.stop, done⟩

theorem tasksDone_eq (refs : List Ref) (s : State R) :
    ∃ left flushes at_, (at_ = .notCalled ↔ s.stop = .notCalled) ∧
      tasksDone refs s = { s with unfinished := left, flushes := flushes, stop := at_ } := by
  rcases tasksDone_cases refs s with done | ⟨_, done⟩
  · exact ⟨_, _, _, Iff.rfl, done⟩
  · exact ⟨_, _, _, join_notCalled s.stop, done⟩

/-- The first `size` records of the queue, in flight. -/
def takeUp (size : Nat) (s : State R) : State R :=
  { s with
    queue := s.queue.drop size
    inFlight := s.inFlight ++ (s.queue.take size).map fun q => ⟨q.ref, q.record, none⟩ }

theorem takeUp_zero (s : State R) : takeUp 0 s = s := by
  simp [takeUp]

theorem drainQueue_eq (batch : List Ref) (room : Nat) (s : State R) :
    drainQueue batch room s.queue s = deliver (batch ++ (s.queue.take room).map Queued.ref) (takeUp room s) := by
  generalize queued : s.queue = queue
  induction room generalizing batch queue s with
  | zero => simp [drainQueue, takeUp_zero]
  | succ room ih =>
    cases queue with
    | nil =>
      have same : takeUp (room + 1) s = s := by
        cases s
        simp only at queued
        simp [takeUp, queued]
      simp [drainQueue, same]
    | cons q rest =>
      have next := ih (batch ++ [q.ref]) (beginInFlight q { s with queue := rest }) rest rfl
      have same : takeUp room (beginInFlight q { s with queue := rest }) = takeUp (room + 1) s := by
        simp [takeUp, beginInFlight, queued]
      rw [drainQueue, next, same]
      simp

/-- Where the worker stood is forgotten when a batch is collected. -/
theorem collect_worker (o : Options) (batch : List Ref) (expired : Bool) (s : State R) (at_ : WorkerAt R) :
    collect o batch expired { s with worker := at_ } = collect o batch expired s := by
  have drained := drainQueue_eq batch (o.batchMaxSize - batch.length) { s with worker := at_ }
  unfold collect
  split_ifs
  · rfl
  · rw [drained, drainQueue_eq]
    rfl
  · rfl
  · rfl

/-- A batch being collected goes out, with some records of the queue, or lingers. -/
theorem collect_cases (o : Options) (batch : List Ref) (expired : Bool) (s : State R) :
    (∃ size ≤ o.batchMaxSize - batch.length,
      collect o batch expired s = deliver (batch ++ (s.queue.take size).map Queued.ref) (takeUp size s)) ∨
    (batch.length < o.batchMaxSize ∧ s.draining = false ∧ expired = false ∧
      collect o batch expired s = { s with worker := .lingering batch none }) := by
  unfold collect
  split_ifs with full draining past
  · exact .inl ⟨0, Nat.zero_le _, by simp [takeUp_zero]⟩
  · exact .inl ⟨_, Nat.le_refl _, drainQueue_eq _ _ _⟩
  · exact .inl ⟨0, Nat.zero_le _, by simp [takeUp_zero]⟩
  · exact .inr ⟨Nat.lt_of_not_le full, Bool.of_not_eq_true draining, Bool.of_not_eq_true past, rfl⟩

/-- A turn of an abandonment takes one record off the queue, or has none left. -/
theorem abandonQueue_cases (o : Options) (s : State R) :
    (∃ q rest, s.queue = q :: rest ∧
      (abandonQueue o s).frame = (taskDone { s with queue := rest }).frame) ∨
    (s.queue = [] ∧ (abandonQueue o s).frame = s.frame) := by
  unfold abandonQueue
  split
  next q rest queued =>
    exact .inl ⟨q, rest, queued, (accounted_notifyFailure o _ _ _).frame⟩
  next empty => exact .inr ⟨empty, rfl⟩

theorem abandonQueue_inFlight (o : Options) (s : State R) : (abandonQueue o s).inFlight = s.inFlight := by
  unfold abandonQueue
  split
  next q rest queued =>
    obtain ⟨_, _, _, _, done⟩ := taskDone_eq { s with queue := rest }
    rw [done]
    unfold notifyFailure
    split_ifs <;> rfl
  next => rfl

/-- A submission is refused, or goes to the end of the queue. -/
theorem submit_cases (o : Options) (record : R) (s : State R) :
    ((s.running = false ∨ o.maxQueueSize ≤ s.currentDepth) ∧
      Accounted { s with submitted := s.submitted + 1 } (submit o record s) ∧
      (submit o record s).inFlight = s.inFlight) ∨
    (s.running = true ∧ s.currentDepth < o.maxQueueSize ∧
      submit o record s =
        { s with
          submitted := s.submitted + 1
          queue := s.queue ++ [⟨s.submitted, record⟩]
          unfinished := s.unfinished + 1
          accepted := s.accepted ++ [s.submitted]
          returned := s.returned ++ [(s.submitted, .queued)] }) := by
  have refused (outcome : SubmitOutcome) (failure : FailedRecord R) :
      Accounted { s with submitted := s.submitted + 1 }
        (notifyFailure o s.submitted failure (push [.returned s.submitted outcome]
          (count s.submitted .dropped { s with submitted := s.submitted + 1 }))) ∧
      (notifyFailure o s.submitted failure (push [.returned s.submitted outcome]
          (count s.submitted .dropped { s with submitted := s.submitted + 1 }))).inFlight = s.inFlight := by
    have counted : Accounted { s with submitted := s.submitted + 1 } (push [.returned s.submitted outcome]
        (count s.submitted .dropped { s with submitted := s.submitted + 1 })) :=
      ⟨rfl, ⟨[.returned s.submitted outcome], rfl, by simp [Op.calls]⟩, rfl, fun _ live => live⟩
    refine ⟨counted.trans (accounted_notifyFailure o _ _ _), ?_⟩
    unfold notifyFailure
    split_ifs <;> rfl
  unfold submit
  simp only
  split_ifs with closed full
  · exact .inl ⟨.inl (by simpa using closed), refused _ _⟩
  · exact .inl ⟨.inr full, refused _ _⟩
  · exact .inr ⟨by simpa using closed, Nat.lt_of_not_le full, rfl⟩

end State

end Audr.PyPipeline
