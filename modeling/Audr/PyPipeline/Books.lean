import Audr.Lib.Accounts
import Audr.PyPipeline.Control
import Mathlib.Tactic.Abel

/-! The Python pipeline keeps a ledger too. A submission issues a token; the queue, the
helper task, the records in flight and those that were lost hold theirs, and a terminal
state closes one. Every step of the machine is some steps of that ledger. -/

namespace Audr.PyPipeline

open Accounts (Ledger Steps)

variable {R : Type}

namespace State

/-- The submitted records that have not reached a terminal state. -/
def held (s : State R) : Multiset Nat :=
  s.queueRefs + (s.worker.popped.map Queued.ref : List Ref) + liveRefs s.inFlight + s.lost

def ledger (s : State R) : Ledger Terminal := ⟨s.submitted, s.held, s.settled⟩

/-- Each counter is the number of records that ended in its terminal state. -/
def Counted (s : State R) : Prop := Tallied s.settled s.sent s.dropped s.unknown

/-- The part of the state that counting changes. -/
def books (s : State R) : Nat × Nat × Nat × Nat × List (Ref × Terminal) :=
  (s.submitted, s.sent, s.dropped, s.unknown, s.settled)

/-- What a piece of code does to the ledger and the counters while it takes in `new` records. -/
structure Books (new : Nat) (s t : State R) : Prop where
  taken : t.submitted = s.submitted + new
  steps : Steps s.ledger t.ledger
  counted : s.Counted → t.Counted

variable {s t u : State R} {o : Options}

theorem Books.trans {new more : Nat} (first : Books new s t) (second : Books more t u) :
    Books (new + more) s u :=
  ⟨by rw [second.taken, first.taken, Nat.add_assoc], first.steps.trans second.steps,
    second.counted ∘ first.counted⟩

/-- The same after code that takes nothing in. -/
theorem Books.next {new : Nat} (first : Books 0 s t) (second : Books new t u) : Books new s u :=
  Nat.zero_add new ▸ first.trans second

/-- Code that only moves held records about changes nothing in the ledger. -/
theorem Books.move (held : t.held = s.held) (same : t.books = s.books) : Books 0 s t := by
  simp only [books, Prod.mk.injEq] at same
  obtain ⟨submitted, sent, dropped, unknown, settled⟩ := same
  refine ⟨submitted, ?_, fun counted => ?_⟩
  · rw [show t.ledger = s.ledger by simp only [ledger, held, submitted, settled]]
  · unfold Counted
    rw [settled, sent, dropped, unknown]
    exact counted

theorem Books.congr (queue : t.queue = s.queue) (popped : t.worker.popped = s.worker.popped)
    (items : t.inFlight = s.inFlight) (lost : t.lost = s.lost) (same : t.books = s.books) : Books 0 s t :=
  Books.move (by simp only [held, queueRefs, queue, popped, items, lost]) same

theorem Books.refl (s : State R) : Books 0 s s := Books.congr rfl rfl rfl rfl rfl

theorem Books.push (ops : List (Op R)) (s : State R) : Books 0 s (push ops s) :=
  Books.congr rfl rfl rfl rfl rfl

theorem Books.pop (rest : List (Op R)) (s : State R) : Books 0 s (s.pop rest) :=
  Books.congr rfl rfl rfl rfl rfl

/-- Code that counts one held record in its terminal state closes its token. -/
theorem Books.close (ref : Ref) (terminal : Terminal) (known : ref ∈ s.held)
    (held : t.held = s.held.erase ref) (same : t.books = (State.count ref terminal s).books) :
    Books 0 s t := by
  simp only [books, Prod.mk.injEq] at same
  obtain ⟨submitted, sent, dropped, unknown, settled⟩ := same
  refine ⟨submitted, ?_, fun counted => ?_⟩
  · have closed : t.ledger = s.ledger.close ref terminal := by
      simp only [ledger, Ledger.close, held, submitted, settled]
      rfl
    rw [closed]
    exact .single (.close _ _ _ known)
  · unfold Counted
    rw [settled, sent, dropped, unknown]
    exact Tallied.count counted ref terminal

/-- Code that takes in one record and counts none issues a token. -/
theorem Books.issue (held : t.held = s.submitted ::ₘ s.held)
    (same : t.books = { s with submitted := s.submitted + 1 }.books) : Books 1 s t := by
  simp only [books, Prod.mk.injEq] at same
  obtain ⟨submitted, sent, dropped, unknown, settled⟩ := same
  refine ⟨submitted, ?_, fun counted => ?_⟩
  · rw [show t.ledger = s.ledger.issue by simp only [ledger, Ledger.issue, held, submitted, settled]]
    exact .single (.issue _)
  · unfold Counted
    rw [settled, sent, dropped, unknown]
    exact counted

/-! The functions of the pipeline, one by one. -/

theorem books_notifyFailure (o : Options) (ref : Ref) (failure : FailedRecord R) (s : State R) :
    Books 0 s (notifyFailure o ref failure s) := by
  unfold notifyFailure
  split_ifs
  · exact Books.congr rfl rfl rfl rfl rfl
  · exact .refl s

/-- An item that is still in flight leaves it when it is counted. -/
theorem books_settleItem {ref : Ref} (terminal : Terminal) (live : ref ∈ liveRefs s.inFlight)
    (distinct : (itemRefs s.inFlight).Nodup) : Books 0 s (settleItem ref terminal s) := by
  refine Books.close ref terminal ?_ ?_ rfl
  · exact Multiset.mem_add.mpr (.inl (Multiset.mem_add.mpr (.inr live)))
  · change _ + (liveRefs (marked ref terminal s.inFlight) : Multiset Nat) + _ = _
    rw [liveRefs_marked_erase ref terminal distinct, ← Multiset.coe_erase, held,
      Multiset.erase_add_left_pos _ (Multiset.mem_add.mpr (.inr live)),
      Multiset.erase_add_right_pos _ (show ref ∈ (liveRefs s.inFlight : Multiset Nat) from live)]
    rfl

theorem books_markSent (ref : Ref) (distinct : (itemRefs s.inFlight).Nodup) :
    Books 0 s (markSent ref s) := by
  unfold markSent
  split_ifs with found
  · obtain ⟨item, found⟩ := Option.isSome_iff_exists.mp found
    exact books_settleItem .sent (mem_of_findLive found).2.2 distinct
  · exact .refl s

theorem books_fail (o : Options) (ref : Ref) (disposition : Disposition) (reason : FailureReason)
    (retryable : Bool) (detail : Option String) (distinct : (itemRefs s.inFlight).Nodup) :
    Books 0 s (fail o ref disposition reason retryable detail s) := by
  unfold fail
  split
  · exact .refl s
  next item found =>
    exact (books_settleItem _ (mem_of_findLive found).2.2 distinct).trans (books_notifyFailure o _ _ _)

theorem books_notifyDelivered (o : Options) (batch : List Ref) (s : State R) :
    Books 0 s (notifyDelivered o batch s) := by
  unfold notifyDelivered
  split_ifs
  · exact .push _ s
  · exact .refl s

/-- An item is released once it is counted, so the ledger does not notice. -/
theorem books_release {ref : Ref} (counted : ref ∉ liveRefs s.inFlight) :
    Books 0 s (releaseInFlight ref s) := by
  refine Books.move ?_ rfl
  have same : liveRefs (s.inFlight.filter fun item => item.ref ≠ ref) = liveRefs s.inFlight := by
    rw [liveRefs, List.filter_filter, liveRefs]
    refine congrArg itemRefs (List.filter_congr fun item member => ?_)
    by_cases live : item.live
    · have other : item.ref ≠ ref := by
        rintro rfl
        exact counted (List.mem_map_of_mem (List.mem_filter.mpr ⟨member, live⟩))
      simp [live, other]
    · simp [live]
  change _ + (liveRefs (s.inFlight.filter fun item => item.ref ≠ ref) : Multiset Nat) + _ = _
  rw [same]
  rfl

theorem books_finish {batch : List Ref} {raising : Bool} (popped : s.worker.popped = []) :
    Books 0 s (finish batch raising s) := by
  obtain ⟨left, flushes, at_, _, done⟩ := tasksDone_eq batch s
  rw [finish, done]
  refine Books.congr rfl ?_ rfl rfl rfl
  rw [popped]
  cases raising <;> rfl

/-- A delivery that takes records off the queue counts none of them. -/
theorem books_takeUp (size : Nat) (s : State R) : Books 0 s (takeUp size s) := by
  refine Books.move ?_ rfl
  have whole : s.queueRefs = (s.queue.take size).map Queued.ref ++ (s.queue.drop size).map Queued.ref := by
    rw [← List.map_append, List.take_append_drop]
    rfl
  have after : (takeUp size s).held = ((s.queue.drop size).map Queued.ref : List Ref) +
      (s.worker.popped.map Queued.ref : List Ref) +
      ((liveRefs s.inFlight : Multiset Nat) + ((s.queue.take size).map Queued.ref : List Ref)) + s.lost := by
    simp only [held, takeUp, queueRefs, liveRefs_append, liveRefs_fresh, ← Multiset.coe_add]
  rw [after, held, whole, ← Multiset.coe_add]
  abel

theorem books_collect (o : Options) (batch : List Ref) (expired : Bool) (none : s.worker.popped = []) :
    Books 0 s (collect o batch expired s) := by
  rcases collect_cases o batch expired s with ⟨size, _, out⟩ | ⟨_, _, _, waits⟩
  · rw [out]
    exact Books.next (t := takeUp size s) (books_takeUp size s) (Books.congr rfl none.symm rfl rfl rfl)
  · rw [waits]
    exact Books.congr rfl none.symm rfl rfl rfl

/-- A submission issues a token; one that is refused is closed at once. -/
theorem books_submit (o : Options) (record : R) (s : State R) : Books 1 s (submit o record s) := by
  have refused (outcome : SubmitOutcome) (failure : FailedRecord R) :
      Books 1 s (notifyFailure o s.submitted failure (State.push [.returned s.submitted outcome]
        (State.count s.submitted .dropped { s with submitted := s.submitted + 1 }))) := by
    have known : s.submitted ∈ s.ledger.issue.held := Multiset.mem_cons_self s.submitted s.held
    have closed : (State.count s.submitted .dropped { s with submitted := s.submitted + 1 }).ledger =
        s.ledger.issue.close s.submitted .dropped := by
      simp only [Ledger.close, Ledger.issue, ledger, Multiset.erase_cons_head]
      rfl
    have taken : Books 1 s (State.count s.submitted .dropped { s with submitted := s.submitted + 1 }) := by
      refine ⟨rfl, ?_, fun counted => Tallied.count counted s.submitted .dropped⟩
      rw [closed]
      exact .tail (.single (.issue _)) (.close _ _ _ known)
    exact (taken.trans (Books.push _ _)).trans (books_notifyFailure o _ _ _)
  unfold submit
  simp only
  split_ifs
  · exact refused _ _
  · exact refused _ _
  · refine Books.issue ?_ rfl
    have issued : ((s.queue ++ [(⟨s.submitted, record⟩ : Queued R)]).map Queued.ref : Multiset Nat) =
        s.submitted ::ₘ s.queueRefs := by
      rw [List.map_append, ← Multiset.coe_add, add_comm]
      rfl
    simp only [held, queueRefs] at issued ⊢
    rw [issued]
    simp only [Multiset.cons_add]

/-- An abandonment counts the records of the queue one by one. -/
theorem books_abandonQueue (o : Options) (s : State R) : Books 0 s (abandonQueue o s) := by
  unfold abandonQueue
  split
  next q rest queued =>
    refine Books.trans ?_ (books_notifyFailure o _ _ _)
    obtain ⟨left, flushes, at_, _, done⟩ := taskDone_eq { s with queue := rest }
    rw [done]
    have front : s.queueRefs = q.ref :: rest.map Queued.ref := by rw [queueRefs, queued, List.map_cons]
    have holds : s.held = q.ref ::ₘ ((rest.map Queued.ref : List Ref) +
        (s.worker.popped.map Queued.ref : List Ref) + liveRefs s.inFlight + s.lost) := by
      rw [held, front, ← Multiset.cons_coe]
      simp only [Multiset.cons_add]
    refine Books.close q.ref .dropped ?_ ?_ rfl
    · rw [holds]
      exact Multiset.mem_cons_self _ _
    · rw [holds, Multiset.erase_cons_head]
      rfl
  next => exact .push _ s

theorem books_abandonItems (o : Options) (pending : List Ref) (distinct : (itemRefs s.inFlight).Nodup) :
    Books 0 s (abandonItems o pending s) := by
  cases pending with
  | nil => exact .refl s
  | cons ref rest => exact (Books.push _ s).trans (books_fail o _ _ _ _ _ distinct)

/-- Every step of the machine is some steps of the ledger. -/
theorem Move.books [AudrRecord R] {act : Act R} (move : Move o s act t) (control : s.Control) :
    (∃ record, act = .submit record ∧ Books 1 s t) ∨ Books 0 s t := by
  have distinct := control.nodup
  cases move with
  | submit top => exact .inl ⟨_, rfl, books_submit o _ s⟩
  | returned top => exact .inr (Books.congr rfl rfl rfl rfl rfl)
  | fail top => exact .inr ((Books.pop _ s).next (books_fail o _ _ _ _ _ distinct))
  | markSent top => exact .inr ((Books.pop _ s).next (books_markSent _ distinct))
  | notifyDelivered top => exact .inr ((Books.pop _ s).next (books_notifyDelivered o _ _))
  | tryEnds top => exact .inr (Books.congr rfl rfl rfl rfl rfl)
  | concludeItem top =>
    right
    exact ((Books.pop _ s).next (Books.push _ _)).next (books_fail o _ _ _ _ _ distinct)
  | finish top =>
    obtain ⟨_, at_, _⟩ := (control.section_ top rfl).at_conclude
    have none : s.worker.popped = [] := by rw [at_]; rfl
    exact .inr ((Books.pop _ s).next (books_finish none))
  | releaseInFlight top =>
    obtain ⟨_, _, _, _, _, _, counted⟩ := (control.section_ top rfl).at_release
    exact .inr ((Books.pop _ s).next (books_release counted))
  | abandonQueue top => exact .inr ((Books.pop _ s).next (books_abandonQueue o _))
  | abandonItems top => exact .inr ((Books.pop _ s).next (books_abandonItems o _ distinct))
  | @shutdown raising rest top =>
    right
    refine (Books.pop rest s).next ?_
    unfold State.shutdown
    split_ifs
    · exact .push _ _
    · exact Books.congr rfl rfl rfl rfl rfl
  | closeSink top => exact .inr (Books.congr rfl rfl rfl rfl rfl)
  | flush top =>
    right
    unfold State.flush
    split_ifs <;> exact Books.congr rfl rfl rfl rfl rfl
  | stop top =>
    right
    unfold State.beginStop
    split_ifs
    · exact .refl s
    · exact Books.congr rfl rfl rfl rfl rfl
  | start top =>
    right
    unfold State.start
    split_ifs with begun
    · exact .refl s
    · refine Books.congr rfl ?_ rfl rfl rfl
      have absent : s.worker = .absent := by
        by_contra present
        have started := control.phased.started present
        simp_all
      rw [absent]
      rfl
  | leaves top => exact .inr (Books.pop _ s)
  | @escapes site rest top =>
    right
    have unwound : Unwound (s.pop rest) rest (unwind rest (s.pop rest)) := (control.pop top rfl).stack.unwound
    generalize unwind rest (s.pop rest) = t at unwound ⊢
    cases unwound with
    | resumes => exact Books.congr rfl rfl rfl rfl rfl
    | finishes caught at_ =>
      have none : s.worker.popped = [] := by rw [show s.worker = _ from at_]; rfl
      exact (Books.pop [] s).next (books_finish none)
    | stops => exact Books.congr rfl rfl rfl rfl rfl
  | task top => exact .inr (Books.push _ s)
  | @workerGets expired q rest top at_ queue wanted =>
    right
    have begun : beginInFlight q { s with queue := rest } = takeUp 1 s := by
      simp [beginInFlight, takeUp, queue]
    rw [begun]
    exact (books_takeUp 1 s).next (books_collect o _ _ (by simp [takeUp, at_, WorkerAt.popped]))
  | @getTaskPops batch q rest top at_ queue =>
    right
    refine Books.move ?_ rfl
    have front : (s.queueRefs : Multiset Nat) = (rest.map Queued.ref : List Ref) + {q.ref} := by
      rw [queueRefs, queue, List.map_cons, ← Multiset.cons_coe, ← Multiset.singleton_add, add_comm]
    have taken : ({ s with worker := .lingering batch (some q), queue := rest } : State R).held =
        (rest.map Queued.ref : List Ref) + {q.ref} + liveRefs s.inFlight + s.lost := rfl
    rw [taken, held, front, at_]
    simp [WorkerAt.popped]
  | lingerReturns top at_ => exact .inr (Books.congr rfl (by rw [at_]; rfl) rfl rfl rfl)
  | @reclaimedRecord expired batch q top at_ wanted =>
    right
    rw [← collect_worker o _ _ _ .getting]
    refine Books.next ?_ (books_collect o _ _ rfl)
    refine Books.move ?_ rfl
    simp only [held, queueRefs, beginInFlight, at_, WorkerAt.popped, liveRefs_append, ← Multiset.coe_add]
    simp only [Option.toList, List.map_cons, List.map_nil]
    change _ + 0 + (_ + ({q.ref} : Multiset Nat)) + _ = _ + {q.ref} + _ + _
    abel
  | reclaimedNothing top at_ wanted => exact .inr (Books.congr rfl (by rw [at_]; rfl) rfl rfl rfl)
  | cancelledGetting top at_ cancelled => exact .inr (Books.congr rfl (by rw [at_]; rfl) rfl rfl rfl)
  | @cancelledReclaiming batch popped top at_ cancelled =>
    right
    refine Books.move ?_ rfl
    have after : ({ s with
        worker := .ended
        orphaned := s.orphaned ++ batch
        lost := s.lost ++ (popped.map Queued.ref).toList } : State R).held =
        s.queueRefs + 0 + liveRefs s.inFlight + (s.lost ++ (popped.map Queued.ref).toList : List Ref) := rfl
    rw [after, held, at_, ← Multiset.coe_add]
    cases popped with
    | none => simp [WorkerAt.popped]
    | some q =>
      change _ + 0 + _ + (_ + ({q.ref} : Multiset Nat)) = _ + {q.ref} + _ + _
      abel
  | sinkAnswers top at_ => exact .inr (Books.congr rfl (by rw [at_]; rfl) rfl rfl rfl)
  | flushSettles top found waiting truthful => exact .inr (Books.congr rfl rfl rfl rfl rfl)
  | stopTimesOut top at_ => exact .inr (Books.push _ s)
  | stopJoins top at_ => exact .inr (Books.push _ s)
  | stopCancelledDraining top at_ => exact .inr (Books.push _ s)
  | stopInterrupted top at_ => exact .inr (Books.congr rfl rfl rfl rfl rfl)
  | stopCancelledClosing top at_ => exact .inr (Books.congr rfl rfl rfl rfl rfl)
  | workerGathered top ended at_ => exact .inr (Books.push _ s)
  | gatherRaises top ended at_ => exact .inr (Books.congr rfl rfl rfl rfl rfl)
  | closeSettles top at_ => exact .inr (Books.congr rfl rfl rfl rfl rfl)

end State

end Audr.PyPipeline
