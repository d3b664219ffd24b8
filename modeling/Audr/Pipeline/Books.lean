import Audr.Lib.Accounts
import Audr.Pipeline.Control

/-! The pipeline keeps a ledger: a submission issues a token, the queue, the items in
flight and the records being abandoned hold theirs, and a terminal state closes one.
Each function of the pipeline is some steps of that ledger, and its counters follow. -/

namespace Audr.Pipeline

open Accounts (Ledger Step Steps)

variable {R : Type}

/-- The records an operation has taken off the queue and has still to drop. -/
def Op.holds : Op R → List Ref
  | .abandonQueued queued _ => queued.map Queued.ref
  | _ => []

theorem Op.holds_of_accounts {op : Op R} (accounts : op.accounts = true) : op.holds = [] := by
  cases op <;> first | rfl | cases accounts

namespace State

def queueRefs (s : State R) : List Ref := s.queue.map Queued.ref

/-- The submitted records that have not reached a terminal state. -/
def held (s : State R) : Multiset Nat :=
  s.queueRefs + liveRefs s.inFlight + (s.todo.flatMap Op.holds : List Ref)

def ledger (s : State R) : Ledger Terminal := ⟨s.submitted, s.held, s.settled⟩

/-- The part of the state that counting changes. -/
def books (s : State R) : Nat × Nat × Nat × Nat × List (Ref × Terminal) :=
  (s.submitted, s.sent, s.dropped, s.unknown, s.settled)

def endedAs (terminal : Terminal) (s : State R) : Nat := Audr.endedAs terminal s.settled

/-- Each counter is the number of records that ended in its terminal state. -/
def Counted (s : State R) : Prop := Tallied s.settled s.sent s.dropped s.unknown

/-- The state field of an item says what the item was counted as. -/
def Labelled (s : State R) : Prop :=
  ∀ item ∈ s.inFlight, ∀ terminal, item.state = some terminal → (item.ref, terminal) ∈ s.settled

/-- What a piece of the pipeline's code does to the ledger, the counters and the labels
while it takes in `new` records. -/
structure Books (new : Nat) (s t : State R) : Prop where
  taken : t.submitted = s.submitted + new
  steps : Steps s.ledger t.ledger
  counted : s.Counted → t.Counted
  labelled : s.Labelled → t.Labelled

variable {s t u : State R} {o : Options}

theorem Counted.congr (counted : s.Counted) (sent : t.sent = s.sent) (dropped : t.dropped = s.dropped)
    (unknown : t.unknown = s.unknown) (settled : t.settled = s.settled) : t.Counted := by
  unfold Counted
  rw [sent, dropped, unknown, settled]
  exact counted

theorem Counted.count (counted : s.Counted) (ref : Ref) (terminal : Terminal) :
    (count ref terminal s).Counted :=
  Tallied.count counted ref terminal

theorem Books.trans {new more : Nat} (first : Books new s t) (second : Books more t u) :
    Books (new + more) s u :=
  ⟨by rw [second.taken, first.taken, add_assoc], first.steps.trans second.steps, second.counted ∘ first.counted, second.labelled ∘ first.labelled⟩

/-- The same after code that takes nothing in. -/
theorem Books.next {new : Nat} (first : Books 0 s t) (second : Books new t u) : Books new s u :=
  zero_add new ▸ first.trans second

/-- Code that only moves held records about changes nothing in the ledger. -/
theorem Books.move (held : t.held = s.held) (same : t.books = s.books)
    (labelled : s.Labelled → t.Labelled) : Books 0 s t := by
  simp only [books, Prod.mk.injEq] at same
  obtain ⟨submitted, sent, dropped, unknown, settled⟩ := same
  refine ⟨submitted, ?_, fun counted => counted.congr sent dropped unknown settled, labelled⟩
  rw [show t.ledger = s.ledger by simp only [ledger, held, submitted, settled]]

theorem Books.congr (queue : t.queue = s.queue) (items : t.inFlight = s.inFlight)
    (holds : t.todo.flatMap Op.holds = s.todo.flatMap Op.holds) (same : t.books = s.books) :
    Books 0 s t := by
  refine Books.move ?_ same fun labelled => ?_
  · simp only [held, queueRefs, queue, items, holds]
  · simp only [books, Prod.mk.injEq] at same
    simpa only [Labelled, items, same.2.2.2.2] using labelled

/-- The same, before code that is already accounted for. -/
theorem Books.after (later : Books 0 t u) (queue : t.queue = s.queue) (items : t.inFlight = s.inFlight)
    (holds : t.todo.flatMap Op.holds = s.todo.flatMap Op.holds) (same : t.books = s.books) :
    Books 0 s u :=
  (Books.congr queue items holds same).trans later

theorem Books.refl (s : State R) : Books 0 s s := Books.congr rfl rfl rfl rfl

theorem Labelled.marked (labelled : s.Labelled) (ref : Ref) (terminal : Terminal) :
    ∀ item ∈ marked ref terminal s.inFlight, ∀ end_, item.state = some end_ →
      (item.ref, end_) ∈ s.settled ++ [(ref, terminal)] := by
  intro item member end_ state
  obtain ⟨before, present, rfl⟩ := List.mem_map.mp member
  by_cases same : before.ref = ref
  · simp only [same, if_true, Option.some.injEq] at state ⊢
    exact List.mem_append_right _ (by simp [state])
  · rw [if_neg same] at state ⊢
    exact List.mem_append_left _ (labelled before present end_ state)

/-- Code that counts one held record in its terminal state closes its token. -/
theorem Books.close (ref : Ref) (terminal : Terminal) (known : ref ∈ s.held)
    (held : t.held = s.held.erase ref) (same : t.books = (State.count ref terminal s).books)
    (items : t.inFlight = s.inFlight ∨ t.inFlight = marked ref terminal s.inFlight) : Books 0 s t := by
  simp only [books, Prod.mk.injEq] at same
  obtain ⟨submitted, sent, dropped, unknown, settled⟩ := same
  refine ⟨submitted, ?_, fun counted => (counted.count ref terminal).congr sent dropped unknown settled,
    fun labelled => ?_⟩
  · have closed : t.ledger = s.ledger.close ref terminal := by
      simp only [ledger, Ledger.close, held, submitted, settled]
      rfl
    rw [closed]
    exact .single (.close _ _ _ known)
  · rw [Labelled, settled]
    rcases items with items | items <;> rw [items]
    · exact fun item member end_ state => List.mem_append_left _ (labelled item member end_ state)
    · exact labelled.marked ref terminal

/-- Code that takes in one record and counts none issues a token. -/
theorem Books.issue (held : t.held = s.submitted ::ₘ s.held)
    (same : t.books = { s with submitted := s.submitted + 1 }.books) (items : t.inFlight = s.inFlight) :
    Books 1 s t := by
  simp only [books, Prod.mk.injEq] at same
  obtain ⟨submitted, sent, dropped, unknown, settled⟩ := same
  refine ⟨submitted, ?_, fun counted => counted.congr sent dropped unknown settled, fun labelled => ?_⟩
  · rw [show t.ledger = s.ledger.issue by simp only [ledger, Ledger.issue, held, submitted, settled]]
    exact .single (.issue _)
  · simpa only [Labelled, items, settled] using labelled

theorem Books.push (s : State R) {ops : List (Op R)} (empty : ops.flatMap Op.holds = []) :
    Books 0 s (push ops s) :=
  Books.congr rfl rfl (by simp [State.push, empty]) rfl

theorem Books.pop {op : Op R} {rest : List (Op R)} (top : s.todo = op :: rest)
    (empty : op.holds = []) : Books 0 s (s.pop rest) :=
  Books.congr rfl rfl (by simp [State.pop, top, empty]) rfl

/-! The functions of the pipeline, one by one. -/

/-- A delivery takes records from the queue into flight, and counts none of them. -/
theorem books_deliver (o : Options) (s : State R) : Books 0 s (deliver o s) := by
  refine Books.move ?_ rfl fun labelled item member terminal state => ?_
  swap
  · rcases List.mem_append.mp member with old | new
    · exact labelled item old terminal state
    · obtain ⟨q, _, rfl⟩ := List.mem_map.mp new
      cases state
  have refs : s.queueRefs =
      (s.queue.take o.batchMaxSize).map Queued.ref ++ (s.queue.drop o.batchMaxSize).map Queued.ref := by
    rw [← List.map_append, List.take_append_drop]
    rfl
  have after : (deliver o s).held =
      ((s.queue.drop o.batchMaxSize).map Queued.ref : List Ref) +
        ((liveRefs s.inFlight : Multiset Nat) + ((s.queue.take o.batchMaxSize).map Queued.ref : List Ref)) +
        (s.todo.flatMap Op.holds : List Ref) := by
    simp only [held, deliver, queueRefs, liveRefs_append, liveRefs_fresh, ← Multiset.coe_add]
    rfl
  rw [after, held, refs, ← Multiset.coe_add]
  simp only [add_comm, add_left_comm]

theorem books_schedule (o : Options) (s : State R) : Books 0 s (schedule o s) := by
  rcases schedule_cases o s with ⟨same, _⟩ | ⟨_, _, _, started⟩ | ⟨_, _, _, armed⟩
  · rw [same]
    exact .refl s
  · rw [started]
    exact (books_deliver o _).after rfl rfl rfl rfl
  · rw [armed]
    exact Books.congr rfl rfl rfl rfl

theorem books_startRun (o : Options) (s : State R) : Books 0 s (startRun o s) := by
  rcases startRun_cases o s with ⟨same, _⟩ | ⟨_, _, woken⟩ | ⟨_, _, started⟩
  · rw [same]
    exact .refl s
  · rw [woken]
    exact Books.congr rfl rfl rfl rfl
  · rw [started]
    exact (books_deliver o _).after rfl rfl rfl rfl

theorem books_resumeRun (o : Options) (s : State R) : Books 0 s (resumeRun o s) := by
  rcases resumeRun_cases o s with ⟨_, _, next⟩ | ⟨_, woken⟩ | ⟨_, rescheduled⟩
  · rw [next]
    exact books_deliver o s
  · rw [woken]
    exact Books.congr rfl rfl rfl rfl
  · rw [rescheduled]
    exact (books_schedule o _).after rfl rfl rfl rfl

theorem books_notifyFailure (o : Options) (ref : Option Ref) (failure : FailedRecord R)
    (s : State R) : Books 0 s (notifyFailure o ref failure s) := by
  unfold notifyFailure
  split_ifs
  · exact .refl s
  · exact Books.congr rfl rfl rfl rfl

/-- An item that is still in flight leaves it when it is counted. -/
theorem books_settleItem {ref : Ref} (terminal : Terminal) (live : ref ∈ liveRefs s.inFlight)
    (distinct : (itemRefs s.inFlight).Nodup) : Books 0 s (settleItem ref terminal s) := by
  have gone := liveRefs_marked_erase ref terminal distinct
  refine Books.close ref terminal ?_ ?_ rfl (.inr rfl)
  · exact Multiset.mem_add.mpr (.inl (Multiset.mem_add.mpr (.inr live)))
  · change (s.queueRefs : Multiset Nat) + (liveRefs (marked ref terminal s.inFlight) : Multiset Nat) + _ = _
    rw [gone, ← Multiset.coe_erase, held, add_assoc, add_assoc,
      Multiset.erase_add_right_pos _ (Multiset.mem_add.mpr (.inl live)),
      Multiset.erase_add_left_pos _ live]
    rfl

theorem books_markSent (ref : Ref) (distinct : (itemRefs s.inFlight).Nodup) :
    Books 0 s (markSent ref s) := by
  unfold markSent
  split_ifs with found
  · obtain ⟨item, found⟩ := Option.isSome_iff_exists.mp found
    exact books_settleItem .sent (mem_liveRefs_of_liveItem found).2.2 distinct
  · exact .refl s

theorem books_fail (o : Options) (ref : Ref) (disposition : Disposition) (reason : FailureReason)
    (retryable : Bool) (detail : Option String) (distinct : (itemRefs s.inFlight).Nodup) :
    Books 0 s (fail o ref disposition reason retryable detail s) := by
  unfold fail
  split
  · exact .refl s
  next item found =>
    exact (books_settleItem _ (mem_liveRefs_of_liveItem found).2.2 distinct).trans
      (books_notifyFailure o _ _ _)

/-- A submission issues a token; a full queue closes it at once. -/
theorem books_submit (o : Options) (record : R) (s : State R) : Books 1 s (submit o record s) := by
  rcases submit_cases o record s with ⟨_, same⟩ | ⟨_, same⟩ <;> rw [same]
  · have known : s.submitted ∈ s.ledger.issue.held := Multiset.mem_cons_self s.submitted s.held
    have closed : (State.count s.submitted .dropped { s with submitted := s.submitted + 1 }).ledger =
        s.ledger.issue.close s.submitted .dropped := by
      simp only [Ledger.close, Ledger.issue, ledger, Multiset.erase_cons_head]
      rfl
    have taken : Books 1 s (State.count s.submitted .dropped { s with submitted := s.submitted + 1 }) := by
      refine ⟨rfl, ?_, fun counted => ?_, fun labelled item member terminal state => ?_⟩
      · rw [closed]
        exact .tail (.single (.issue _)) (.close _ _ _ known)
      · apply Counted.count
        exact counted.congr rfl rfl rfl rfl
      · exact List.mem_append_left _ (labelled item member terminal state)
    exact taken.trans (Books.push _ rfl)
  · have issued : ((enqueue record s).queueRefs : Multiset Nat) = s.submitted ::ₘ s.queueRefs := by
      rw [queueRefs, enqueue, List.map_append, ← Multiset.coe_add, add_comm]
      rfl
    have taken : Books 1 s (enqueue record s) := by
      refine Books.issue ?_ rfl rfl
      simp only [held, issued, Multiset.cons_add]
      rfl
    exact taken.trans (books_schedule o _)

/-- Taking the whole queue leaves its records with the operation that drops them. -/
theorem books_abandonOutstanding (s : State R) : Books 0 s (abandonOutstanding s) := by
  refine Books.move ?_ rfl id
  simp only [abandonOutstanding, State.push, held, queueRefs, List.map_nil, List.cons_append,
    List.nil_append, List.flatMap_cons, Op.holds, ← Multiset.coe_add, Multiset.coe_nil, zero_add]
  rw [← add_assoc, add_comm (liveRefs s.inFlight : Multiset Nat)]

theorem books_abandonQueued (o : Options) (queued : List (Queued R)) (dropped : Nat)
    (rest : List (Op R)) (top : s.todo = .abandonQueued queued dropped :: rest) :
    Books 0 s (abandonQueued o queued dropped (s.pop rest)) := by
  cases queued with
  | nil => exact (Books.pop top rfl).trans (Books.push _ rfl)
  | cons q queued =>
    refine Books.trans ?_ (books_notifyFailure o _ _ _)
    have holds : s.todo.flatMap Op.holds =
        q.ref :: (queued.map Queued.ref ++ rest.flatMap Op.holds) := by
      simp [top, Op.holds]
    refine Books.close q.ref .dropped ?_ ?_ rfl (.inl rfl)
    · rw [held, holds]
      exact Multiset.mem_add.mpr (.inr (List.mem_cons_self))
    · rw [held, held, holds, Multiset.erase_add_right_pos _ (Multiset.mem_coe.mpr List.mem_cons_self)]
      simp only [Multiset.coe_erase, List.erase_cons_head]
      rfl

theorem books_abandonInFlight (o : Options) (pending : List Ref) (dropped unknown : Nat)
    (distinct : (itemRefs s.inFlight).Nodup) :
    Books 0 s (abandonInFlight o pending dropped unknown s) := by
  cases pending with
  | nil =>
    simp only [abandonInFlight]
    split_ifs
    · exact Books.push s rfl
    · exact .refl s
  | cons ref rest => exact (Books.push s rfl).trans (books_fail o _ _ _ _ _ distinct)

/-- The items a delivery releases have all been counted, so the ledger keeps them. -/
theorem books_release (control : s.Control) {batch : List Ref} {unresolved : Nat}
    {rest : List (Op R)} (top : s.todo = .conclude [] batch unresolved :: rest) :
    Books 0 s (conclude o [] batch unresolved (s.pop rest)) := by
  obtain ⟨_, _, _, _, covered⟩ := control.concluding top
  have counted : liveRefs s.inFlight = [] :=
    List.eq_nil_iff_forall_not_mem.mpr fun ref live => List.not_mem_nil (covered ref live)
  have released := (control.release (o := o) top).2
  refine Books.move ?_ rfl fun _ item member => ?_
  swap
  · exact absurd (released ▸ member) List.not_mem_nil
  have holds : (conclude o [] batch unresolved (s.pop rest)).todo.flatMap Op.holds =
      s.todo.flatMap Op.holds := by
    by_cases none : unresolved = 0 <;> simp [conclude, State.push, State.pop, top, none, Op.holds]
  rw [held, held, released, counted, holds]
  rfl

section Answer
variable [AudrRecord R]

theorem books_answer (batch : List Ref) (settlement : Settlement) (s : State R) :
    Books 0 s (answer batch settlement s) := by
  obtain ⟨ops, batches, accounts, same⟩ := answer_cases batch settlement s
  have empty : ops.flatMap Op.holds = [] :=
    List.flatMap_eq_nil_iff.mpr fun op member => Op.holds_of_accounts (accounts op member)
  rw [same]
  exact (Books.push _ (by simp [empty, Op.holds])).after rfl rfl rfl rfl

end Answer

theorem books_drain (o : Options) (forFlush : Bool) (s : State R) : Books 0 s (drain o forFlush s) :=
  (books_schedule o _).after rfl rfl rfl rfl

theorem books_flush (o : Options) (s : State R) : Books 0 s (flush o s) := by
  rcases flush_cases o s with ⟨_, same⟩ | ⟨_, _, same⟩ <;> rw [same]
  · exact books_drain o true s
  · exact Books.congr rfl rfl rfl rfl

theorem books_beginShutdown (o : Options) (s : State R) : Books 0 s (beginShutdown o s) := by
  rcases beginShutdown_cases o s with ⟨_, same⟩ | ⟨_, _, _, same⟩ | ⟨_, _, same⟩ <;> rw [same]
  · exact .refl s
  · exact Books.push s rfl
  · exact (books_drain o false _).after rfl rfl rfl rfl

theorem books_record (record : R) (verdict : Verdict) (s : State R) :
    Books 0 s (State.record record verdict s) := by
  unfold State.record
  split_ifs
  · exact .refl s
  · cases verdict <;> exact Books.push s rfl

/-- Every step of the machine is some steps of the ledger. -/
theorem Move.books [AudrRecord R] {act : Act R} (move : Move o s act t) (control : s.Control) :
    (∃ record rest, s.todo = .submit record :: rest ∧ Books 1 s t) ∨ Books 0 s t := by
  have distinct := control.nodup
  cases move with
  | submit top => exact .inl ⟨_, _, top, (Books.pop top rfl).next (books_submit o _ _)⟩
  | reportInvalid top => exact .inr <| (Books.pop top rfl).next (books_notifyFailure o _ _ _)
  | queueFull top =>
    right
    exact ((Books.pop top rfl).next (Books.push _ rfl)).next (books_notifyFailure o _ _ _)
  | returned top => exact .inr <| (Books.pop top rfl).next (Books.congr rfl rfl rfl rfl)
  | endNotify top => exact .inr <| (Books.pop top rfl).next (Books.congr rfl rfl rfl rfl)
  | fail top => exact .inr <| (Books.pop top rfl).next (books_fail o _ _ _ _ _ distinct)
  | markSent top => exact .inr <| (Books.pop top rfl).next (books_markSent _ distinct)
  | notifyDelivered top =>
    right
    refine (Books.pop top rfl).next ?_
    unfold State.notifyDelivered
    split_ifs
    · exact Books.push _ rfl
    · exact .refl _
  | concludeItem top =>
    right
    exact ((Books.pop top rfl).next (Books.push _ rfl)).next (books_fail o _ _ _ _ _ distinct)
  | release top => exact .inr <| books_release control top
  | idleCheck top =>
    right
    refine (Books.pop top rfl).next ?_
    unfold State.idleCheck
    split_ifs <;> exact Books.congr rfl rfl rfl rfl
  | assignStopping top => exact .inr <| (Books.pop top rfl).next (Books.congr rfl rfl rfl rfl)
  | assignShutdown top => exact .inr <| (Books.pop top rfl).next (Books.congr rfl rfl rfl rfl)
  | abandonOutstanding top => exact .inr <| (Books.pop top rfl).next (books_abandonOutstanding _)
  | abandonQueued top => exact .inr <| books_abandonQueued o _ _ _ top
  | abandonInFlight top => exact .inr <| (Books.pop top rfl).next (books_abandonInFlight o _ _ _ distinct)
  | record top => exact .inr <| books_record _ _ s
  | flush top => exact .inr <| books_flush o s
  | shutdown top => exact .inr <| books_beginShutdown o s
  | sinkThrows top calling => exact .inr <| (Books.pop top rfl).next (Books.congr rfl rfl rfl rfl)
  | sinkReturns top calling exits => exact .inr <| (Books.pop top rfl).next (Books.congr rfl rfl rfl rfl)
  | callbackThrows top other => exact .inr <| (Books.pop top rfl).next (Books.push _ rfl)
  | callbackPromises top other => exact .inr <| (Books.pop top rfl).next (Books.congr rfl rfl rfl rfl)
  | leaves top other => exact .inr <| Books.pop top rfl
  | task top => exact .inr <| Books.push s rfl
  | lingerFires top armed => exact .inr <| (books_startRun o _).after rfl rfl rfl rfl
  | sinkSettles top awaiting => exact .inr <| books_answer _ _ s
  | runResumes top paused => exact .inr <| books_resumeRun o s
  | drainSettles top found waiting truthful => exact .inr <| Books.congr rfl rfl rfl rfl
  | stopAborts top found drained settled =>
    right
    refine (Books.push _ ?_).after rfl rfl rfl rfl
    split_ifs <;> rfl
  | stopCloses top found owns =>
    right
    refine (Books.push _ ?_).after rfl rfl rfl rfl
    split_ifs <;> rfl
  | stopEnds top found last =>
    right
    refine (Books.push _ ?_).after rfl rfl rfl rfl
    split_ifs <;> rfl
  | stopWaitSettles top found waiting truthful => exact .inr <| Books.congr rfl rfl rfl rfl
  | callbackSettles top pending =>
    right
    refine (Books.push _ ?_).after rfl rfl rfl rfl
    split_ifs <;> rfl

end State

end Audr.Pipeline
