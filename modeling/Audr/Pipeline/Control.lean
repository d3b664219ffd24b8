import Audr.Pipeline.Frame
import Mathlib.Data.List.Nodup
import Mathlib.Data.List.Sublists

/-! Where the delivery loop stands, the `#delivering` flag, the in-flight set and the
stack agree in every state. This is what makes one delivery run at a time and every
item of it accounted for before it is released. -/

namespace Audr.Pipeline

variable {R : Type}

/-- The operations that belong to the delivery in progress. -/
def Op.delivers : Op R → Bool
  | .user .deliver => true
  | .conclude _ _ _ => true
  | _ => false

/-- The calls `#apply` makes on the items of a batch, and what goes with them. -/
def Op.accounts : Op R → Bool
  | .user .logger => true
  | .fail _ _ _ _ _ => true
  | .markSent _ => true
  | .notifyDelivered _ => true
  | _ => false

theorem Op.delivers_of_accounts {op : Op R} (accounts : op.accounts = true) : op.delivers = false := by
  cases op with
  | user site => cases site <;> first | rfl | cases accounts
  | _ => first | rfl | cases accounts

/-- What each place of the delivery loop says about the flag, the items and the stack. -/
def Located (delivering : Bool) (items : List (InFlight R)) (ops : List (Op R)) : RunAt → Prop
  | .idle => delivering = false ∧ items = [] ∧ ops = []
  | .calling batch => delivering = true ∧ itemRefs items = batch ∧ ops = [.user .deliver]
  | .awaiting batch => delivering = true ∧ itemRefs items = batch ∧ ops = []
  | .concluding => delivering = true ∧ ∃ pending batch unresolved,
      ops = [.conclude pending batch unresolved] ∧ itemRefs items = batch ∧
        ∀ ref ∈ liveRefs items, ref ∈ pending
  | .delivered => delivering = true ∧ items = [] ∧ ops = []

namespace State

def deliveryOps (s : State R) : List (Op R) := s.todo.filter Op.delivers

structure Control (s : State R) : Prop where
  located : Located s.delivering s.inFlight s.deliveryOps s.run
  nodup : (itemRefs s.inFlight).Nodup

variable {s t : State R} {o : Options}

theorem Control.idle (control : s.Control) (quiet : s.delivering = false) :
    s.run = .idle ∧ s.inFlight = [] ∧ s.deliveryOps = [] := by
  have located := control.located
  cases at_run : s.run <;> simp_all [Located]

/-- Control is a matter of four projections only. -/
theorem Control.congr (control : s.Control) (delivering : t.delivering = s.delivering)
    (items : t.inFlight = s.inFlight) (ops : t.deliveryOps = s.deliveryOps) (run : t.run = s.run) :
    t.Control := by
  refine ⟨?_, ?_⟩
  · rw [delivering, items, ops, run]
    exact control.located
  · rw [items]
    exact control.nodup

theorem deliveryOps_push (ops : List (Op R)) (s : State R) :
    (push ops s).deliveryOps = ops.filter Op.delivers ++ s.deliveryOps := by
  simp [push, deliveryOps]

theorem Control.push (control : s.Control) {ops : List (Op R)}
    (aside : ops.filter Op.delivers = []) : (push ops s).Control :=
  control.congr rfl rfl (by rw [deliveryOps_push, aside, List.nil_append]) rfl

/-! The start of a delivery. -/

theorem Control.deliver (idle : s.inFlight = []) (none : s.deliveryOps = [])
    (marked : s.delivering = true) (distinct : (s.queue.map Queued.ref).Nodup) :
    (deliver o s).Control := by
  have refs : itemRefs (State.deliver o s).inFlight =
      (s.queue.take o.batchMaxSize).map Queued.ref := by
    simp [State.deliver, idle, itemRefs, Function.comp_def]
  refine ⟨⟨marked, refs, ?_⟩, ?_⟩
  · change Op.user Site.deliver :: s.deliveryOps = _
    rw [none]
  · rw [refs]
    exact distinct.sublist ((List.take_sublist _ _).map _)

theorem Control.schedule (control : s.Control) (distinct : (s.queue.map Queued.ref).Nodup) :
    (schedule o s).Control := by
  rcases schedule_cases o s with ⟨same, _⟩ | ⟨free, _, _, started⟩ | ⟨_, _, _, armed⟩
  · rw [same]
    exact control
  · rw [started]
    obtain ⟨_, items, ops⟩ := control.idle free
    exact Control.deliver items ops rfl distinct
  · rw [armed]
    exact control.congr rfl rfl rfl rfl

theorem Control.startRun (control : s.Control) (distinct : (s.queue.map Queued.ref).Nodup) :
    (startRun o s).Control := by
  rcases startRun_cases o s with ⟨same, _⟩ | ⟨_, _, woken⟩ | ⟨free, _, started⟩
  · rw [same]
    exact control
  · rw [woken]
    exact control.congr rfl rfl rfl rfl
  · rw [started]
    obtain ⟨_, items, ops⟩ := control.idle free
    exact Control.deliver items ops rfl distinct

theorem Control.resumeRun (control : s.Control) (paused : s.run = .delivered)
    (distinct : (s.queue.map Queued.ref).Nodup) : (resumeRun o s).Control := by
  have located := control.located
  rw [paused] at located
  obtain ⟨busy, items, ops⟩ := located
  have ended : Control { s with delivering := false, run := .idle } :=
    ⟨⟨rfl, items, ops⟩, control.nodup⟩
  rcases resumeRun_cases o s with ⟨_, _, next⟩ | ⟨_, woken⟩ | ⟨_, rescheduled⟩
  · rw [next]
    exact Control.deliver items ops busy distinct
  · rw [woken]
    exact ended.congr rfl rfl rfl rfl
  · rw [rescheduled]
    exact ended.schedule distinct

/-! Accounting for single items. -/

theorem Control.notifyFailure (control : s.Control) (ref : Option Ref) (failure : FailedRecord R) :
    (notifyFailure o ref failure s).Control := by
  unfold State.notifyFailure
  split_ifs
  · exact control
  · exact control.congr rfl rfl rfl rfl

theorem mem_liveRefs_of_liveItem {item : InFlight R} {ref : Ref} (found : s.liveItem? ref = some item) :
    item ∈ s.inFlight ∧ item.ref = ref ∧ ref ∈ liveRefs s.inFlight :=
  mem_of_findLive found

theorem liveItem_none {ref : Ref} (absent : s.liveItem? ref = none) : ref ∉ liveRefs s.inFlight :=
  not_mem_of_findLive absent

theorem Control.settleItem (control : s.Control) (ref : Ref) (terminal : Terminal) :
    (settleItem ref terminal s).Control := by
  have located := control.located
  have fewer : ∀ other ∈ liveRefs (marked ref terminal s.inFlight), other ∈ liveRefs s.inFlight := by
    intro other member
    rw [liveRefs_marked] at member
    exact List.mem_of_mem_filter member
  refine ⟨?_, ?_⟩
  · change Located s.delivering (marked ref terminal s.inFlight) s.deliveryOps s.run
    revert located
    cases s.run with
    | idle => rintro ⟨quiet, items, ops⟩; exact ⟨quiet, by rw [items]; rfl, ops⟩
    | calling => rintro ⟨busy, refs, ops⟩; exact ⟨busy, by rw [itemRefs_marked, refs], ops⟩
    | awaiting => rintro ⟨busy, refs, ops⟩; exact ⟨busy, by rw [itemRefs_marked, refs], ops⟩
    | concluding =>
      rintro ⟨busy, pending, batch, count, ops, refs, covered⟩
      exact ⟨busy, pending, batch, count, ops, by rw [itemRefs_marked, refs],
        fun other member => covered other (fewer other member)⟩
    | delivered => rintro ⟨busy, items, ops⟩; exact ⟨busy, by rw [items]; rfl, ops⟩
  · change (itemRefs (marked ref terminal s.inFlight)).Nodup
    rw [itemRefs_marked]
    exact control.nodup

theorem Control.markSent (control : s.Control) (ref : Ref) : (markSent ref s).Control := by
  unfold State.markSent
  split_ifs
  · exact control.settleItem ref .sent
  · exact control

theorem Control.fail (control : s.Control) (ref : Ref) (disposition : Disposition)
    (reason : FailureReason) (retryable : Bool) (detail : Option String) :
    (fail o ref disposition reason retryable detail s).Control := by
  unfold State.fail
  split
  · exact control
  · exact (control.settleItem ref disposition.terminal).notifyFailure _ _

/-! One step of the machine. -/

theorem deliveryOps_pop {op : Op R} {rest : List (Op R)} (top : s.todo = op :: rest)
    (aside : op.delivers = false) : (s.pop rest).deliveryOps = s.deliveryOps := by
  simp [deliveryOps, pop, top, aside]

theorem Control.pop (control : s.Control) {op : Op R} {rest : List (Op R)} (top : s.todo = op :: rest)
    (aside : op.delivers = false) : (s.pop rest).Control :=
  control.congr rfl rfl (deliveryOps_pop top aside) rfl

/-- While the `finally` block of a delivery has turns left, nothing else of it is pending. -/
theorem Control.concluding (control : s.Control) {pending batch : List Ref} {unresolved : Nat}
    {rest : List (Op R)} (top : s.todo = .conclude pending batch unresolved :: rest) :
    s.run = .concluding ∧ s.delivering = true ∧ (s.pop rest).deliveryOps = [] ∧
      itemRefs s.inFlight = batch ∧ ∀ ref ∈ liveRefs s.inFlight, ref ∈ pending := by
  have ops : s.deliveryOps = .conclude pending batch unresolved :: (s.pop rest).deliveryOps := by
    simp only [deliveryOps, State.pop, top]
    rfl
  have located := control.located
  rw [ops] at located
  cases at_run : s.run with
  | concluding =>
    rw [at_run] at located
    obtain ⟨busy, pending', batch', unresolved', only, refs, covered⟩ := located
    obtain ⟨same, none⟩ := List.cons_eq_cons.mp only
    obtain ⟨rfl, rfl, rfl⟩ := Op.conclude.inj same
    exact ⟨rfl, busy, none, refs, covered⟩
  | _ => simp [at_run, Located] at located

theorem Control.calling (control : s.Control) {batch : List Ref} (calling : s.run = .calling batch)
    {rest : List (Op R)} (top : s.todo = .user .deliver :: rest) :
    s.delivering = true ∧ (s.pop rest).deliveryOps = [] ∧ itemRefs s.inFlight = batch := by
  have ops : s.deliveryOps = .user .deliver :: (s.pop rest).deliveryOps := by
    simp only [deliveryOps, State.pop, top]
    rfl
  have located := control.located
  rw [ops, calling] at located
  obtain ⟨busy, refs, only⟩ := located
  exact ⟨busy, (List.cons_eq_cons.mp only).2, refs⟩

theorem Control.conclude_item (control : s.Control) {ref : Ref} {pending batch : List Ref}
    {unresolved : Nat} {rest : List (Op R)}
    (top : s.todo = .conclude (ref :: pending) batch unresolved :: rest) :
    (conclude o (ref :: pending) batch unresolved (s.pop rest)).Control := by
  obtain ⟨run, busy, none, refs, covered⟩ := control.concluding top
  simp only [conclude, State.fail]
  split
  next absent =>
    have gone : ref ∉ liveRefs s.inFlight := liveItem_none (s := s) absent
    refine ⟨?_, control.nodup⟩
    change Located s.delivering s.inFlight _ s.run
    rw [run, deliveryOps_push, none]
    refine ⟨busy, pending, batch, _, rfl, refs, fun other live => ?_⟩
    exact (List.mem_cons.mp (covered other live)).resolve_left fun same => gone (same ▸ live)
  next item found =>
    have live_found : ((s.pop rest).liveItem? ref).isSome = true := Option.isSome_iff_exists.mpr ⟨item, found⟩
    apply Control.notifyFailure
    refine ⟨?_, ?_⟩
    · change Located s.delivering (marked ref _ s.inFlight) _ s.run
      rw [run]
      refine ⟨busy, pending, batch, unresolved + 1, ?_, by rw [itemRefs_marked, refs],
        fun other live => ?_⟩
      · change (State.push _ (s.pop rest)).deliveryOps = _
        simp only [deliveryOps_push, none, if_pos live_found]
        rfl
      · rw [liveRefs_marked] at live
        obtain ⟨live, differs⟩ := List.mem_filter.mp live
        exact (List.mem_cons.mp (covered other live)).resolve_left (by simpa using differs)
    · change (itemRefs (marked ref _ s.inFlight)).Nodup
      rw [itemRefs_marked]
      exact control.nodup

theorem Control.release (control : s.Control) {batch : List Ref} {unresolved : Nat}
    {rest : List (Op R)} (top : s.todo = .conclude [] batch unresolved :: rest) :
    (conclude o [] batch unresolved (s.pop rest)).Control ∧
      (conclude o [] batch unresolved (s.pop rest)).inFlight = [] := by
  obtain ⟨_, busy, none, refs, _⟩ := control.concluding top
  have released : s.inFlight.filter (fun item => item.ref ∉ batch) = [] := by
    apply List.filter_eq_nil_iff.mpr
    intro item member
    have included : item.ref ∈ batch := refs ▸ List.mem_map_of_mem member
    simpa using included
  have aside : (if unresolved = 0 then [] else [Op.user (R := R) .logger]).filter Op.delivers = [] := by
    split_ifs <;> rfl
  refine ⟨?_, released⟩
  refine Control.push ⟨?_, ?_⟩ aside
  · exact ⟨busy, released, none⟩
  · change (itemRefs (s.inFlight.filter _)).Nodup
    rw [released]
    exact List.nodup_nil

theorem Control.sink_throws (control : s.Control) {batch : List Ref} (calling : s.run = .calling batch)
    {rest : List (Op R)} (top : s.todo = .user .deliver :: rest) :
    (State.push [.conclude batch batch 0]
      { s.pop rest with run := .concluding, answered := s.answered + 1 }).Control := by
  obtain ⟨busy, none, refs⟩ := control.calling calling top
  refine ⟨⟨busy, batch, batch, 0, ?_, refs, fun ref live => ?_⟩, control.nodup⟩
  · rw [deliveryOps_push]
    change [_] ++ (s.pop rest).deliveryOps = _
    rw [none]
    rfl
  · exact refs ▸ (liveRefs_sublist _).subset live

section Answer
variable [AudrRecord R]

theorem applyResult_accounts (batch : List (InFlight R)) (result : BatchResult) :
    ∀ op ∈ applyResult batch result, op.accounts = true := by
  intro op member
  cases result with
  | accepted rejected unknown =>
    simp only [applyResult, List.mem_append, List.mem_map, List.mem_singleton] at member
    rcases member with ⟨item, _, rfl⟩ | rfl
    · split
      · rfl
      · split_ifs <;> rfl
    · rfl
  | failed retryable detail =>
    simp only [applyResult, List.mem_cons, List.mem_map] at member
    rcases member with rfl | ⟨item, _, rfl⟩ <;> rfl
  | closed =>
    simp only [applyResult, List.mem_cons, List.mem_map] at member
    rcases member with rfl | ⟨item, _, rfl⟩ <;> rfl

theorem applyObject_accounts {batch : List (InFlight R)} {settlement : Settlement} {ops : List (Op R)}
    (applied : applyObject batch settlement = some ops) : ∀ op ∈ ops, op.accounts = true := by
  cases settlement <;> simp only [applyObject, Option.some.injEq, reduceCtorEq] at applied <;>
    subst applied
  · exact applyResult_accounts _ _
  · simp
  · simp
  · exact applyResult_accounts _ _

/-- What `#deliver` does once its `await` is over: some calls on items, then its `finally` block. -/
theorem answer_cases (batch : List Ref) (settlement : Settlement) (s : State R) :
    ∃ ops batches, (∀ op ∈ ops, op.accounts = true) ∧
      answer batch settlement s = push (ops ++ [.conclude batch batch 0])
        { s with run := .concluding, answered := s.answered + 1, batches := batches } := by
  unfold answer
  simp only
  split
  next ops applied =>
    split_ifs
    · exact ⟨ops, _, applyObject_accounts applied, rfl⟩
    · exact ⟨[], s.batches, by simp, rfl⟩
  next => exact ⟨[], s.batches, by simp, rfl⟩

theorem Control.answer (control : s.Control) {batch : List Ref} (awaiting : s.run = .awaiting batch)
    (settlement : Settlement) : (answer batch settlement s).Control := by
  have located := control.located
  rw [awaiting] at located
  obtain ⟨busy, refs, none⟩ := located
  obtain ⟨ops, batches, accounts, same⟩ := answer_cases batch settlement s
  have aside : ops.filter Op.delivers = [] :=
    List.filter_eq_nil_iff.mpr fun op member => by simp [Op.delivers_of_accounts (accounts op member)]
  rw [same]
  refine ⟨⟨busy, batch, batch, 0, ?_, refs, fun ref live => ?_⟩, control.nodup⟩
  · rw [deliveryOps_push, List.filter_append, aside]
    change [_] ++ s.deliveryOps = _
    rw [none]
    rfl
  · exact refs ▸ (liveRefs_sublist _).subset live

end Answer

theorem Control.submit (control : s.Control) (fresh : (s.queue.map Queued.ref ++ [s.submitted]).Nodup)
    (record : R) : (submit o record s).Control := by
  rcases submit_cases o record s with ⟨_, same⟩ | ⟨_, same⟩ <;> rw [same]
  · apply Control.push
    · exact control.congr rfl rfl rfl rfl
    · rfl
  · apply Control.schedule
    · exact control.congr rfl rfl rfl rfl
    · simpa [enqueue] using fresh

theorem Control.drain (control : s.Control) (distinct : (s.queue.map Queued.ref).Nodup)
    (forFlush : Bool) : (drain o forFlush s).Control :=
  Control.schedule (control.congr rfl rfl rfl rfl) distinct

theorem Control.flush (control : s.Control) (distinct : (s.queue.map Queued.ref).Nodup) :
    (flush o s).Control := by
  rcases flush_cases o s with ⟨_, same⟩ | ⟨_, _, same⟩ <;> rw [same]
  · exact control.drain distinct true
  · exact control.congr rfl rfl rfl rfl

theorem Control.beginShutdown (control : s.Control) (distinct : (s.queue.map Queued.ref).Nodup) :
    (beginShutdown o s).Control := by
  rcases beginShutdown_cases o s with ⟨_, same⟩ | ⟨_, _, _, same⟩ | ⟨_, _, same⟩ <;> rw [same]
  · exact control
  · exact control.push rfl
  · apply Control.drain
    · exact control.congr rfl rfl rfl rfl
    · exact distinct

theorem Control.abandonQueued (control : s.Control) (queued : List (Queued R)) (dropped : Nat) :
    (abandonQueued o queued dropped s).Control := by
  cases queued with
  | nil => exact control.push rfl
  | cons q rest =>
    apply Control.notifyFailure
    exact control.congr rfl rfl rfl rfl

theorem Control.abandonInFlight (control : s.Control) (pending : List Ref) (dropped unknown : Nat) :
    (abandonInFlight o pending dropped unknown s).Control := by
  cases pending with
  | nil =>
    simp only [State.abandonInFlight]
    split_ifs
    · exact control.push rfl
    · exact control
  | cons ref rest => exact (control.push rfl).fail _ _ _ _ _

theorem Control.record (control : s.Control) (record : R) (verdict : Verdict) :
    (State.record record verdict s).Control := by
  unfold State.record
  split_ifs
  · exact control
  · cases verdict <;> exact control.push rfl

theorem Control.move [AudrRecord R] {act : Act R} (control : s.Control)
    (fresh : (s.queue.map Queued.ref ++ [s.submitted]).Nodup) (move : Move o s act t) : t.Control := by
  have distinct : (s.queue.map Queued.ref).Nodup := (List.nodup_append.mp fresh).1
  cases move with
  | submit top => exact (control.pop top rfl).submit fresh _
  | reportInvalid top => exact (control.pop top rfl).notifyFailure _ _
  | queueFull top => exact ((control.pop top rfl).push rfl).notifyFailure _ _
  | returned top => exact (control.pop top rfl).congr rfl rfl rfl rfl
  | endNotify top => exact (control.pop top rfl).congr rfl rfl rfl rfl
  | fail top => exact (control.pop top rfl).fail _ _ _ _ _
  | markSent top => exact (control.pop top rfl).markSent _
  | notifyDelivered top =>
    unfold State.notifyDelivered
    split_ifs
    · exact (control.pop top rfl).push rfl
    · exact control.pop top rfl
  | concludeItem top => exact control.conclude_item top
  | release top => exact (control.release top).1
  | idleCheck top =>
    unfold State.idleCheck
    split_ifs <;> exact (control.pop top rfl).congr rfl rfl rfl rfl
  | assignStopping top => exact (control.pop top rfl).congr rfl rfl rfl rfl
  | assignShutdown top => exact (control.pop top rfl).congr rfl rfl rfl rfl
  | abandonOutstanding top => exact ((control.pop top rfl).push rfl).congr rfl rfl rfl rfl
  | abandonQueued top => exact (control.pop top rfl).abandonQueued _ _
  | abandonInFlight top => exact (control.pop top rfl).abandonInFlight _ _ _
  | record top => exact control.record _ _
  | flush top => exact control.flush distinct
  | shutdown top => exact control.beginShutdown distinct
  | sinkThrows top calling => exact control.sink_throws calling top
  | sinkReturns top calling exits =>
    obtain ⟨busy, none, refs⟩ := control.calling calling top
    exact ⟨⟨busy, refs, none⟩, control.nodup⟩
  | callbackThrows top other => exact (control.pop top (by simp_all [Op.delivers])).push rfl
  | callbackPromises top other =>
    exact (control.pop top (by simp_all [Op.delivers])).congr rfl rfl rfl rfl
  | leaves top other => exact control.pop top (by simp_all [Op.delivers])
  | task top => exact control.push rfl
  | lingerFires top armed => exact Control.startRun (control.congr rfl rfl rfl rfl) distinct
  | sinkSettles top awaiting => exact control.answer awaiting _
  | runResumes top paused => exact control.resumeRun paused distinct
  | drainSettles top found waiting truthful => exact control.congr rfl rfl rfl rfl
  | stopAborts top found drained settled =>
    apply Control.push
    · exact control.congr rfl rfl rfl rfl
    · split_ifs <;> rfl
  | stopCloses top found owns =>
    apply Control.push
    · exact control.congr rfl rfl rfl rfl
    · split_ifs <;> rfl
  | stopEnds top found last =>
    apply Control.push
    · exact control.congr rfl rfl rfl rfl
    · split_ifs <;> rfl
  | stopWaitSettles top found waiting truthful => exact control.congr rfl rfl rfl rfl
  | callbackSettles top pending =>
    apply Control.push
    · exact control.congr rfl rfl rfl rfl
    · split_ifs <;> rfl

end State

end Audr.Pipeline
