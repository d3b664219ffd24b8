import Audr.Pipeline.Control

/-! What shutting down does, step by step: once the signal is aborted no record is
taken in, and what the queue and the delivery in progress still hold is dropped or
marked unknown before control is back with the event loop. -/

namespace Audr.Pipeline

variable {R : Type}

/-- Whether an operation may be pending: no submission and no wait for idleness after
the signal is aborted, no abandonment before. -/
def Op.fits (aborted : Bool) : Op R → Bool
  | .submit _ => !aborted
  | .idleCheck _ => !aborted
  | .abandonOutstanding => aborted
  | .abandonQueued _ _ => aborted
  | .abandonInFlight _ _ _ => aborted
  | _ => true

/-- Operations by which a shutdown abandons what is left. -/
def Op.abandons : Op R → Bool
  | .abandonOutstanding => true
  | .abandonQueued _ _ => true
  | .abandonInFlight _ _ _ => true
  | _ => false

/-- Operations that carry a shutdown forward. -/
def Op.halts : Op R → Bool
  | .assignStopping _ => true
  | .assignShutdown _ => true
  | op => op.abandons

theorem Op.fits_of_accounts {op : Op R} (aborted : Bool) (accounts : op.accounts = true) :
    op.fits aborted = true := by
  cases op <;> first | rfl | cases accounts

def StopAt.past : StopAt → Bool
  | .draining _ => false
  | _ => true

namespace State

/-- Whatever is still queued or in flight is about to be abandoned. -/
def Covered (s : State R) : Prop :=
  .abandonOutstanding ∈ s.todo ∨
    (s.queue = [] ∧ ∀ ref ∈ liveRefs s.inFlight,
      (∃ queued dropped, .abandonQueued queued dropped ∈ s.todo) ∨
        ∃ pending dropped unknown, .abandonInFlight pending dropped unknown ∈ s.todo ∧ ref ∈ pending)

structure Halting (s : State R) : Prop where
  refusing : s.aborted = true → s.shutdown.isSome ∧ s.stopping.isSome
  assigning : s.stops ≠ [] → (s.shutdown.isSome ∨ ∃ stop, .assignShutdown stop ∈ s.todo) ∧
    (s.stopping.isSome ∨ ∃ stop, .assignStopping stop ∈ s.todo)
  closed : ∀ op ∈ s.todo, op.fits s.aborted = true
  covered : s.aborted = true → s.Covered
  past : ∀ stop ∈ s.stops, stop.past = true → s.aborted = true

/-- The part of the state that only a shutdown changes. -/
def halt (s : State R) : Bool × Option Nat × Option Nat × List StopAt :=
  (s.aborted, s.shutdown, s.stopping, s.stops)

variable {s t : State R} {o : Options}

theorem Halting.top_fits (halting : s.Halting) {op : Op R} {rest : List (Op R)}
    (top : s.todo = op :: rest) : op.fits s.aborted = true :=
  halting.closed op (top ▸ List.mem_cons_self)

theorem Halting.keep (halting : s.Halting) (ops : List (Op R)) (same : t.halt = s.halt)
    (todo : t.todo = ops ++ s.todo) (closed : ∀ op ∈ ops, op.fits s.aborted = true)
    (covered : s.aborted = true → s.Covered → t.Covered) : t.Halting := by
  simp only [halt, Prod.mk.injEq] at same
  obtain ⟨aborted, shutdown, stopping, stops⟩ := same
  have later : ∀ op ∈ s.todo, op ∈ t.todo := fun op member => todo ▸ List.mem_append_right _ member
  refine ⟨?_, ?_, ?_, ?_, ?_⟩
  · rw [aborted, shutdown, stopping]
    exact halting.refusing
  · rw [stops, shutdown, stopping]
    intro some
    obtain ⟨first, second⟩ := halting.assigning some
    exact ⟨first.imp_right fun ⟨stop, member⟩ => ⟨stop, later _ member⟩,
      second.imp_right fun ⟨stop, member⟩ => ⟨stop, later _ member⟩⟩
  · rw [aborted, todo]
    intro op member
    rcases List.mem_append.mp member with new | old
    · exact closed op new
    · exact halting.closed op old
  · rw [aborted]
    exact fun abort => covered abort (halting.covered abort)
  · rw [aborted, stops]
    exact halting.past

theorem Covered.grow (covered : s.Covered) (ops : List (Op R)) (queue : t.queue = s.queue)
    (live : ∀ ref ∈ liveRefs t.inFlight, ref ∈ liveRefs s.inFlight) (todo : t.todo = ops ++ s.todo) :
    t.Covered := by
  have later : ∀ op ∈ s.todo, op ∈ t.todo := fun op member => todo ▸ List.mem_append_right _ member
  rcases covered with whole | ⟨empty, each⟩
  · exact .inl (later _ whole)
  · refine .inr ⟨queue.trans empty, fun ref member => ?_⟩
    rcases each ref (live ref member) with ⟨queued, dropped, pending⟩ | ⟨pending, dropped, unknown, op, mem⟩
    · exact .inl ⟨queued, dropped, later _ pending⟩
    · exact .inr ⟨pending, dropped, unknown, later _ op, mem⟩

/-- Code that leaves the shutdown alone and at most settles items. -/
theorem Halting.frame (halting : s.Halting) (ops : List (Op R)) (same : t.halt = s.halt)
    (queue : t.queue = s.queue) (live : ∀ ref ∈ liveRefs t.inFlight, ref ∈ liveRefs s.inFlight)
    (todo : t.todo = ops ++ s.todo) (closed : ∀ op ∈ ops, op.fits s.aborted = true) : t.Halting :=
  halting.keep ops same todo closed fun _ covered => covered.grow ops queue live todo

theorem Halting.congr (halting : s.Halting) (same : t.halt = s.halt) (queue : t.queue = s.queue)
    (items : t.inFlight = s.inFlight) (todo : t.todo = s.todo) : t.Halting :=
  halting.frame ([]) same queue (fun ref live => items ▸ live) todo (by simp)

theorem Halting.push (halting : s.Halting) {ops : List (Op R)}
    (closed : ∀ op ∈ ops, op.fits s.aborted = true) : (push ops s).Halting :=
  halting.keep ops rfl rfl closed fun _ covered => covered.grow ops rfl (fun _ live => live) rfl

theorem Covered.pop (covered : s.Covered) {op : Op R} {rest : List (Op R)} (top : s.todo = op :: rest)
    (plain : op.abandons = false) : (s.pop rest).Covered := by
  have kept : ∀ other ∈ s.todo, other.abandons = true → other ∈ rest := by
    intro other member abandons
    rw [top] at member
    refine (List.mem_cons.mp member).resolve_left fun same => ?_
    rw [same, plain] at abandons
    cases abandons
  rcases covered with whole | ⟨empty, each⟩
  · exact .inl (kept _ whole rfl)
  · refine .inr ⟨empty, fun ref live => ?_⟩
    rcases each ref live with ⟨queued, dropped, pending⟩ | ⟨pending, dropped, unknown, op, mem⟩
    · exact .inl ⟨queued, dropped, kept _ pending rfl⟩
    · exact .inr ⟨pending, dropped, unknown, kept _ op rfl, mem⟩

/-- An operation that assigns nothing may be replaced by others. -/
theorem Halting.swap (halting : s.Halting) {op : Op R} {rest : List (Op R)} (ops : List (Op R))
    (top : s.todo = op :: rest) (same : t.halt = s.halt) (todo : t.todo = ops ++ rest)
    (stop : ∀ n, op ≠ .assignStopping n) (shut : ∀ n, op ≠ .assignShutdown n)
    (closed : ∀ op ∈ ops, op.fits s.aborted = true) (covered : s.Covered → t.Covered) : t.Halting := by
  simp only [halt, Prod.mk.injEq] at same
  obtain ⟨aborted, shutdown, stopping, stops⟩ := same
  have kept : ∀ other ∈ s.todo, other ≠ op → other ∈ t.todo := by
    intro other member differs
    rw [top] at member
    exact todo ▸ List.mem_append_right _ ((List.mem_cons.mp member).resolve_left differs)
  refine ⟨?_, ?_, ?_, ?_, ?_⟩
  · rw [aborted, shutdown, stopping]
    exact halting.refusing
  · rw [stops, shutdown, stopping]
    intro some
    obtain ⟨first, second⟩ := halting.assigning some
    exact ⟨first.imp_right fun ⟨n, member⟩ => ⟨n, kept _ member (shut n).symm⟩,
      second.imp_right fun ⟨n, member⟩ => ⟨n, kept _ member (stop n).symm⟩⟩
  · rw [aborted, todo]
    intro other member
    rcases List.mem_append.mp member with new | old
    · exact closed other new
    · exact halting.closed other (top ▸ List.mem_cons_of_mem _ old)
  · rw [aborted]
    exact fun abort => covered (halting.covered abort)
  · rw [aborted, stops]
    exact halting.past

theorem Halting.pop (halting : s.Halting) {op : Op R} {rest : List (Op R)} (top : s.todo = op :: rest)
    (plain : op.halts = false) : (s.pop rest).Halting :=
  halting.swap ([]) top rfl rfl (by rintro n rfl; cases plain) (by rintro n rfl; cases plain)
    (by simp) fun covered => covered.pop top (by cases op <;> simp_all [Op.halts, Op.abandons])

/-! The functions of the pipeline. -/

/-- A delivery that starts while a shutdown abandons starts before the queue is taken. -/
theorem Halting.deliver (halting : s.Halting) (full : s.queue ≠ []) : (deliver o s).Halting := by
  refine halting.keep ([.user .deliver]) rfl rfl (by simp [Op.fits]) fun _ => ?_
  rintro (whole | ⟨empty, _⟩)
  · exact .inl (List.mem_cons_of_mem _ whole)
  · exact absurd empty full

theorem Halting.schedule (halting : s.Halting) : (schedule o s).Halting := by
  rcases schedule_cases o s with ⟨same, _⟩ | ⟨_, full, _, started⟩ | ⟨_, _, _, armed⟩
  · rw [same]
    exact halting
  · rw [started]
    exact Halting.deliver (halting.congr rfl rfl rfl rfl) full
  · rw [armed]
    exact halting.congr rfl rfl rfl rfl

theorem Halting.startRun (halting : s.Halting) : (startRun o s).Halting := by
  rcases startRun_cases o s with ⟨same, _⟩ | ⟨_, _, woken⟩ | ⟨_, full, started⟩
  · rw [same]
    exact halting
  · rw [woken]
    exact halting.congr rfl rfl rfl rfl
  · rw [started]
    exact Halting.deliver (halting.congr rfl rfl rfl rfl) full

theorem Halting.resumeRun (halting : s.Halting) : (resumeRun o s).Halting := by
  rcases resumeRun_cases o s with ⟨full, _, next⟩ | ⟨_, woken⟩ | ⟨_, rescheduled⟩
  · rw [next]
    exact halting.deliver full
  · rw [woken]
    exact halting.congr rfl rfl rfl rfl
  · rw [rescheduled]
    exact Halting.schedule (halting.congr rfl rfl rfl rfl)

theorem Halting.notifyFailure (halting : s.Halting) (ref : Option Ref) (failure : FailedRecord R) :
    (notifyFailure o ref failure s).Halting := by
  unfold State.notifyFailure
  split_ifs
  · exact halting
  · exact halting.frame ([.user .onFailure, .endNotify]) rfl rfl (fun _ live => live) rfl
      (by simp [Op.fits])

theorem Halting.settleItem (halting : s.Halting) (ref : Ref) (terminal : Terminal) :
    (settleItem ref terminal s).Halting := by
  refine halting.frame ([]) rfl rfl (fun other live => ?_) rfl (by simp)
  change other ∈ liveRefs (marked ref terminal s.inFlight) at live
  rw [liveRefs_marked] at live
  exact List.mem_of_mem_filter live

theorem Halting.markSent (halting : s.Halting) (ref : Ref) : (markSent ref s).Halting := by
  unfold State.markSent
  split_ifs
  · exact halting.settleItem ref .sent
  · exact halting

theorem Halting.fail (halting : s.Halting) (ref : Ref) (disposition : Disposition)
    (reason : FailureReason) (retryable : Bool) (detail : Option String) :
    (fail o ref disposition reason retryable detail s).Halting := by
  unfold State.fail
  split
  · exact halting
  · exact (halting.settleItem ref disposition.terminal).notifyFailure _ _

/-- A record is submitted only while nothing has been aborted. -/
theorem Halting.submit (halting : s.Halting) (opened : s.aborted = false) (record : R) :
    (submit o record s).Halting := by
  rcases submit_cases o record s with ⟨_, same⟩ | ⟨_, same⟩ <;> rw [same]
  · apply Halting.push
    · exact halting.congr rfl rfl rfl rfl
    · simp [Op.fits]
  · apply Halting.schedule
    refine halting.keep ([.returned s.submitted .queued]) rfl rfl (by simp [Op.fits]) fun abort => ?_
    rw [opened] at abort
    cases abort

theorem Halting.drain (halting : s.Halting) (opened : s.aborted = false) (forFlush : Bool) :
    (drain o forFlush s).Halting := by
  rw [drain_eq]
  apply Halting.schedule
  exact halting.keep ([.idleCheck s.drains.length]) rfl rfl (by simp [Op.fits, opened])
    fun _ covered => covered.grow ([.idleCheck s.drains.length]) rfl (fun _ live => live) rfl

theorem Halting.flush (halting : s.Halting) : (flush o s).Halting := by
  rcases flush_cases o s with ⟨none, same⟩ | ⟨_, _, same⟩ <;> rw [same]
  · refine halting.drain ?_ true
    by_contra abort
    have some := (halting.refusing (by simpa using abort)).2
    rw [none] at some
    cases some
  · exact halting.congr rfl rfl rfl rfl

theorem Halting.beginShutdown (halting : s.Halting) : (beginShutdown o s).Halting := by
  have opened : s.shutdown = none → s.aborted = false := by
    intro none
    by_contra abort
    have some := (halting.refusing (by simpa using abort)).1
    rw [none] at some
    cases some
  rcases beginShutdown_cases o s with ⟨_, same⟩ | ⟨_, _, _, same⟩ | ⟨begun, _, same⟩ <;> rw [same]
  · exact halting
  · exact halting.push (by simp [Op.fits])
  · have absent : ¬ s.aborted = true := by simp [opened begun]
    have begun_ : (stopping_ s).Halting := by
      refine ⟨?_, ?_, ?_, ?_, ?_⟩
      · exact fun abort => absurd abort absent
      · exact fun _ => ⟨.inr ⟨_, List.mem_cons_of_mem _ List.mem_cons_self⟩,
          .inr ⟨_, List.mem_cons_self⟩⟩
      · exact List.forall_mem_cons.mpr ⟨rfl, List.forall_mem_cons.mpr ⟨rfl, halting.closed⟩⟩
      · exact fun abort => absurd abort absent
      · intro stop member past
        rcases List.mem_append.mp member with old | new
        · exact halting.past stop old past
        · rw [List.mem_singleton.mp new] at past
          cases past
    exact begun_.drain (opened begun) false

theorem Halting.record (halting : s.Halting) (record : R) (verdict : Verdict) :
    (State.record record verdict s).Halting := by
  unfold State.record
  split_ifs with begun
  · exact halting
  · have absent : ¬ s.aborted = true := fun abort => begun (halting.refusing abort).1
    cases verdict <;> exact halting.push (by simp [Op.fits, absent])

/-! The three operations that abandon. -/

/-- The abandoned queue is empty, and its records are with the operation that drops them. -/
theorem Halting.abandonOutstanding (halting : s.Halting) {rest : List (Op R)}
    (top : s.todo = .abandonOutstanding :: rest) : (abandonOutstanding (s.pop rest)).Halting :=
  halting.swap ([.abandonQueued s.queue 0]) top rfl rfl (by simp) (by simp)
    (by simpa [Op.fits] using halting.top_fits top)
    fun _ => .inr ⟨rfl, fun _ _ => .inl ⟨_, _, List.mem_cons_self⟩⟩

theorem Halting.abandonQueued (halting : s.Halting) {queued : List (Queued R)} {dropped : Nat}
    {rest : List (Op R)} (top : s.todo = .abandonQueued queued dropped :: rest) :
    (abandonQueued o queued dropped (s.pop rest)).Halting := by
  have aborted : s.aborted = true := halting.top_fits top
  have outstanding : ∀ op ∈ s.todo, op = .abandonOutstanding → op ∈ rest := by
    rintro op member rfl
    rw [top] at member
    exact (List.mem_cons.mp member).resolve_left (by simp)
  cases queued with
  | cons q queued =>
    apply Halting.notifyFailure
    refine halting.swap ([.abandonQueued queued (dropped + 1)]) top rfl rfl (by simp) (by simp)
      (by simp [Op.fits, aborted]) ?_
    rintro (whole | ⟨empty, _⟩)
    · exact .inl (List.mem_cons_of_mem _ (outstanding _ whole rfl))
    · exact .inr ⟨empty, fun _ _ => .inl ⟨_, _, List.mem_cons_self⟩⟩
  | nil =>
    refine halting.swap ([.abandonInFlight (itemRefs s.inFlight) dropped 0]) top rfl rfl
      (by simp) (by simp) (by simp [Op.fits, aborted]) ?_
    rintro (whole | ⟨empty, _⟩)
    · exact .inl (List.mem_cons_of_mem _ (outstanding _ whole rfl))
    · exact .inr ⟨empty, fun ref live =>
        .inr ⟨_, _, _, List.mem_cons_self, (liveRefs_sublist _).subset live⟩⟩

/-- After its turn an item is no longer in flight, so the rest of the turns cover the others. -/
theorem Covered.turn (covered : s.Covered) {ref : Ref} {pending : List Ref}
    {dropped unknown count : Nat} {rest : List (Op R)}
    (top : s.todo = .abandonInFlight (ref :: pending) dropped unknown :: rest)
    (queue : t.queue = s.queue) (todo : t.todo = .abandonInFlight pending dropped count :: rest)
    (live : ∀ other ∈ liveRefs t.inFlight, other ∈ liveRefs s.inFlight ∧ other ≠ ref) : t.Covered := by
  rw [Covered, top] at covered
  rw [Covered, todo]
  rcases covered with whole | ⟨empty, each⟩
  · exact .inl (List.mem_cons_of_mem _ ((List.mem_cons.mp whole).resolve_left (by simp)))
  · refine .inr ⟨queue.trans empty, fun other member => ?_⟩
    obtain ⟨member, differs⟩ := live other member
    rcases each other member with ⟨queued, n, op⟩ | ⟨others, m, n, op, included⟩
    · exact .inl ⟨queued, n, List.mem_cons_of_mem _ ((List.mem_cons.mp op).resolve_left (by simp))⟩
    · rcases List.mem_cons.mp op with same | old
      · obtain ⟨rfl, rfl, rfl⟩ := Op.abandonInFlight.inj same
        exact .inr ⟨_, _, _, List.mem_cons_self, (List.mem_cons.mp included).resolve_left differs⟩
      · exact .inr ⟨others, m, n, List.mem_cons_of_mem _ old, included⟩

theorem Halting.abandonInFlight (halting : s.Halting) {pending : List Ref} {dropped unknown : Nat}
    {rest : List (Op R)} (top : s.todo = .abandonInFlight pending dropped unknown :: rest) :
    (abandonInFlight o pending dropped unknown (s.pop rest)).Halting := by
  have aborted : s.aborted = true := halting.top_fits top
  cases pending with
  | cons ref pending =>
    simp only [State.abandonInFlight, State.fail]
    split
    next absent =>
      have gone : ref ∉ liveRefs s.inFlight := liveItem_none (s := s) absent
      exact halting.swap ([_]) top rfl rfl (by simp) (by simp) (by simp [Op.fits, aborted])
        fun covered => covered.turn top rfl rfl fun other live => ⟨live, fun same => gone (same ▸ live)⟩
    next =>
      apply Halting.notifyFailure
      refine halting.swap ([_]) top rfl rfl (by simp) (by simp) (by simp [Op.fits, aborted])
        fun covered => covered.turn top rfl rfl fun other live => ?_
      change other ∈ liveRefs (marked ref _ s.inFlight) at live
      rw [liveRefs_marked] at live
      exact ⟨List.mem_of_mem_filter live, by simpa using (List.mem_filter.mp live).2⟩
  | nil =>
    have done : (s.pop rest).Halting := by
      refine halting.swap ([]) top rfl rfl (by simp) (by simp) (by simp) fun covered => ?_
      rw [Covered, top] at covered
      rcases covered with whole | ⟨empty, each⟩
      · exact .inl ((List.mem_cons.mp whole).resolve_left (by simp))
      · refine .inr ⟨empty, fun other member => ?_⟩
        rcases each other member with ⟨queued, n, op⟩ | ⟨others, m, n, op, included⟩
        · exact .inl ⟨queued, n, (List.mem_cons.mp op).resolve_left (by simp)⟩
        · rcases List.mem_cons.mp op with same | old
          · rw [(Op.abandonInFlight.inj same).1] at included
            cases included
          · exact .inr ⟨others, m, n, old, included⟩
    simp only [State.abandonInFlight]
    split_ifs
    · exact done.push (by simp [Op.fits])
    · exact done

/-- An abort finds both promises assigned, because control is with the event loop. -/
theorem Halting.abort (halting : s.Halting) {stop drain : Nat} (top : s.todo = [])
    (found : s.stops[stop]? = some (.draining drain)) (timer : Timer) :
    (State.push (if s.aborted then [.abandonOutstanding] else [.user .abortListener, .abandonOutstanding])
      { s with lingerTimer := timer, aborted := true, stops := s.stops.set stop .settlingCallbacks }).Halting := by
  have some : s.stops ≠ [] := by
    intro empty
    simp [empty] at found
  obtain ⟨first, second⟩ := halting.assigning some
  rw [top] at first second
  have shutdown := first.resolve_right (by simp)
  have stopping := second.resolve_right (by simp)
  have last : .abandonOutstanding ∈
      (if s.aborted then [.abandonOutstanding] else [.user .abortListener, .abandonOutstanding]) ++ s.todo := by
    split_ifs <;> simp
  refine ⟨fun _ => ⟨shutdown, stopping⟩, fun _ => ⟨.inl shutdown, .inl stopping⟩, ?_, fun _ => .inl last,
    fun _ _ _ => rfl⟩
  intro op member
  simp only [State.push, top, List.append_nil] at member
  split_ifs at member <;> simp only [List.mem_cons, List.not_mem_nil, or_false] at member
  · rw [member]
    rfl
  · rcases member with rfl | rfl <;> rfl

/-- A stop that has aborted goes on to its next `await`. -/
theorem Halting.stopped_at (halting : s.Halting) {stop : Nat} {at_ : StopAt} (next : StopAt)
    (found : s.stops[stop]? = some at_) (past : at_.past = true) :
    { s with stops := s.stops.set stop next }.Halting := by
  have abort : s.aborted = true := halting.past at_ (List.mem_of_getElem? found) past
  obtain ⟨shutdown, stopping⟩ := halting.refusing abort
  exact ⟨fun _ => ⟨shutdown, stopping⟩, fun _ => ⟨.inl shutdown, .inl stopping⟩, halting.closed,
    halting.covered, fun _ _ _ => abort⟩

theorem Halting.assignStopping (halting : s.Halting) {stop : Nat} {rest : List (Op R)}
    (top : s.todo = .assignStopping stop :: rest) : { s.pop rest with stopping := some stop }.Halting := by
  refine ⟨fun abort => ⟨(halting.refusing abort).1, rfl⟩, fun some => ⟨?_, .inl rfl⟩, ?_, ?_, halting.past⟩
  · refine (halting.assigning some).1.imp_right fun ⟨n, member⟩ => ⟨n, ?_⟩
    rw [top] at member
    exact (List.mem_cons.mp member).resolve_left (by simp)
  · exact fun op member => halting.closed op (top ▸ List.mem_cons_of_mem _ member)
  · exact fun abort => (halting.covered abort).pop top rfl

theorem Halting.assignShutdown (halting : s.Halting) {stop : Nat} {rest : List (Op R)}
    (top : s.todo = .assignShutdown stop :: rest) : { s.pop rest with shutdown := some stop }.Halting := by
  refine ⟨fun abort => ⟨rfl, (halting.refusing abort).2⟩, fun some => ⟨.inl rfl, ?_⟩, ?_, ?_, halting.past⟩
  · refine (halting.assigning some).2.imp_right fun ⟨n, member⟩ => ⟨n, ?_⟩
    rw [top] at member
    exact (List.mem_cons.mp member).resolve_left (by simp)
  · exact fun op member => halting.closed op (top ▸ List.mem_cons_of_mem _ member)
  · exact fun abort => (halting.covered abort).pop top rfl

/-- One step of the machine. -/
theorem Halting.move [AudrRecord R] {act : Act R} (halting : s.Halting) (move : Move o s act t) : t.Halting := by
  cases move with
  | submit top =>
    refine Halting.submit (halting.pop top rfl) ?_ _
    have fits := halting.top_fits top
    have opened : s.aborted = false := by simpa [Op.fits] using fits
    exact opened
  | reportInvalid top => exact (halting.pop top rfl).notifyFailure _ _
  | queueFull top => exact ((halting.pop top rfl).push (by simp [Op.fits])).notifyFailure _ _
  | returned top => exact (halting.pop top rfl).congr rfl rfl rfl rfl
  | endNotify top => exact (halting.pop top rfl).congr rfl rfl rfl rfl
  | fail top => exact (halting.pop top rfl).fail _ _ _ _ _
  | markSent top => exact (halting.pop top rfl).markSent _
  | notifyDelivered top =>
    unfold State.notifyDelivered
    split_ifs
    · exact (halting.pop top rfl).push (by simp [Op.fits])
    · exact halting.pop top rfl
  | concludeItem top => exact ((halting.pop top rfl).push (by simp [Op.fits])).fail _ _ _ _ _
  | release top =>
    apply Halting.push
    · refine (halting.pop top rfl).frame ([]) rfl rfl (fun ref live => ?_) rfl (by simp)
      exact ((List.filter_sublist.filter _).map _).subset live
    · split_ifs <;> simp [Op.fits]
  | idleCheck top =>
    unfold State.idleCheck
    split_ifs <;> exact (halting.pop top rfl).congr rfl rfl rfl rfl
  | assignStopping top => exact halting.assignStopping top
  | assignShutdown top => exact halting.assignShutdown top
  | abandonOutstanding top => exact halting.abandonOutstanding top
  | abandonQueued top => exact halting.abandonQueued top
  | abandonInFlight top => exact halting.abandonInFlight top
  | record top => exact halting.record _ _
  | flush top => exact halting.flush
  | shutdown top => exact halting.beginShutdown
  | sinkThrows top calling =>
    apply Halting.push
    · exact (halting.pop top rfl).congr rfl rfl rfl rfl
    · simp [Op.fits]
  | sinkReturns top calling exits => exact (halting.pop top rfl).congr rfl rfl rfl rfl
  | callbackThrows top other => exact (halting.pop top rfl).push (by simp [Op.fits])
  | callbackPromises top other => exact (halting.pop top rfl).congr rfl rfl rfl rfl
  | leaves top other => exact halting.pop top rfl
  | task top => exact halting.push (by simp [Op.fits])
  | lingerFires top armed =>
    apply Halting.startRun
    exact halting.congr rfl rfl rfl rfl
  | sinkSettles top awaiting =>
    obtain ⟨ops, batches, accounts, same⟩ := answer_cases _ _ s
    rw [same]
    apply Halting.push
    · exact halting.congr rfl rfl rfl rfl
    · intro op member
      rcases List.mem_append.mp member with call | last
      · exact Op.fits_of_accounts _ (accounts op call)
      · rw [List.mem_singleton.mp last]
        rfl
  | runResumes top paused => exact halting.resumeRun
  | drainSettles top found waiting truthful => exact halting.congr rfl rfl rfl rfl
  | stopAborts top found drained settled => exact halting.abort top found _
  | stopCloses top found owns =>
    apply Halting.push
    · exact halting.stopped_at _ found rfl
    · split_ifs <;> simp [Op.fits]
  | stopEnds top found last =>
    apply Halting.push
    · refine halting.stopped_at _ found ?_
      rcases last with rfl | ⟨rfl, _⟩ <;> rfl
    · split_ifs <;> simp [Op.fits]
  | stopWaitSettles top found waiting truthful => exact halting.congr rfl rfl rfl rfl
  | callbackSettles top pending =>
    apply Halting.push
    · exact halting.congr rfl rfl rfl rfl
    · split_ifs <;> simp [Op.fits]

end State

end Audr.Pipeline
