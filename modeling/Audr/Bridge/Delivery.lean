import Audr.Bridge.Handoffs

/-! What the bridge does with what it accepts. In every state the count, the order and the
waiters are right, and the loop's own steps bring each handoff to the client and resolve
each waiter. -/

namespace Audr.Bridge

open Transition (Run)

variable {R O : Type} {s t : EventLoopBridge R O} {act : Act R O} {acts : List (Act R O)}

/-- How many steps the loop has to make until it is idle. -/
def LoopAt.phase : LoopAt R → Nat
  | .idle => 0
  | .waking _ => 1
  | .reporting _ => 2
  | .calling _ => 3

namespace EventLoopBridge

/-- How many steps the loop has to make until it has called the client with a handoff. -/
def toGo (s : EventLoopBridge R O) (position : Nat) : Nat :=
  if position < s.called.length then 0 else 4 * (position - s.called.length) + s.loop.phase + 1

/-- The promises about one state. -/
structure Sound (s : EventLoopBridge R O) : Prop where
  counted : ∃ unfinished, s.scheduled = s.finished ++ unfinished ∧
    s.pending = unfinished.length + s.submitting.length
  bounded : s.pending ≤ s.maxPending
  finished : s.finished <+: s.called
  inOrder : s.called <+: s.scheduled
  once : s.called.Nodup
  answered : ∀ handoff, (handoff, HandoffOutcome.scheduled) ∈ s.answers ↔ handoff ∈ s.scheduled
  others : ∀ handoff outcome, (handoff, outcome) ∈ s.answers → outcome ≠ .scheduled → handoff ∉ s.called
  drains : ∀ drain ∈ s.drains, drain.ending = .returned → drain.before ⊆ s.finished
  woken : ∀ waiter, s.waiters[waiter]? = some false →
    s.pending ≠ 0 ∧ s.drained = some waiter ∨ s.loop = .waking waiter

/-- The promises about what comes next. The loop can always go on; a handoff is called after
so many of its steps, whatever else happens; and one of its steps after the count was zero,
no waiter of that moment is left. -/
structure Prompt (s : EventLoopBridge R O) : Prop where
  moves : s.ready ≠ [] ∨ s.loop ≠ .idle → ∃ act, act.ofLoop = true ∧ (step s act).isSome = true
  arrives : ∀ acts t, Run step staysOpen s acts t → ∀ position handoff,
    s.scheduled[position]? = some handoff → s.toGo position ≤ acts.countP Act.ofLoop →
      t.called[position]? = some handoff
  resolves : ∀ acts t, Run step staysOpen s acts t → s.pending = 0 → 0 < acts.countP Act.ofLoop →
    ∀ waiter < s.waiters.length, t.waiters[waiter]? = some true

/-! The invariants along a run. -/

structure Kept (s : EventLoopBridge R O) : Prop where
  placed : s.Placed
  answered : s.Answered
  awaited : s.Awaited

theorem create_kept (maxPending : Nat) : (create maxPending : EventLoopBridge R O).Kept :=
  ⟨create_placed _, create_answered _, create_awaited _⟩

theorem Kept.step (kept : s.Kept) (permitted : s.staysOpen act) (taken : EventLoopBridge.step s act = some t) :
    t.Kept := by
  have moved := step_moved kept.placed.isOpen permitted taken
  exact ⟨moved.placed kept.placed, moved.answers kept.placed kept.answered, moved.awaited kept.placed kept.awaited⟩

theorem Kept.run (kept : s.Kept) (run : Run EventLoopBridge.step staysOpen s acts t) : t.Kept :=
  run.invariant Kept kept fun _ _ _ => Kept.step

theorem Kept.sound (kept : s.Kept) : s.Sound := by
  obtain ⟨placed, answered, awaited⟩ := kept
  have finished : s.finished <+: s.called := ⟨s.loop.holding, placed.released⟩
  have inOrder : s.called <+: s.scheduled := ⟨s.ready, placed.order⟩
  have accepted : s.scheduled ⊆ s.accepted := fun handoff inside =>
    placed.accepted.mem_iff.mpr (List.mem_append_left _ inside)
  have distinct : (s.scheduled ++ s.submitting).Nodup := placed.accepted.nodup_iff.mp answered.distinct
  refine
    { counted := ⟨s.loop.holding ++ s.ready, ?_, ?_⟩
      bounded := placed.bounded
      finished
      inOrder
      once := (List.nodup_append'.mp distinct).1.sublist inOrder.sublist
      answered := answered.scheduled
      others := ?_
      drains := awaited.returned
      woken := ?_ }
  · rw [← List.append_assoc, placed.released, placed.order]
  · have count := placed.count
    rw [List.length_append]
    omega
  · intro handoff outcome given different called
    exact answered.refused handoff outcome given different (accepted (inOrder.subset called))
  · intro waiter open_
    obtain shared | waking := awaited.unresolved waiter open_
    · exact Or.inl ⟨(awaited.current waiter shared).2, shared⟩
    · exact Or.inr waking

/-! The loop's own steps. -/

theorem moves_on (busy : s.ready ≠ [] ∨ s.loop ≠ .idle) :
    ∃ act, act.ofLoop = true ∧ (step s act).isSome = true := by
  cases loop : s.loop with
  | idle =>
    cases ready : s.ready with
    | nil => exact absurd (busy.resolve_left (by simp [ready])) (by simp [loop])
    | cons handoff rest => exact ⟨.take, rfl, by simp [step, loop, ready]⟩
  | calling handoff => exact ⟨.answer .failed, rfl, by simp [step, loop]⟩
  | reporting handoff => exact ⟨.release, rfl, by simp [step, loop]⟩
  | waking waiter => exact ⟨.wake, rfl, by simp [step, loop]⟩

/-- A step of the loop brings every handoff one step closer, and no other step puts one off. -/
theorem Moved.toGo_le (moved : s.Moved act t) (position : Nat) :
    t.toGo position ≤ s.toGo position - if act.ofLoop then 1 else 0 := by
  cases moved with
  | taken idle =>
    simp only [toGo, idle, LoopAt.phase, Act.ofLoop, List.length_append, List.length_singleton, if_true]
    split_ifs <;> omega
  | answered calling =>
    simp only [toGo, calling, LoopAt.phase, Act.ofLoop, if_true]
    split_ifs <;> omega
  | released reporting =>
    simp only [toGo, reporting, LoopAt.phase, Act.ofLoop, if_true]
    split_ifs <;> omega
  | drained reporting =>
    simp only [toGo, reporting, LoopAt.phase, Act.ofLoop, if_true]
    split_ifs <;> omega
  | woke waking =>
    simp only [toGo, waking, LoopAt.phase, Act.ofLoop, if_true]
    split_ifs <;> omega
  | _ => exact le_rfl

theorem Moved.scheduled_grows (moved : s.Moved act t) : s.scheduled <+: t.scheduled := by
  cases moved <;> first | exact List.prefix_rfl | exact List.prefix_append _ _

/-- Over a run the loop's steps add up. -/
theorem Kept.progress (kept : s.Kept) (run : Run EventLoopBridge.step staysOpen s acts t) (position : Nat) :
    s.scheduled <+: t.scheduled ∧ t.toGo position ≤ s.toGo position - acts.countP Act.ofLoop := by
  induction run with
  | refl => exact ⟨List.prefix_rfl, le_rfl⟩
  | @tail labels u v label before permitted taken ih =>
    have moved := step_moved (kept.run before).placed.isOpen permitted taken
    have closer := moved.toGo_le position
    refine ⟨ih.1.trans moved.scheduled_grows, ?_⟩
    rw [List.countP_append, List.countP_singleton]
    omega

theorem Kept.arrives (kept : s.Kept) (run : Run EventLoopBridge.step staysOpen s acts t) {position : Nat}
    {handoff : Handoff R} (scheduled : s.scheduled[position]? = some handoff)
    (enough : s.toGo position ≤ acts.countP Act.ofLoop) : t.called[position]? = some handoff := by
  obtain ⟨grown, closer⟩ := kept.progress run position
  have inside : position < t.called.length := by
    by_contra outside
    have left : t.toGo position ≠ 0 := by simp [toGo, outside]
    omega
  have order := (kept.run run).placed.order
  obtain ⟨here_, found⟩ := List.getElem?_eq_some_iff.mp scheduled
  have later := List.prefix_iff_getElem?.mp grown position here_
  rwa [found, ← order, List.getElem?_append_left inside] at later

/-- A waiter that is done stays done. -/
theorem Moved.done (moved : s.Moved act t) {waiter : Nat} (done : s.waiters[waiter]? = some true) :
    t.waiters[waiter]? = some true := by
  have inside : waiter < s.waiters.length := (List.getElem?_eq_some_iff.mp done).1
  cases moved with
  | @woke resolved waking =>
    by_cases same : resolved = waiter
    · simp only [same, List.getElem?_set_self inside]
    · simpa only [List.getElem?_set_ne same] using done
  | waits => simpa only [List.getElem?_append_left inside] using done
  | _ => exact done

/-- The waiter in the loop's hand is done by the loop's next step. -/
theorem Moved.wakes (moved : s.Moved act t) {waiter : Nat} (inside : waiter < s.waiters.length)
    (waking : s.loop = .waking waiter) :
    t.waiters[waiter]? = some true ∨ act.ofLoop = false ∧ t.loop = .waking waiter := by
  cases moved with
  | taken idle => simp [idle] at waking
  | answered calling => simp [calling] at waking
  | released reporting => simp [reporting] at waking
  | drained reporting => simp [reporting] at waking
  | woke resolving =>
    rw [resolving] at waking
    cases waking
    exact Or.inl (List.getElem?_set_self inside)
  | _ => exact Or.inr ⟨rfl, waking⟩

theorem Moved.waiters_le (moved : s.Moved act t) : s.waiters.length ≤ t.waiters.length := by
  cases moved <;> simp

/-- When the count is zero every waiter is done or in the loop's hand, and stays so. -/
theorem Kept.resolves (kept : s.Kept) (run : Run EventLoopBridge.step staysOpen s acts t) (none_ : s.pending = 0)
    {waiter : Nat} (inside : waiter < s.waiters.length) :
    waiter < t.waiters.length ∧
      (t.waiters[waiter]? = some true ∨ acts.countP Act.ofLoop = 0 ∧ t.loop = .waking waiter) := by
  induction run with
  | refl =>
    refine ⟨inside, ?_⟩
    cases done : s.waiters[waiter] with
    | true => exact Or.inl (List.getElem?_eq_some_iff.mpr ⟨inside, done⟩)
    | false =>
      have open_ : s.waiters[waiter]? = some false := List.getElem?_eq_some_iff.mpr ⟨inside, done⟩
      obtain shared | waking := kept.awaited.unresolved waiter open_
      · exact absurd none_ (kept.awaited.current waiter shared).2
      · exact Or.inr ⟨rfl, waking⟩
  | @tail labels u v label before permitted taken ih =>
    have moved := step_moved (kept.run before).placed.isOpen permitted taken
    refine ⟨ih.1.trans_le moved.waiters_le, ?_⟩
    obtain done | ⟨count, waking⟩ := ih.2
    · exact Or.inl (moved.done done)
    · refine (moved.wakes ih.1 waking).imp_right fun ⟨outside, still⟩ => ⟨?_, still⟩
      rw [List.countP_append, List.countP_singleton, outside, count]
      rfl

theorem Kept.prompt (kept : s.Kept) : s.Prompt where
  moves := moves_on
  arrives _ _ run _ _ scheduled enough := kept.arrives run scheduled enough
  resolves _ _ run none_ steps _ inside :=
    (kept.resolves run none_ inside).2.resolve_right fun ⟨count, _⟩ => absurd steps (by omega)

/-- Whatever the interleaving, a bridge whose loop stays open keeps its promises. -/
theorem run_delivers {maxPending : Nat} (run : Run step staysOpen (create maxPending) acts s) : s.Sound ∧ s.Prompt := by
  have kept := (create_kept maxPending).run run
  exact ⟨kept.sound, kept.prompt⟩

/-- Two drains share a waiter while the second submit finds the bridge full; one of them times
out before the callback lets go of its place. -/
def sharedActs : List (Act String Nat) :=
  [.submit "a", .drain true, .schedule 0, .submit "b", .take, .drain true, .answer .failed, .abandon 0 true, .release,
    .drain true, .wake, .settle 1]

def sharedBridge : EventLoopBridge String Nat :=
  (Transition.executeWithin step staysOpen (create 1) sharedActs).getD (create 1)

theorem run_delivers_shared : sharedBridge.drains.map Drain.ending = [.timedOut, .returned, .returned] ∧
    sharedBridge.waiters = [true] ∧ sharedBridge.called = [⟨0, "a"⟩] ∧ sharedBridge.Sound ∧ sharedBridge.Prompt := by
  have run : Run step staysOpen (create 1) sharedActs sharedBridge := Run.of_executeWithin rfl
  exact ⟨rfl, rfl, rfl, run_delivers run⟩

end EventLoopBridge

end Audr.Bridge
