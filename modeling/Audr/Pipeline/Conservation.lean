import Audr.Lib.Transition
import Audr.Pipeline.Books
import Audr.Pipeline.Halting

/-! Accounting conservation of the TypeScript pipeline. Every record submitted is
queued, in flight, about to be abandoned, or counted in exactly one terminal state;
and once a stop has finished nothing is outstanding, however late the sink answers. -/

namespace Audr.Pipeline

open Transition (Run anyStep)

variable {R : Type}

namespace State

/-- What holds between any two steps of the client. -/
structure Sound (s : State R) : Prop where
  control : s.Control
  halting : s.Halting
  balanced : s.ledger.Balanced
  counted : s.Counted
  labelled : s.Labelled
  ended : .stopped ∈ s.stops → s.held = 0

variable {s t : State R} {o : Options}

theorem sound_initial : (initial R).Sound where
  control := ⟨⟨rfl, rfl, rfl⟩, List.nodup_nil⟩
  halting := ⟨by simp [initial], by simp [initial], by simp [initial], by simp [initial], by simp [initial]⟩
  balanced := rfl
  counted := ⟨rfl, rfl, rfl⟩
  labelled := by simp [Labelled, initial]
  ended := by simp [initial]

/-- The next submission's reference is not in the queue. -/
theorem Sound.fresh (sound : s.Sound) : (s.queueRefs ++ [s.submitted]).Nodup := by
  have queued : ∀ ref ∈ s.queueRefs, ref ∈ s.held := fun ref member =>
    Multiset.mem_add.mpr (.inl (Multiset.mem_add.mpr (.inl member)))
  have distinct : (s.queueRefs : Multiset Nat).Nodup :=
    Multiset.nodup_of_le ((Multiset.le_add_right _ _).trans (Multiset.le_add_right _ _))
      sound.balanced.held_nodup
  refine List.nodup_append.mpr ⟨Multiset.coe_nodup.mp distinct, by simp, ?_⟩
  intro ref member other same
  have known : ref < s.submitted := sound.balanced.lt_issued.mpr (.inl (queued ref member))
  rw [List.mem_singleton.mp same]
  exact known.ne

theorem Sound.not_submitting (sound : s.Sound) (aborted : s.aborted = true) {record : R}
    {rest : List (Op R)} : s.todo ≠ .submit record :: rest := by
  intro top
  have fits := sound.halting.top_fits top
  rw [aborted] at fits
  cases fits

/-- With the stack empty after an abort, nothing is left to account for. -/
theorem Sound.spent (sound : s.Sound) (aborted : s.aborted = true) (top : s.todo = []) : s.held = 0 := by
  have covered := sound.halting.covered aborted
  rw [Covered, top] at covered
  obtain ⟨queue, live⟩ := covered.resolve_left (by simp)
  have none : liveRefs s.inFlight = [] := by
    refine List.eq_nil_iff_forall_not_mem.mpr fun ref member => ?_
    rcases live ref member with ⟨_, _, op⟩ | ⟨_, _, _, op, _⟩ <;> cases op
  simp [held, queueRefs, queue, none, top]

/-- Nothing held stays nothing held, unless a record is taken in. -/
theorem held_zero {new : Nat} (books : State.Books new s t) (quiet : new = 0)
    (balanced : s.ledger.Balanced) (empty : s.held = 0) : t.held = 0 := by
  refine Multiset.eq_zero_of_forall_notMem fun ref member => ?_
  have after := Accounts.balanced_steps books.steps balanced
  have known : ref < s.submitted := by
    have issued : ref < t.submitted := after.lt_issued.mpr (.inl member)
    rw [books.taken, quiet] at issued
    exact issued
  have closed := balanced.all_closed empty known
  have still : ref ∈ t.ledger.closedTokens :=
    (Accounts.closed_prefix books.steps).sublist.map Prod.fst |>.subset closed
  exact after.not_held still member

/-- What a step does to the calls of `#stop`: one may begin, or one may go on from an
`await`, with control in the event loop. -/
theorem stops_move [AudrRecord R] {act : Act R} (move : Move o s act t) :
    t.stops = s.stops ∨ (∃ drain, t.stops = s.stops ++ [.draining drain]) ∨
    ∃ stop at_ next, s.todo = [] ∧ s.stops[stop]? = some at_ ∧ at_ ≠ .stopped ∧
      t.stops = s.stops.set stop next ∧ (next = .stopped → at_.past = true) := by
  rcases move.turn with same | turn
  · exact .inl (congrArg (fun frame => frame.stops) same)
  cases turn with
  | submit top => exact .inl (congrArg Outer.stops (outer_submit o _ _))
  | idleCheck top => exact .inl (congrArg Outer.stops (outer_idleCheck _ _))
  | flush top =>
    rcases flush_cases o s with ⟨_, same⟩ | ⟨_, _, same⟩
    · exact .inl (same ▸ congrArg Outer.stops (outer_drain o true s))
    · exact .inl (same ▸ rfl)
  | shutdown top =>
    rcases beginShutdown_cases o s with ⟨_, same⟩ | ⟨_, _, _, same⟩ | ⟨_, _, same⟩
    · exact .inl (by rw [same])
    · exact .inl (same ▸ rfl)
    · exact .inr (.inl ⟨_, same ▸ congrArg Outer.stops (outer_drain o false (stopping_ s))⟩)
  | lingerFires top armed => exact .inl (congrArg Outer.stops (outer_startRun o _))
  | runResumes top paused => exact .inl (congrArg Outer.stops (outer_resumeRun o s))
  | stopAborts top found => exact .inr (.inr ⟨_, _, _, top, found, by simp, rfl, by simp⟩)
  | stopContinues top found past =>
    refine .inr (.inr ⟨_, _, _, top, found, ?_, rfl, fun _ => ?_⟩)
    · rcases past with rfl | rfl <;> simp
    · rcases past with rfl | rfl <;> rfl
  | _ => exact .inl rfl

/-- A stop finishes with control in the event loop, some time after its abort. -/
theorem stopped_new [AudrRecord R] {act : Act R} (halting : s.Halting) (move : Move o s act t)
    (stopped : .stopped ∈ t.stops) : .stopped ∈ s.stops ∨ (s.aborted = true ∧ s.todo = []) := by
  rcases stops_move move with same | ⟨drain, same⟩ | ⟨stop, at_, next, top, found, _, same, past⟩ <;>
    rw [same] at stopped
  · exact .inl stopped
  · rcases List.mem_append.mp stopped with old | new
    · exact .inl old
    · cases List.mem_singleton.mp new
  · rcases List.mem_or_eq_of_mem_set stopped with old | new
    · exact .inl old
    · exact .inr ⟨halting.past _ (List.mem_of_getElem? found) (past new.symm), top⟩

theorem stopped_stays [AudrRecord R] {act : Act R} (move : Move o s act t)
    (stopped : .stopped ∈ s.stops) : .stopped ∈ t.stops := by
  rcases stops_move move with same | ⟨drain, same⟩ | ⟨stop, at_, next, _, found, going, same, _⟩ <;>
    rw [same]
  · exact stopped
  · exact List.mem_append_left _ stopped
  · obtain ⟨other, entry⟩ := List.mem_iff_getElem?.mp stopped
    have differs : stop ≠ other := by
      rintro rfl
      exact going (Option.some.inj (found.symm.trans entry))
    exact List.mem_iff_getElem?.mpr ⟨other, by rw [List.getElem?_set_ne differs, entry]⟩

theorem Sound.move [AudrRecord R] {act : Act R} (sound : s.Sound) (move : Move o s act t) : t.Sound := by
  have control := sound.control.move sound.fresh move
  have halting := sound.halting.move move
  have all : ∃ new, State.Books new s t ∧ (s.aborted = true → new = 0) := by
    rcases move.books sound.control with ⟨record, rest, top, books⟩ | books
    · exact ⟨1, books, fun aborted => absurd top (sound.not_submitting aborted)⟩
    · exact ⟨0, books, fun _ => rfl⟩
  obtain ⟨new, books, quiet⟩ := all
  refine ⟨control, halting, Accounts.balanced_steps books.steps sound.balanced,
    books.counted sound.counted, books.labelled sound.labelled, fun stopped => ?_⟩
  by_cases before : .stopped ∈ s.stops
  · have aborted := sound.halting.past _ before rfl
    exact held_zero books (quiet aborted) sound.balanced (sound.ended before)
  · have aborted := (stopped_new sound.halting move stopped).resolve_left before
    exact held_zero books (quiet aborted.1) sound.balanced (sound.spent aborted.1 aborted.2)

end State

/-- The states a client can be in, with the labels of the steps that lead there. -/
abbrev Reaches [AudrRecord R] (o : Options) (labels : List (Act R)) (s : State R) : Prop :=
  Run (step o) anyStep (initial R) labels s

variable [AudrRecord R] {o : Options} {labels more : List (Act R)} {s t : State R}

theorem sound_run (run : Reaches o labels s) : s.Sound :=
  run.invariant State.Sound State.sound_initial fun _ _ _ sound _ taken => sound.move (State.step_moves taken)

/-- Along any later run the ledger takes steps, and a finished stop stays finished. -/
theorem sound_later (sound : s.Sound) (run : Run (step o) anyStep s more t) :
    t.Sound ∧ Accounts.Steps s.ledger t.ledger ∧ (.stopped ∈ s.stops → .stopped ∈ t.stops) := by
  refine run.invariant (fun t => t.Sound ∧ Accounts.Steps s.ledger t.ledger ∧
    (.stopped ∈ s.stops → .stopped ∈ t.stops)) ⟨sound, .refl, id⟩ ?_
  rintro before label after ⟨sound, steps, stops⟩ _ taken
  have move := State.step_moves taken
  refine ⟨sound.move move, steps.trans ?_, fun stopped => State.stopped_stays move (stops stopped)⟩
  rcases move.books sound.control with ⟨_, _, _, books⟩ | books
  · exact books.steps
  · exact books.steps

omit [AudrRecord R] in
/-- With the stack empty, only the queue and the items in flight are outstanding. -/
theorem State.Sound.total (sound : s.Sound) (top : s.todo = []) :
    s.submitted = s.sent + s.dropped + s.unknown + s.queue.length +
      (s.inFlight.filter InFlight.live).length := by
  have sizes : s.submitted = s.held.card + s.settled.length := sound.balanced.card_eq
  have outstanding : s.held.card = s.queue.length + (s.inFlight.filter InFlight.live).length := by
    simp [State.held, State.queueRefs, liveRefs, itemRefs, top]
  have counted := sound.counted.total
  omega

omit [AudrRecord R] in
/-- After a stop has finished everything submitted is counted. -/
theorem State.Sound.all_counted (sound : s.Sound) (stopped : .stopped ∈ s.stops) :
    s.queue = [] ∧ s.submitted = s.sent + s.dropped + s.unknown := by
  have empty := sound.ended stopped
  have sizes : s.submitted = s.held.card + s.settled.length := sound.balanced.card_eq
  have counted := sound.counted.total
  rw [empty, Multiset.card_zero] at sizes
  refine ⟨?_, by omega⟩
  refine List.eq_nil_iff_forall_not_mem.mpr fun q queued => ?_
  have ref : q.ref ∈ s.queueRefs := List.mem_map_of_mem queued
  have member : q.ref ∈ s.held := Multiset.mem_add.mpr (.inl (Multiset.mem_add.mpr (.inl ref)))
  rw [empty] at member
  exact Multiset.notMem_zero _ member

/-- Conservation at every state of every run: what was submitted is counted, queued or
in flight; a record ends once and keeps its mark; a finished stop leaves nothing. -/
theorem conservation (run : Reaches o labels s) :
    (s.todo = [] → s.submitted = s.sent + s.dropped + s.unknown + s.queue.length +
      (s.inFlight.filter InFlight.live).length) ∧
    (s.sent = s.endedAs .sent ∧ s.dropped = s.endedAs .dropped ∧ s.unknown = s.endedAs .unknown) ∧
    (s.settled.map Prod.fst).Nodup ∧
    (∀ ref ∈ s.settled.map Prod.fst, ref ∉ s.queueRefs ∧ ref ∉ liveRefs s.inFlight) ∧
    (∀ item ∈ s.inFlight, ∀ terminal, item.state = some terminal → (item.ref, terminal) ∈ s.settled) ∧
    ∀ more t, Run (step o) anyStep s more t →
      s.settled <+: t.settled ∧
      (.stopped ∈ s.stops → t.queue = [] ∧ t.submitted = t.sent + t.dropped + t.unknown) := by
  have sound := sound_run run
  refine ⟨sound.total, ⟨sound.counted.sent, sound.counted.dropped, sound.counted.unknown⟩,
    sound.balanced.closed_nodup, fun ref ended => ?_, sound.labelled, fun more t run => ?_⟩
  · have absent := sound.balanced.not_held ended
    exact ⟨fun queued => absent (Multiset.mem_add.mpr (.inl (Multiset.mem_add.mpr (.inl queued)))),
      fun live => absent (Multiset.mem_add.mpr (.inl (Multiset.mem_add.mpr (.inr live))))⟩
  · obtain ⟨after, steps, stops⟩ := sound_later sound run
    exact ⟨Accounts.closed_prefix steps, fun stopped => after.all_counted (stops stopped)⟩

/-- A client with room for two records, which it delivers one by one. -/
def smallOptions : Options := ⟨2, 1, true, true, true, by decide, by decide, by decide⟩

/-- A shutdown gives up on a delivery, and the sink answers after it has finished. -/
def abandonedLabels : List (Act String) :=
  [.task, .record "a" .valid, .leave .returns, .next, .leave .returnsPromise, .next, .shutdown,
    .next, .next, .next, .leave .returns, .drainSettles 0 false, .stopResumes 0 false, .leave .returns,
    .next, .next, .next, .leave .throws, .leave .returns, .next, .next, .leave .returns,
    .stopResumes 0 true, .leave .returns, .leave .returns, .stopResumes 0 false,
    .sinkSettles (.result (.accepted [] [])), .next, .next]

def abandoned : State String :=
  (Transition.execute (step smallOptions) (initial String) abandonedLabels).getD (initial String)

theorem conservation_abandoned :
    .stopped ∈ abandoned.stops ∧ abandoned.unknown = 1 ∧
      ∀ more t, Run (step smallOptions) anyStep abandoned more t →
        abandoned.settled <+: t.settled ∧ t.submitted = t.sent + t.dropped + t.unknown := by
  have run : Reaches smallOptions abandonedLabels abandoned := Run.of_execute rfl
  have stopped : .stopped ∈ abandoned.stops := by decide
  refine ⟨stopped, rfl, fun more t run_on => ?_⟩
  obtain ⟨_, _, _, _, _, after⟩ := conservation run
  exact ⟨(after more t run_on).1, ((after more t run_on).2 stopped).2⟩

end Audr.Pipeline
