import Audr.Bridge.Machine

/-! What a bridge promises while its loop stays open. A place is held from the first lock of
`submit` to the last one of the callback; the waiter of a drain is resolved by the release
that brings the count to zero. -/

namespace Audr.Bridge

open Transition (Run)

variable {R O : Type} {s t : EventLoopBridge R O} {act : Act R O}

namespace EventLoopBridge

/-- What one step does to a bridge whose loop is open. -/
inductive Moved (s : EventLoopBridge R O) : Act R O → EventLoopBridge R O → Prop where
  | full {record} (full : (s.maxPending : Int) ≤ s.pending) :
      Moved s (.submit record)
        { s with submits := s.submits + 1, answers := s.answers ++ [(⟨s.submits, record⟩, .droppedHandoffFull)] }
  | entered {record} (room : s.pending < s.maxPending) :
      Moved s (.submit record)
        { s with
          submits := s.submits + 1
          pending := s.pending + 1
          accepted := s.accepted ++ [⟨s.submits, record⟩]
          submitting := s.submitting ++ [⟨s.submits, record⟩] }
  | scheduled {position handoff} (submitting : s.submitting[position]? = some handoff) :
      Moved s (.schedule position)
        { s with
          submitting := s.submitting.eraseIdx position
          ready := s.ready ++ [handoff]
          scheduled := s.scheduled ++ [handoff]
          answers := s.answers ++ [(handoff, .scheduled)] }
  | taken {handoff rest} (idle : s.loop = .idle) (ready : s.ready = handoff :: rest) :
      Moved s .take { s with loop := .calling handoff, ready := rest, called := s.called ++ [handoff] }
  | answered {handoff reply} (calling : s.loop = .calling handoff) :
      Moved s (.answer reply) { s with loop := .reporting handoff, results := s.results ++ reply.reported }
  | released {handoff} (reporting : s.loop = .reporting handoff) (quiet : s.pending ≠ 1 ∨ s.drained = none) :
      Moved s .release
        { s with pending := s.pending - 1, finished := s.finished ++ [handoff], loop := .idle }
  | drained {handoff waiter} (reporting : s.loop = .reporting handoff) (last : s.pending = 1)
      (waits : s.drained = some waiter) :
      Moved s .release
        { s with
          pending := 0
          finished := s.finished ++ [handoff]
          drained := none
          loop := .waking waiter }
  | woke {waiter} (waking : s.loop = .waking waiter) :
      Moved s .wake { s with loop := .idle, waiters := s.waiters.set waiter true }
  | misplaced : Moved s (.drain false) { s with drains := s.drains ++ [⟨s.accepted, none, .misplaced⟩] }
  | empty (none_ : s.pending = 0) :
      Moved s (.drain true) { s with drains := s.drains ++ [⟨s.accepted, none, .returned⟩] }
  | joins {waiter} (some_ : s.pending ≠ 0) (current : s.drained = some waiter) :
      Moved s (.drain true) { s with drains := s.drains ++ [⟨s.accepted, some waiter, .awaiting⟩] }
  | waits (some_ : s.pending ≠ 0) (alone : s.shared = none) :
      Moved s (.drain true)
        { s with
          waiters := s.waiters ++ [false]
          drained := some s.waiters.length
          drains := s.drains ++ [⟨s.accepted, some s.waiters.length, .awaiting⟩] }
  | settled {index before waiter} (awaiting : s.drains[index]? = some ⟨before, some waiter, .awaiting⟩)
      (done : s.waiters[waiter]? = some true) :
      Moved s (.settle index) { s with drains := s.drains.set index ⟨before, some waiter, .returned⟩ }
  | abandoned {index before waiter timedOut ending} (awaiting : s.drains[index]? = some ⟨before, waiter, .awaiting⟩)
      (gone : ending ≠ .returned) :
      Moved s (.abandon index timedOut) { s with drains := s.drains.set index ⟨before, waiter, ending⟩ }

theorem shared_eq_some {waiter : Nat} (shared : s.shared = some waiter) : s.drained = some waiter :=
  (Option.filter_eq_some_iff.mp shared).1

theorem step_moved (loopOpen : s.loopOpen = true) (permitted : s.staysOpen act) (taken : step s act = some t) :
    Moved s act t := by
  cases act with
  | submit record =>
    cases taken
    unfold enter
    split_ifs with full
    · exact Moved.full full
    · exact Moved.entered (by omega)
  | schedule position =>
    obtain ⟨handoff, submitting, rfl⟩ := Option.map_eq_some_iff.mp taken
    rw [callSoon, if_pos loopOpen]
    exact Moved.scheduled submitting
  | take =>
    simp only [step] at taken
    split at taken
    next handoff rest idle ready =>
      cases taken
      exact Moved.taken idle ready
    · cases taken
  | answer reply =>
    simp only [step] at taken
    split at taken
    next handoff calling =>
      cases taken
      exact Moved.answered calling
    · cases taken
  | release =>
    simp only [step] at taken
    split at taken
    next handoff reporting =>
      cases taken
      unfold releasePending
      by_cases last : s.pending = 1
      · cases waits : s.drained with
        | none =>
          simpa [last, waits] using Moved.released reporting (Or.inr waits)
        | some waiter => simpa [last, waits] using Moved.drained reporting last waits
      · have more : ¬s.pending - 1 = 0 := by omega
        simpa [more] using Moved.released reporting (Or.inl last)
    · cases taken
  | wake =>
    simp only [step] at taken
    split at taken
    next waiter waking =>
      cases taken
      exact Moved.woke waking
    · cases taken
  | drain onLoop =>
    cases taken
    unfold drainCall
    cases onLoop with
    | false => exact Moved.misplaced
    | true =>
      by_cases none_ : s.pending = 0
      · simpa [none_] using Moved.empty none_
      · cases alone : s.shared with
        | none => simpa [none_, alone] using Moved.waits none_ alone
        | some waiter => simpa [none_, alone] using Moved.joins none_ (shared_eq_some alone)
  | settle index =>
    simp only [step] at taken
    split at taken
    next before waiter awaiting =>
      split_ifs at taken with done
      cases taken
      exact Moved.settled awaiting done
    · cases taken
  | abandon index timedOut =>
    simp only [step] at taken
    split at taken
    next before waiter awaiting =>
      cases taken
      exact Moved.abandoned awaiting (by cases timedOut <;> simp)
    · cases taken
  | close => exact permitted.elim

/-! Where every handoff is. -/

/-- A handoff holds a place while it is submitted, ready or in its callback, and the three
make up the count; the callbacks run in the order in which they were scheduled. -/
structure Placed (s : EventLoopBridge R O) : Prop where
  isOpen : s.loopOpen = true
  order : s.called ++ s.ready = s.scheduled
  released : s.finished ++ s.loop.holding = s.called
  count : s.pending = s.submitting.length + s.loop.holding.length + s.ready.length
  bounded : s.pending ≤ s.maxPending
  accepted : s.accepted.Perm (s.scheduled ++ s.submitting)

theorem create_placed (maxPending : Nat) : (create maxPending : EventLoopBridge R O).Placed :=
  ⟨rfl, rfl, rfl, rfl, Int.natCast_nonneg _, List.Perm.refl _⟩

theorem Moved.placed (placed : s.Placed) (moved : s.Moved act t) : t.Placed := by
  obtain ⟨isOpen, order, released, count, bounded, accepted⟩ := placed
  cases moved with
  | entered room =>
    refine ⟨isOpen, order, released, ?_, ?_, ?_⟩
    · simp only [List.length_append, List.length_singleton]
      omega
    · simp only
      omega
    · rw [← List.append_assoc]
      exact accepted.append_right _
  | @scheduled position handoff submitting =>
    have inside : position < s.submitting.length := (List.getElem?_eq_some_iff.mp submitting).1
    refine ⟨isOpen, ?_, released, ?_, bounded, ?_⟩
    · simp only
      rw [← List.append_assoc, order]
    · simp only [List.length_eraseIdx_of_lt inside, List.length_append, List.length_singleton]
      omega
    · have found : s.submitting[position] = handoff := (List.getElem?_eq_some_iff.mp submitting).2
      have moves : s.submitting.Perm (handoff :: s.submitting.eraseIdx position) := by
        rw [← found]
        exact (List.getElem_cons_eraseIdx_perm inside).symm
      calc s.accepted.Perm (s.scheduled ++ s.submitting) := accepted
        List.Perm _ (s.scheduled ++ (handoff :: s.submitting.eraseIdx position)) := moves.append_left _
        _ = s.scheduled ++ [handoff] ++ s.submitting.eraseIdx position := by simp
  | taken idle ready =>
    rw [idle] at released count
    rw [ready] at order count
    simp only [LoopAt.holding, List.append_nil, List.length_nil, List.length_cons] at released count
    refine ⟨isOpen, by simpa using order, by simp [LoopAt.holding, released], ?_, bounded, accepted⟩
    simp only [LoopAt.holding, List.length_singleton]
    omega
  | answered calling =>
    rw [calling] at released count
    exact ⟨isOpen, order, released, count, bounded, accepted⟩
  | released reporting =>
    rw [reporting] at released count
    simp only [LoopAt.holding, List.length_singleton] at released count
    refine ⟨isOpen, order, by simpa [LoopAt.holding] using released, ?_, ?_, accepted⟩
    · simp only [LoopAt.holding, List.length_nil]
      omega
    · simp only
      omega
  | drained reporting last =>
    rw [reporting] at released count
    simp only [LoopAt.holding, List.length_singleton] at released count
    refine ⟨isOpen, order, by simpa [LoopAt.holding] using released, ?_, Int.natCast_nonneg _, accepted⟩
    simp only [LoopAt.holding, List.length_nil]
    omega
  | woke waking =>
    rw [waking] at released count
    exact ⟨isOpen, order, released, count, bounded, accepted⟩
  | _ => exact ⟨isOpen, order, released, count, bounded, accepted⟩

/-- Once nothing is pending, everything accepted has been through the client. -/
theorem Placed.all_finished (placed : s.Placed) (none_ : s.pending = s.loop.holding.length)
    (handoff : Handoff R) (accepted : handoff ∈ s.accepted) : handoff ∈ s.finished ++ s.loop.holding := by
  have count := placed.count
  have submitting : s.submitting = [] := List.eq_nil_of_length_eq_zero (by omega)
  have ready : s.ready = [] := List.eq_nil_of_length_eq_zero (by omega)
  have known := placed.accepted.mem_iff.mp accepted
  rw [submitting, List.append_nil, ← placed.order, ready, List.append_nil, ← placed.released] at known
  exact known

/-! Which answer a handoff got. -/

/-- Calls are numbered; one that was answered was scheduled or never accepted. -/
structure Answered (s : EventLoopBridge R O) : Prop where
  distinct : s.accepted.Nodup
  numbered : ∀ handoff ∈ s.accepted, handoff.call < s.submits
  known : ∀ answer ∈ s.answers, answer.1.call < s.submits
  scheduled : ∀ handoff, (handoff, HandoffOutcome.scheduled) ∈ s.answers ↔ handoff ∈ s.scheduled
  refused : ∀ handoff outcome, (handoff, outcome) ∈ s.answers → outcome ≠ .scheduled → handoff ∉ s.accepted

theorem create_answered (maxPending : Nat) : (create maxPending : EventLoopBridge R O).Answered :=
  ⟨List.nodup_nil, by simp [create], by simp [create], by simp [create], by simp [create]⟩

theorem Moved.answers (placed : s.Placed) (answered : s.Answered) (moved : s.Moved act t) : t.Answered := by
  obtain ⟨distinct, numbered, known, scheduled, refused⟩ := answered
  cases moved with
  | @full record full =>
    have fresh : (⟨s.submits, record⟩ : Handoff R) ∉ s.accepted := fun before =>
      absurd (numbered _ before) (lt_irrefl _)
    refine ⟨distinct, ?_, ?_, ?_, ?_⟩
    · intro handoff before
      exact Nat.lt_succ_of_lt (numbered handoff before)
    · intro answer given
      obtain before | rfl := List.mem_append.mp given |>.imp_right List.mem_singleton.mp
      · exact Nat.lt_succ_of_lt (known answer before)
      · exact Nat.lt_succ_self _
    · intro handoff
      simpa using scheduled handoff
    · intro handoff outcome given other_
      obtain before | new := List.mem_append.mp given
      · exact refused handoff outcome before other_
      · cases List.mem_singleton.mp new
        exact fresh
  | @entered record room =>
    have fresh : (⟨s.submits, record⟩ : Handoff R) ∉ s.accepted := fun before =>
      absurd (numbered _ before) (lt_irrefl _)
    refine ⟨?_, ?_, ?_, scheduled, ?_⟩
    · exact List.nodup_append'.mpr ⟨distinct, List.nodup_singleton _, by simpa using fresh⟩
    · intro handoff given
      obtain before | rfl := List.mem_append.mp given |>.imp_right List.mem_singleton.mp
      · exact Nat.lt_succ_of_lt (numbered handoff before)
      · exact Nat.lt_succ_self _
    · intro answer before
      exact Nat.lt_succ_of_lt (known answer before)
    · intro handoff outcome given other_ inside
      obtain before | rfl := List.mem_append.mp inside |>.imp_right List.mem_singleton.mp
      · exact refused handoff outcome given other_ before
      · exact absurd (known _ given) (lt_irrefl _)
  | @scheduled position handoff submitting =>
    refine ⟨distinct, numbered, ?_, ?_, ?_⟩
    · intro answer given
      obtain before | rfl := List.mem_append.mp given |>.imp_right List.mem_singleton.mp
      · exact known answer before
      · apply numbered handoff
        exact placed.accepted.mem_iff.mpr (List.mem_append_right _ (List.mem_of_getElem? submitting))
    · intro handoff
      simp [scheduled]
    · intro handoff outcome given other_
      obtain before | new := List.mem_append.mp given
      · exact refused handoff outcome before other_
      · cases List.mem_singleton.mp new
        exact absurd rfl other_
  | _ => exact ⟨distinct, numbered, known, scheduled, refused⟩

/-! Who waits for what. -/

/-- A future that is not done is the one a drain may share, while the count is above zero, or
the one the loop is about to resolve. A drain whose future is neither shared any more has
seen everything accepted before it go through the client. -/
structure Awaited (s : EventLoopBridge R O) : Prop where
  current : ∀ waiter, s.drained = some waiter → s.waiters[waiter]? = some false ∧ s.pending ≠ 0
  unresolved : ∀ waiter, s.waiters[waiter]? = some false → s.drained = some waiter ∨ s.loop = .waking waiter
  waking : ∀ waiter, s.loop = .waking waiter → waiter < s.waiters.length ∧ s.drained ≠ some waiter
  earlier : ∀ drain ∈ s.drains, drain.before ⊆ s.accepted
  made : ∀ drain ∈ s.drains, ∀ waiter, drain.waiter = some waiter → waiter < s.waiters.length
  past : ∀ drain ∈ s.drains, ∀ waiter, drain.waiter = some waiter → s.drained ≠ some waiter →
    drain.before ⊆ s.finished
  returned : ∀ drain ∈ s.drains, drain.ending = .returned → drain.before ⊆ s.finished

theorem create_awaited (maxPending : Nat) : (create maxPending : EventLoopBridge R O).Awaited := by
  constructor <;> simp [create]

/-- The drains of a state, of which one may be new. -/
theorem forall_mem_append {α : Type} {items : List α} {item : α} {P : α → Prop} (olds : ∀ x ∈ items, P x)
    (new : P item) : ∀ x ∈ items ++ [item], P x := by
  intro x inside
  obtain before | rfl := List.mem_append.mp inside |>.imp_right List.mem_singleton.mp
  · exact olds x before
  · exact new

theorem forall_mem_set {α : Type} {items : List α} {index : Nat} {item : α} {P : α → Prop}
    (olds : ∀ x ∈ items, P x) (new : P item) : ∀ x ∈ items.set index item, P x := by
  intro x inside
  obtain before | rfl := List.mem_or_eq_of_mem_set inside
  · exact olds x before
  · exact new

theorem Placed.finished_of_empty (placed : s.Placed) (none_ : s.pending = 0) : s.accepted ⊆ s.finished := by
  intro handoff accepted
  have count := placed.count
  have holding : s.loop.holding = [] := List.eq_nil_of_length_eq_zero (by omega)
  have through := placed.all_finished (by omega) handoff accepted
  rwa [holding, List.append_nil] at through

theorem Moved.awaited (placed : s.Placed) (awaited : s.Awaited) (moved : s.Moved act t) : t.Awaited := by
  have after := moved.placed placed
  obtain ⟨current, unresolved, waking, earlier, made, past, returned⟩ := awaited
  cases moved with
  | full => exact ⟨current, unresolved, waking, earlier, made, past, returned⟩
  | entered room =>
    refine ⟨?_, unresolved, waking, ?_, made, past, returned⟩
    · intro waiter shared
      have count := placed.count
      exact ⟨(current waiter shared).1, by simp only; omega⟩
    · intro drain inside
      exact List.Subset.trans (earlier drain inside) (List.subset_append_left _ _)
  | scheduled => exact ⟨current, unresolved, waking, earlier, made, past, returned⟩
  | taken idle =>
    refine ⟨current, ?_, by simp, earlier, made, past, returned⟩
    intro waiter open_
    have shared := unresolved waiter open_
    rw [idle] at shared
    exact Or.inl (shared.resolve_right (by simp))
  | answered calling =>
    refine ⟨current, ?_, by simp, earlier, made, past, returned⟩
    intro waiter open_
    have shared := unresolved waiter open_
    rw [calling] at shared
    exact Or.inl (shared.resolve_right (by simp))
  | released reporting quiet =>
    refine ⟨?_, ?_, by simp, earlier, made, ?_, ?_⟩
    · intro waiter shared
      have more : s.pending ≠ 1 := quiet.resolve_right (by simp only at shared; simp [shared])
      exact ⟨(current waiter shared).1, by simp only; omega⟩
    · intro waiter open_
      have shared := unresolved waiter open_
      rw [reporting] at shared
      exact Or.inl (shared.resolve_right (by simp))
    · intro drain inside waiter awaits elsewhere
      exact List.Subset.trans (past drain inside waiter awaits elsewhere) (List.subset_append_left _ _)
    · intro drain inside ended
      exact List.Subset.trans (returned drain inside ended) (List.subset_append_left _ _)
  | @drained handoff waiter reporting last waits =>
    refine ⟨by simp, ?_, ?_, earlier, made, ?_, ?_⟩
    · intro other_ open_
      have shared := unresolved other_ open_
      rw [reporting, waits] at shared
      simp only [reduceCtorEq, or_false, Option.some.injEq] at shared
      exact Or.inr (by rw [shared])
    · intro other_ same
      cases same
      exact ⟨(List.getElem?_eq_some_iff.mp (current waiter waits).1).1, by simp⟩
    · intro drain inside _ _ _
      exact List.Subset.trans (earlier drain inside) (after.finished_of_empty rfl)
    · intro drain inside ended
      exact List.Subset.trans (returned drain inside ended) (List.subset_append_left _ _)
  | @woke waiter resolving =>
    obtain ⟨inside_, shared⟩ := waking waiter resolving
    refine ⟨?_, ?_, by simp, earlier, ?_, past, returned⟩
    · intro other_ same
      have different : waiter ≠ other_ := fun equal => shared (equal ▸ same)
      simpa only [List.getElem?_set_ne different] using current other_ same
    · intro other_ open_
      have different : waiter ≠ other_ := by
        rintro rfl
        simp [List.getElem?_set_self inside_] at open_
      simp only [List.getElem?_set_ne different] at open_
      have before := unresolved other_ open_
      rw [resolving] at before
      exact Or.inl (before.resolve_right (by simpa using different))
    · intro drain inside other_ awaits
      rw [List.length_set]
      exact made drain inside other_ awaits
  | misplaced =>
    exact ⟨current, unresolved, waking, forall_mem_append earlier (List.Subset.refl _), forall_mem_append made (by simp),
      forall_mem_append past (by simp), forall_mem_append returned (by simp)⟩
  | empty none_ =>
    have through := placed.finished_of_empty none_
    exact ⟨current, unresolved, waking, forall_mem_append earlier (List.Subset.refl _), forall_mem_append made (by simp),
      forall_mem_append past (by simp), forall_mem_append returned (fun _ => through)⟩
  | @joins waiter some_ shared =>
    have inside : waiter < s.waiters.length := (List.getElem?_eq_some_iff.mp (current waiter shared).1).1
    exact ⟨current, unresolved, waking, forall_mem_append earlier (List.Subset.refl _),
      forall_mem_append made (by simpa using inside), forall_mem_append past (by simp [shared]),
      forall_mem_append returned (by simp)⟩
  | waits some_ alone =>
    have none_ : s.drained = none := by
      cases shared : s.drained with
      | none => rfl
      | some waiter => simp [EventLoopBridge.shared, shared, (current waiter shared).1] at alone
    refine ⟨?_, ?_, ?_, forall_mem_append earlier (List.Subset.refl _), ?_, ?_, ?_⟩
    · rintro waiter ⟨⟩
      exact ⟨List.getElem?_concat_length, some_⟩
    · intro waiter open_
      by_cases new : waiter = s.waiters.length
      · exact Or.inl (by rw [new])
      · have inside := (List.getElem?_eq_some_iff.mp open_).1
        rw [List.length_append, List.length_singleton] at inside
        rw [List.getElem?_append_left (by omega)] at open_
        have before := unresolved waiter open_
        rw [none_] at before
        exact Or.inr (before.resolve_left (by simp))
    · intro waiter resolving
      have inside := (waking waiter resolving).1
      refine ⟨by simp only [List.length_append, List.length_singleton]; omega, ?_⟩
      rintro ⟨⟩
      omega
    · refine forall_mem_append ?_ (by simp)
      intro drain inside waiter awaits
      have before := made drain inside waiter awaits
      simp only [List.length_append, List.length_singleton]
      omega
    · refine forall_mem_append ?_ (by simp)
      intro drain inside waiter awaits _
      exact past drain inside waiter awaits (by simp [none_])
    · exact forall_mem_append returned (by simp)
  | @settled index before waiter awaiting done =>
    have inside : ⟨before, some waiter, .awaiting⟩ ∈ s.drains := List.mem_of_getElem? awaiting
    have elsewhere : s.drained ≠ some waiter := by
      intro shared
      rw [(current waiter shared).1] at done
      cases done
    have known := earlier _ inside
    have through := past _ inside waiter rfl elsewhere
    exact ⟨current, unresolved, waking, forall_mem_set earlier known, forall_mem_set made fun waiter => made _ inside waiter,
      forall_mem_set past fun _ _ _ => through, forall_mem_set returned fun _ => through⟩
  | @abandoned index before waiter timedOut ending awaiting gone =>
    have inside : ⟨before, waiter, .awaiting⟩ ∈ s.drains := List.mem_of_getElem? awaiting
    have known := earlier _ inside
    exact ⟨current, unresolved, waking, forall_mem_set earlier known, forall_mem_set made fun waiter => made _ inside waiter,
      forall_mem_set past fun waiter => past _ inside waiter, forall_mem_set returned fun ended => absurd ended gone⟩

end EventLoopBridge

end Audr.Bridge
