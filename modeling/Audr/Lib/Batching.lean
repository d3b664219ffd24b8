import Mathlib.Data.List.Nodup
import Mathlib.Logic.Relation

/-! A queue that numbers what it is offered, and hands what it accepted to a consumer
in batches, one call at a time. This is the discipline a micro-batching pipeline owes
its consumer, with no word about when a batch goes out. A queue that is closed may
discard what is left, or leave gaps in it and go on. -/

namespace Audr.Batching

/-- Numbers offered so far, those waiting, and the calls of the consumer. -/
structure Traffic where
  offered : Nat
  accepted : List Nat
  waiting : List Nat
  handed : List (List Nat)
  answered : Nat
  calling : Bool
  closed : Bool

namespace Traffic

def refuse (q : Traffic) : Traffic := { q with offered := q.offered + 1 }

def accept (q : Traffic) : Traffic :=
  { q with
    offered := q.offered + 1
    accepted := q.accepted ++ [q.offered]
    waiting := q.waiting ++ [q.offered] }

def hand (size : Nat) (q : Traffic) : Traffic :=
  { q with
    waiting := q.waiting.drop size
    handed := q.handed ++ [q.waiting.take size]
    calling := true }

def answer (q : Traffic) : Traffic := { q with answered := q.answered + 1, calling := false }

def close (q : Traffic) : Traffic := { q with closed := true }

def discard (q : Traffic) : Traffic := { q with waiting := [] }

def keep (kept : List Nat) (q : Traffic) : Traffic := { q with waiting := kept }

end Traffic

/-- What may happen, for batches of at most `limit`; `gaps` allows a closed queue to go on
without some of the numbers it held. -/
inductive Step (limit : Nat) (gaps : Bool) (q : Traffic) : Traffic → Prop where
  | refuse : Step limit gaps q q.refuse
  | accept (opened : q.closed = false) : Step limit gaps q q.accept
  | hand (size : Nat) (fits : size ≤ limit) (some : q.waiting.take size ≠ [])
      (idle : q.calling = false) : Step limit gaps q (q.hand size)
  | answer (busy : q.calling = true) : Step limit gaps q q.answer
  | close : Step limit gaps q q.close
  | discard (closed : q.closed = true) : Step limit gaps q q.discard
  | keep (kept : List Nat) (allowed : gaps = true) (closed : q.closed = true)
      (fewer : kept.Sublist q.waiting) : Step limit gaps q (q.keep kept)

abbrev Steps (limit : Nat) (gaps : Bool) : Traffic → Traffic → Prop :=
  Relation.ReflTransGen (Step limit gaps)

/-- The discipline, as an invariant. -/
structure Disciplined (limit : Nat) (gaps : Bool) (q : Traffic) : Prop where
  sizes : ∀ batch ∈ q.handed, batch ≠ [] ∧ batch.length ≤ limit
  order : (q.handed.flatten ++ q.waiting).Sublist q.accepted
  whole : q.closed = false → q.handed.flatten ++ q.waiting = q.accepted
  first : gaps = false → q.handed.flatten ++ q.waiting <+: q.accepted
  rising : q.accepted.Pairwise (· < ·)
  known : ∀ number ∈ q.accepted, number < q.offered
  flight : q.handed.length = q.answered + (if q.calling then 1 else 0)

variable {limit : Nat} {gaps : Bool} {q r : Traffic}

theorem Disciplined.hand (disciplined : Disciplined limit gaps q) {size : Nat} (fits : size ≤ limit)
    (some : q.waiting.take size ≠ []) (idle : q.calling = false) :
    Disciplined limit gaps (q.hand size) := by
  have moved : (q.hand size).handed.flatten ++ (q.hand size).waiting = q.handed.flatten ++ q.waiting := by
    simp only [Traffic.hand, List.flatten_append, List.flatten_singleton, List.append_assoc,
      List.take_append_drop]
  refine ⟨fun batch member => ?_, moved ▸ disciplined.order, moved ▸ disciplined.whole,
    moved ▸ disciplined.first, disciplined.rising, disciplined.known, ?_⟩
  · rcases List.mem_append.mp member with old | new
    · exact disciplined.sizes batch old
    · rw [List.mem_singleton.mp new]
      exact ⟨some, Nat.le_trans (List.length_take_le _ _) fits⟩
  · have before := disciplined.flight
    simp only [idle, Bool.false_eq_true, if_false, Nat.add_zero] at before
    simp [Traffic.hand, before]

theorem Disciplined.accept (disciplined : Disciplined limit gaps q) (opened : q.closed = false) :
    Disciplined limit gaps q.accept := by
  have whole : q.accept.handed.flatten ++ q.accept.waiting = q.accept.accepted := by
    simp only [Traffic.accept, ← List.append_assoc, disciplined.whole opened]
  refine ⟨disciplined.sizes, whole ▸ List.Sublist.refl _, fun _ => whole, fun _ => whole ▸ List.prefix_refl _,
    ?_, fun number member => ?_, disciplined.flight⟩
  · refine List.pairwise_append.mpr ⟨disciplined.rising, List.pairwise_singleton _ _, ?_⟩
    intro earlier member number new
    rw [List.mem_singleton.mp new]
    exact disciplined.known earlier member
  · rcases List.mem_append.mp member with old | new
    · exact Nat.lt_trans (disciplined.known number old) (Nat.lt_succ_self _)
    · rw [List.mem_singleton.mp new]
      exact Nat.lt_succ_self _

/-- A closed queue that loses numbers keeps the order of the others. -/
theorem Disciplined.lose (disciplined : Disciplined limit gaps q) {kept : List Nat} (closed : q.closed = true)
    (fewer : kept.Sublist q.waiting) (first : gaps = false → kept <+: q.waiting) :
    Disciplined limit gaps (q.keep kept) := by
  refine ⟨disciplined.sizes, (fewer.append_left _).trans disciplined.order, fun opened => ?_, fun none => ?_,
    disciplined.rising, disciplined.known, disciplined.flight⟩
  · rw [show q.closed = false from opened] at closed
    cases closed
  · exact ((List.prefix_append_right_inj _).mpr (first none)).trans (disciplined.first none)

theorem disciplined_step (step : Step limit gaps q r) (disciplined : Disciplined limit gaps q) :
    Disciplined limit gaps r := by
  cases step with
  | refuse =>
    exact ⟨disciplined.sizes, disciplined.order, disciplined.whole, disciplined.first, disciplined.rising,
      fun number member => Nat.lt_trans (disciplined.known number member) (Nat.lt_succ_self _),
      disciplined.flight⟩
  | accept opened => exact disciplined.accept opened
  | hand size fits some idle => exact disciplined.hand fits some idle
  | answer busy =>
    refine ⟨disciplined.sizes, disciplined.order, disciplined.whole, disciplined.first, disciplined.rising,
      disciplined.known, ?_⟩
    have before := disciplined.flight
    simp only [busy, if_true] at before
    simpa [Traffic.answer] using before
  | close =>
    exact ⟨disciplined.sizes, disciplined.order, nofun, disciplined.first, disciplined.rising,
      disciplined.known, disciplined.flight⟩
  | discard closed =>
    exact disciplined.lose closed (List.nil_sublist _) fun _ => List.nil_prefix
  | keep kept allowed closed fewer =>
    refine disciplined.lose closed fewer fun none => ?_
    rw [allowed] at none
    cases none

/-- What was accepted and what was handed over are only ever added to. -/
theorem history_step (step : Step limit gaps q r) : q.accepted <+: r.accepted ∧ q.handed <+: r.handed := by
  cases step with
  | accept => exact ⟨List.prefix_append _ _, List.prefix_refl _⟩
  | hand => exact ⟨List.prefix_refl _, List.prefix_append _ _⟩
  | _ => exact ⟨List.prefix_refl _, List.prefix_refl _⟩

theorem history_steps (steps : Steps limit gaps q r) : q.accepted <+: r.accepted ∧ q.handed <+: r.handed := by
  induction steps with
  | refl => exact ⟨List.prefix_refl _, List.prefix_refl _⟩
  | tail _ step ih =>
    have last := history_step step
    exact ⟨ih.1.trans last.1, ih.2.trans last.2⟩

theorem disciplined_steps (steps : Steps limit gaps q r) (disciplined : Disciplined limit gaps q) :
    Disciplined limit gaps r := by
  induction steps with
  | refl => exact disciplined
  | tail _ step ih => exact disciplined_step step ih

namespace Disciplined

/-- First in, first out: what was handed over is the start of what was accepted. -/
theorem handed_prefix (disciplined : Disciplined limit false q) : q.handed.flatten <+: q.accepted :=
  (List.prefix_append _ _).trans (disciplined.first rfl)

/-- Gaps or not, what was handed over is in the order it was accepted in. -/
theorem handed_sublist (disciplined : Disciplined limit gaps q) : q.handed.flatten.Sublist q.accepted :=
  (List.sublist_append_left _ _).trans disciplined.order

/-- Nothing is handed over twice. -/
theorem handed_nodup (disciplined : Disciplined limit gaps q) : q.handed.flatten.Nodup :=
  (disciplined.rising.sublist disciplined.handed_sublist).imp fun smaller => Nat.ne_of_lt smaller

/-- At most one call of the consumer is unanswered. -/
theorem single (disciplined : Disciplined limit gaps q) : q.handed.length ≤ q.answered + 1 := by
  have flight := disciplined.flight
  split_ifs at flight <;> omega

end Disciplined

end Audr.Batching
