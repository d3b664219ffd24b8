import Audr.Pipeline.Batches

/-! Which failures reach `onFailure`. The callback is never re-entered, so a failure
that comes up while it runs is not passed to it. That is meant for a record the
callback submits into a full queue, whose failure `record()` returns; it is a loss
where a delivery started by the callback fails before the callback has returned. -/

namespace Audr.Pipeline

open Transition (Run)

variable {R : Type}

/-- Operations that count records as failed and report them. -/
def Op.loud : Op R → Bool
  | .fail _ _ _ _ _ => true
  | .conclude _ _ _ => true
  | .abandonOutstanding => true
  | .abandonQueued _ _ => true
  | .abandonInFlight _ _ _ => true
  | _ => false

def Op.endsNotify : Op R → Bool
  | .endNotify => true
  | _ => false

/-- What `record()` is about to return, and for which submission. -/
def Op.answers : Op R → List (Ref × SubmitOutcome)
  | .queueFull ref _ => [(ref, .droppedQueueFull)]
  | .returned ref outcome => [(ref, outcome)]
  | _ => []

/-- The submission a full queue has refused, before `onFailure` hears of it. -/
def Op.refused : Op R → List Ref
  | .queueFull ref _ => [ref]
  | _ => []

/-- Operations with no part in any of this. -/
def Op.plain : Op R → Bool
  | .endNotify => false
  | .queueFull _ _ => false
  | .returned _ _ => false
  | op => !op.loud

/-- Operations that neither answer a submission nor end a callback. -/
def Op.mute (op : Op R) : Bool := op.plain || op.loud

theorem Op.quiet_of_plain {op : Op R} (plain : op.plain = true) : op.loud = false := by
  cases op <;> first | rfl | cases plain

theorem Op.parts_of_mute {op : Op R} (mute : op.mute = true) :
    op.endsNotify = false ∧ op.answers = [] ∧ op.refused = [] := by
  cases op <;> first | exact ⟨rfl, rfl, rfl⟩ | cases mute

theorem Op.mute_of_accounts {op : Op R} (accounts : op.accounts = true) : op.mute = true := by
  cases op <;> first | rfl | cases accounts

/-- While `onFailure` runs, its end is on the stack once, with nothing loud before it. -/
def Guarded (notifying : Bool) (todo : List (Op R)) : Prop :=
  if notifying then
    ∃ before after, todo = before ++ .endNotify :: after ∧
      (∀ op ∈ before, op.loud = false ∧ op.endsNotify = false) ∧ ∀ op ∈ after, op.endsNotify = false
  else ∀ op ∈ todo, op.endsNotify = false

section Guarded
variable {notifying : Bool} {op : Op R} {rest todo : List (Op R)}

theorem Guarded.push (guarded : Guarded notifying todo) (ops : List (Op R)) (ends : ∀ op ∈ ops, op.endsNotify = false)
    (loud : notifying = true → ∀ op ∈ ops, op.loud = false) : Guarded notifying (ops ++ todo) := by
  cases notifying with
  | false =>
    intro op member
    exact (List.mem_append.mp member).elim (ends op) (guarded op)
  | true =>
    obtain ⟨before, after, rfl, quiet, once⟩ := guarded
    refine ⟨ops ++ before, after, by rw [List.append_assoc], fun op member => ?_, once⟩
    rcases List.mem_append.mp member with new | old
    · exact ⟨loud rfl op new, ends op new⟩
    · exact quiet op old

theorem Guarded.pop (guarded : Guarded notifying (op :: rest)) (goes : op.endsNotify = false) :
    Guarded notifying rest := by
  cases notifying with
  | false => exact fun other member => guarded other (List.mem_cons_of_mem _ member)
  | true =>
    obtain ⟨before, after, same, quiet, once⟩ := guarded
    cases before with
    | nil =>
      rw [(List.cons_eq_cons.mp same).1] at goes
      cases goes
    | cons first before =>
      exact ⟨before, after, (List.cons_eq_cons.mp same).2,
        fun other member => quiet other (List.mem_cons_of_mem _ member), once⟩

/-- Whatever is loud runs while `onFailure` does not. -/
theorem Guarded.silent (guarded : Guarded notifying (op :: rest)) (loud : op.loud = true) :
    notifying = false := by
  cases notifying with
  | false => rfl
  | true =>
    obtain ⟨before, after, same, quiet, _⟩ := guarded
    cases before with
    | nil =>
      rw [(List.cons_eq_cons.mp same).1] at loud
      cases loud
    | cons first before =>
      rw [(List.cons_eq_cons.mp same).1, (quiet first List.mem_cons_self).1] at loud
      cases loud

theorem Guarded.silent_nil (guarded : Guarded (R := R) notifying []) : notifying = false := by
  cases notifying with
  | false => rfl
  | true =>
    obtain ⟨before, after, same, _⟩ := guarded
    simp at same

theorem Guarded.notify (guarded : Guarded false todo) :
    Guarded true (.user .onFailure :: .endNotify :: todo) :=
  ⟨[.user .onFailure], todo, rfl, by simp [Op.loud, Op.endsNotify], guarded⟩

theorem Guarded.finish (guarded : Guarded notifying (.endNotify :: rest)) : Guarded false rest := by
  cases notifying with
  | false => cases guarded _ List.mem_cons_self
  | true =>
    obtain ⟨before, after, same, quiet, once⟩ := guarded
    cases before with
    | nil => exact (List.cons_eq_cons.mp same).2 ▸ once
    | cons first before =>
      have ends := (quiet first List.mem_cons_self).2
      rw [← (List.cons_eq_cons.mp same).1] at ends
      cases ends

end Guarded

namespace State

/-- The submissions `onFailure` has been called for. -/
def reportedRefs (s : State R) : List Ref := s.reported.filterMap Prod.fst

/-- What `record()` has returned or is about to return. -/
def answers (s : State R) : List (Ref × SubmitOutcome) := s.returned ++ s.todo.flatMap Op.answers

/-- Every failure counted so far, those `owed` apart, is reported or returned, and
nothing is reported twice or wrongly. -/
structure Reported (owed : List Ref) (s : State R) : Prop where
  guarded : Guarded s.notifying s.todo
  told : ∀ ref (disposition : Disposition), (ref, disposition.terminal) ∈ s.settled →
    ref ∈ owed ∨ ref ∈ s.reportedRefs ∨ (ref, .droppedQueueFull) ∈ s.answers
  rightly : ∀ ref failure, (some ref, failure) ∈ s.reported →
    (ref, failure.disposition.terminal) ∈ s.settled
  once : (s.reportedRefs ++ s.todo.flatMap Op.refused).Nodup
  full : ∀ ref, (ref, .droppedQueueFull) ∈ s.answers → (ref, .dropped) ∈ s.settled ∧ ref ∉ s.accepted
  queued : ∀ ref, (ref, .queued) ∈ s.answers → ref ∈ s.accepted

/-- The part of the state, beside the stack, that reports depend on. -/
def notices (s : State R) : Bool × List (Option Ref × FailedRecord R) × List (Ref × Terminal) ×
    List (Ref × SubmitOutcome) × List Ref :=
  (s.notifying, s.reported, s.settled, s.returned, s.accepted)

variable {s t : State R} {o : Options} {owed : List Ref}

/-- Reports are a matter of five fields, the answers and the refusals on the stack. -/
theorem Reported.transfer (reported : Reported owed s) (same : t.notices = s.notices)
    (guarded : Guarded s.notifying t.todo)
    (answers : t.todo.flatMap Op.answers = s.todo.flatMap Op.answers)
    (refused : t.todo.flatMap Op.refused = s.todo.flatMap Op.refused) : Reported owed t := by
  simp only [notices, Prod.mk.injEq] at same
  obtain ⟨notifying, told, settled, returned, accepted⟩ := same
  have answers : t.answers = s.answers := by rw [State.answers, State.answers, returned, answers]
  have refs : t.reportedRefs = s.reportedRefs := by rw [reportedRefs, reportedRefs, told]
  refine ⟨notifying ▸ guarded, ?_, ?_, ?_, ?_, ?_⟩
  · rw [settled, refs, answers]
    exact reported.told
  · rw [told, settled]
    exact reported.rightly
  · rw [refs, refused]
    exact reported.once
  · rw [answers, settled, accepted]
    exact reported.full
  · rw [answers, accepted]
    exact reported.queued

theorem Reported.congr (reported : Reported owed s) (same : t.notices = s.notices) (todo : t.todo = s.todo) :
    Reported owed t :=
  reported.transfer same (todo ▸ reported.guarded) (by rw [todo]) (by rw [todo])

theorem flatMap_mute {ops : List (Op R)} (mute : ∀ op ∈ ops, op.mute = true) :
    ops.flatMap Op.answers = [] ∧ ops.flatMap Op.refused = [] :=
  ⟨List.flatMap_eq_nil_iff.mpr fun op member => (Op.parts_of_mute (mute op member)).2.1,
    List.flatMap_eq_nil_iff.mpr fun op member => (Op.parts_of_mute (mute op member)).2.2⟩

/-- Loud operations may be left to run only while `onFailure` does not. -/
theorem Reported.push (reported : Reported owed s) (ops : List (Op R)) (same : t.notices = s.notices)
    (todo : t.todo = ops ++ s.todo) (mute : ∀ op ∈ ops, op.mute = true)
    (loud : s.notifying = true → ∀ op ∈ ops, op.loud = false) : Reported owed t := by
  obtain ⟨answers, refused⟩ := flatMap_mute mute
  refine reported.transfer same ?_ ?_ ?_
  · rw [todo]
    exact reported.guarded.push ops (fun op member => (Op.parts_of_mute (mute op member)).1) loud
  · rw [todo, List.flatMap_append, answers, List.nil_append]
  · rw [todo, List.flatMap_append, refused, List.nil_append]

theorem Reported.add (reported : Reported owed s) (ops : List (Op R)) (same : t.notices = s.notices)
    (todo : t.todo = ops ++ s.todo) (plain : ∀ op ∈ ops, op.plain = true) : Reported owed t :=
  reported.push ops same todo (fun op member => by simp [Op.mute, plain op member])
    fun _ op member => Op.quiet_of_plain (plain op member)

theorem Reported.pop (reported : Reported owed s) {op : Op R} {rest : List (Op R)}
    (top : s.todo = op :: rest) (mute : op.mute = true) : Reported owed (s.pop rest) := by
  obtain ⟨ends, answers, refused⟩ := Op.parts_of_mute mute
  refine reported.transfer rfl ?_ ?_ ?_
  · exact (top ▸ reported.guarded).pop ends
  · simp [State.pop, top, answers]
  · simp [State.pop, top, refused]

theorem Reported.silent (reported : Reported owed s) {op : Op R} {rest : List (Op R)}
    (top : s.todo = op :: rest) (loud : op.loud = true) : s.notifying = false :=
  (top ▸ reported.guarded).silent loud

theorem Reported.silent_nil (reported : Reported owed s) (top : s.todo = []) : s.notifying = false := by
  have guarded := reported.guarded
  rw [top] at guarded
  exact guarded.silent_nil

/-- Counting a record as failed leaves its report owed. -/
theorem Reported.owe (reported : Reported [] s) {ref : Ref} {terminal : Terminal}
    (same : t.notices = (s.notifying, s.reported, s.settled ++ [(ref, terminal)], s.returned, s.accepted))
    (todo : t.todo = s.todo) (sent : terminal = .sent → owed = []) (failed : terminal ≠ .sent → owed = [ref]) :
    Reported owed t := by
  simp only [notices, Prod.mk.injEq] at same
  obtain ⟨notifying, told, settled, returned, accepted⟩ := same
  have answers : t.answers = s.answers := by rw [State.answers, State.answers, returned, todo]
  have refs : t.reportedRefs = s.reportedRefs := by rw [reportedRefs, reportedRefs, told]
  refine ⟨?_, ?_, ?_, ?_, ?_, ?_⟩
  · rw [notifying, todo]
    exact reported.guarded
  · rw [settled, refs, answers]
    intro other disposition member
    rcases List.mem_append.mp member with old | new
    · exact .inr ((reported.told other disposition old).resolve_left List.not_mem_nil)
    · obtain ⟨rfl, rfl⟩ := Prod.mk.inj (List.mem_singleton.mp new)
      rw [failed (by cases disposition <;> simp [Disposition.terminal])]
      exact .inl List.mem_cons_self
  · rw [told, settled]
    exact fun other failure member => List.mem_append_left _ (reported.rightly other failure member)
  · rw [refs, todo]
    exact reported.once
  · rw [answers, settled, accepted]
    exact fun other member => ⟨List.mem_append_left _ (reported.full other member).1, (reported.full other member).2⟩
  · rw [answers, accepted]
    exact reported.queued

/-- Calling `onFailure` pays what is owed, when it is not running. -/
theorem Reported.pay (configured : o.onFailure = true) {ref : Ref} (reported : Reported [ref] s)
    (silent : s.notifying = false) (failure : FailedRecord R)
    (ended : (ref, failure.disposition.terminal) ∈ s.settled)
    (fresh : ref ∉ s.reportedRefs ++ s.todo.flatMap Op.refused) :
    Reported [] (notifyFailure o (some ref) failure s) := by
  have called : State.notifyFailure o (some ref) failure s = { s with
      notifying := true
      reported := s.reported ++ [(some ref, failure)]
      todo := .user .onFailure :: .endNotify :: s.todo } := by
    simp [State.notifyFailure, configured, silent]
  have refs : (State.notifyFailure o (some ref) failure s).reportedRefs = s.reportedRefs ++ [ref] := by
    rw [called]
    simp [reportedRefs]
  have answers : (State.notifyFailure o (some ref) failure s).answers = s.answers := by
    rw [called]
    simp [State.answers, Op.answers]
  rw [called] at refs answers ⊢
  refine ⟨?_, ?_, ?_, ?_, ?_, ?_⟩
  · exact (silent ▸ reported.guarded).notify
  · rw [refs, answers]
    intro other disposition member
    right
    rcases reported.told other disposition member with owed | old | answered
    · exact .inl (List.mem_append_right _ owed)
    · exact .inl (List.mem_append_left _ old)
    · exact .inr answered
  · intro other failure' member
    rcases List.mem_append.mp member with old | new
    · exact reported.rightly other failure' old
    · obtain ⟨same, rfl⟩ := Prod.mk.inj (List.mem_singleton.mp new)
      exact Option.some.inj same ▸ ended
  · rw [refs]
    change (s.reportedRefs ++ [ref] ++ s.todo.flatMap Op.refused).Nodup
    rw [List.append_assoc, List.singleton_append]
    exact List.nodup_middle.mpr (List.nodup_cons.mpr ⟨fresh, reported.once⟩)
  · rw [answers]
    exact reported.full
  · rw [answers]
    exact reported.queued

/-- What is reported or refused has been counted. -/
theorem Reported.unheard (reported : Reported owed s) {ref : Ref} (open_ : ref ∉ s.settled.map Prod.fst) :
    ref ∉ s.reportedRefs ++ s.todo.flatMap Op.refused := by
  intro member
  apply open_
  rcases List.mem_append.mp member with heard | refused
  · obtain ⟨⟨other, failure⟩, told, same⟩ := List.mem_filterMap.mp heard
    rw [show other = some ref from same] at told
    exact List.mem_map_of_mem (reported.rightly ref failure told)
  · obtain ⟨op, pending, mine⟩ := List.mem_flatMap.mp refused
    have answer : (ref, SubmitOutcome.droppedQueueFull) ∈ op.answers := by
      cases op <;> simp_all [Op.refused, Op.answers]
    exact List.mem_map_of_mem
      (reported.full ref (List.mem_append_right _ (List.mem_flatMap.mpr ⟨op, pending, answer⟩))).1

/-! The functions of the pipeline. -/

theorem Reported.deliver (reported : Reported owed s) : Reported owed (deliver o s) :=
  reported.add ([.user .deliver]) rfl rfl (by simp [Op.plain, Op.loud])

theorem Reported.schedule (reported : Reported owed s) : Reported owed (schedule o s) := by
  rcases schedule_cases o s with ⟨same, _⟩ | ⟨_, _, _, started⟩ | ⟨_, _, _, armed⟩
  · rw [same]
    exact reported
  · rw [started]
    exact Reported.deliver (reported.congr rfl rfl)
  · rw [armed]
    exact reported.congr rfl rfl

theorem Reported.startRun (reported : Reported owed s) : Reported owed (startRun o s) := by
  rcases startRun_cases o s with ⟨same, _⟩ | ⟨_, _, woken⟩ | ⟨_, _, started⟩
  · rw [same]
    exact reported
  · rw [woken]
    exact reported.congr rfl rfl
  · rw [started]
    exact Reported.deliver (reported.congr rfl rfl)

theorem Reported.resumeRun (reported : Reported owed s) : Reported owed (resumeRun o s) := by
  rcases resumeRun_cases o s with ⟨_, _, next⟩ | ⟨_, woken⟩ | ⟨_, rescheduled⟩
  · rw [next]
    exact reported.deliver
  · rw [woken]
    exact reported.congr rfl rfl
  · rw [rescheduled]
    exact Reported.schedule (reported.congr rfl rfl)

theorem Reported.drain (reported : Reported owed s) (forFlush : Bool) : Reported owed (drain o forFlush s) := by
  rw [drain_eq]
  apply Reported.schedule
  exact reported.add ([.idleCheck s.drains.length]) rfl rfl (by simp [Op.plain, Op.loud])

theorem Reported.flush (reported : Reported owed s) : Reported owed (flush o s) := by
  rcases flush_cases o s with ⟨_, same⟩ | ⟨_, _, same⟩ <;> rw [same]
  · exact reported.drain true
  · exact reported.congr rfl rfl

theorem Reported.beginShutdown (reported : Reported owed s) : Reported owed (beginShutdown o s) := by
  rcases beginShutdown_cases o s with ⟨_, same⟩ | ⟨_, stop, _, same⟩ | ⟨_, _, same⟩ <;> rw [same]
  · exact reported
  · exact reported.add ([.assignShutdown stop]) rfl rfl (by simp [Op.plain, Op.loud])
  · apply Reported.drain
    exact reported.add ([.assignStopping s.stops.length, .assignShutdown s.stops.length]) rfl rfl
      (by simp [Op.plain, Op.loud])

theorem Reported.record (reported : Reported owed s) (record : R) (verdict : Verdict) :
    Reported owed (State.record record verdict s) := by
  unfold State.record
  split_ifs
  · exact reported
  · cases verdict <;> exact reported.add _ rfl rfl (by simp [Op.plain, Op.loud])

/-- A refused record is answered; it is the answer that tells its caller. -/
theorem Reported.submit (reported : Reported [] s) (balanced : s.ledger.Balanced)
    (known : ∀ ref ∈ s.accepted, ref < s.submitted) (record : R) : Reported [] (submit o record s) := by
  have below : ∀ ref terminal, (ref, terminal) ∈ s.settled → ref < s.submitted := fun ref terminal member =>
    balanced.lt_issued.mpr (.inr (List.mem_map_of_mem member))
  have open_ : s.submitted ∉ s.settled.map Prod.fst := by
    intro member
    obtain ⟨⟨ref, terminal⟩, ended, same⟩ := List.mem_map.mp member
    exact absurd (below ref terminal ended) (by simp_all)
  rcases submit_cases o record s with ⟨_, same⟩ | ⟨_, same⟩ <;> rw [same]
  · have answers : (State.push [.user .logger, .queueFull s.submitted record]
        (count s.submitted .dropped { s with submitted := s.submitted + 1 })).answers =
        s.returned ++ (s.submitted, .droppedQueueFull) :: s.todo.flatMap Op.answers := rfl
    refine ⟨?_, ?_, ?_, ?_, ?_, ?_⟩
    · exact reported.guarded.push [_, _] (by simp [Op.endsNotify]) (by simp [Op.loud])
    · rw [answers]
      intro ref disposition member
      rcases List.mem_append.mp member with old | new
      · refine .inr ((reported.told ref disposition old).resolve_left List.not_mem_nil |>.imp_right ?_)
        intro answered
        rcases List.mem_append.mp answered with returned | pending
        · exact List.mem_append_left _ returned
        · exact List.mem_append_right _ (List.mem_cons_of_mem _ pending)
      · obtain ⟨rfl, _⟩ := Prod.mk.inj (List.mem_singleton.mp new)
        exact .inr (.inr (List.mem_append_right _ List.mem_cons_self))
    · exact fun ref failure member => List.mem_append_left _ (reported.rightly ref failure member)
    · exact List.nodup_middle.mpr (List.nodup_cons.mpr ⟨reported.unheard open_, reported.once⟩)
    · rw [answers]
      intro ref member
      rcases List.mem_append.mp member with old | new
      · have before := reported.full ref (List.mem_append_left _ old)
        exact ⟨List.mem_append_left _ before.1, before.2⟩
      · rcases List.mem_cons.mp new with mine | old
        · obtain ⟨rfl, _⟩ := Prod.mk.inj mine
          exact ⟨List.mem_append_right _ List.mem_cons_self, fun accepted => (known _ accepted).ne rfl⟩
        · have before := reported.full ref (List.mem_append_right _ old)
          exact ⟨List.mem_append_left _ before.1, before.2⟩
    · rw [answers]
      intro ref member
      rcases List.mem_append.mp member with old | new
      · exact reported.queued ref (List.mem_append_left _ old)
      · rcases List.mem_cons.mp new with mine | old
        · cases (Prod.mk.inj mine).2
        · exact reported.queued ref (List.mem_append_right _ old)
  · apply Reported.schedule
    have answers : (enqueue record s).answers =
        s.returned ++ (s.submitted, .queued) :: s.todo.flatMap Op.answers := rfl
    have split : ∀ entry, entry ∈ (enqueue record s).answers →
        entry = (s.submitted, .queued) ∨ entry ∈ s.answers := by
      intro entry member
      rw [answers] at member
      rcases List.mem_append.mp member with old | new
      · exact .inr (List.mem_append_left _ old)
      · exact (List.mem_cons.mp new).imp_right (List.mem_append_right _)
    refine ⟨?_, ?_, reported.rightly, reported.once, ?_, ?_⟩
    · exact reported.guarded.push ([.returned s.submitted .queued]) (by simp [Op.endsNotify]) (by simp [Op.loud])
    · intro ref disposition member
      refine .inr ((reported.told ref disposition member).resolve_left List.not_mem_nil |>.imp_right ?_)
      intro answered
      rw [answers]
      rcases List.mem_append.mp answered with returned | pending
      · exact List.mem_append_left _ returned
      · exact List.mem_append_right _ (List.mem_cons_of_mem _ pending)
    · intro ref member
      have old := (split _ member).resolve_left (by simp)
      obtain ⟨ended, absent⟩ := reported.full ref old
      refine ⟨ended, fun accepted => ?_⟩
      rcases List.mem_append.mp accepted with before | new
      · exact absent before
      · exact (below ref _ ended).ne (List.mem_singleton.mp new)
    · intro ref member
      rcases split _ member with mine | old
      · exact List.mem_append_right _ (by simp [(Prod.mk.inj mine).1])
      · exact List.mem_append_left _ (reported.queued ref old)

/-- A full queue is reported when `onFailure` is not running, and returned either way. -/
theorem Reported.queueFull (configured : o.onFailure = true) (reported : Reported [] s) {ref : Ref}
    {record : R} {rest : List (Op R)} (top : s.todo = .queueFull ref record :: rest) :
    Reported [] (notifyFailure o (some ref) ⟨record, .dropped, .queueFull, true, none⟩
      (State.push [.returned ref .droppedQueueFull] (s.pop rest))) := by
  have refused : s.todo.flatMap Op.refused = ref :: rest.flatMap Op.refused := by
    rw [top]
    rfl
  have once := reported.once
  rw [refused] at once
  have answers : (State.push [.returned ref .droppedQueueFull] (s.pop rest)).answers = s.answers := by
    simp [State.answers, State.push, State.pop, top, Op.answers]
  have ended := (reported.full ref (by simp [State.answers, top, Op.answers])).1
  have moved : Reported [ref] (State.push [.returned ref .droppedQueueFull] (s.pop rest)) := by
    refine ⟨?_, ?_, reported.rightly, ?_, ?_, ?_⟩
    · exact ((top ▸ reported.guarded).pop rfl).push [_] (by simp [Op.endsNotify]) (by simp [Op.loud])
    · rw [answers]
      exact fun other disposition member =>
        .inr ((reported.told other disposition member).resolve_left List.not_mem_nil)
    · exact once.sublist ((List.sublist_cons_self _ _).append_left _)
    · rw [answers]
      exact reported.full
    · rw [answers]
      exact reported.queued
  cases running : s.notifying with
  | false => exact moved.pay configured running _ ended (List.nodup_cons.mp (List.nodup_middle.mp once)).1
  | true =>
    have skipped : State.notifyFailure o (some ref) ⟨record, .dropped, .queueFull, true, none⟩
        (State.push [.returned ref .droppedQueueFull] (s.pop rest)) =
        State.push [.returned ref .droppedQueueFull] (s.pop rest) := by
      simp [State.notifyFailure, State.push, State.pop, running]
    rw [skipped]
    refine ⟨moved.guarded, fun other disposition member => ?_, moved.rightly, moved.once, moved.full, moved.queued⟩
    rcases moved.told other disposition member with mine | rest
    · rw [List.mem_singleton.mp mine]
      exact .inr (.inr (List.mem_append_right _ List.mem_cons_self))
    · exact .inr rest

theorem Reported.returned (reported : Reported [] s) {ref : Ref} {outcome : SubmitOutcome}
    {rest : List (Op R)} (top : s.todo = .returned ref outcome :: rest) :
    Reported [] { s.pop rest with returned := s.returned ++ [(ref, outcome)] } := by
  have answers : answers { s.pop rest with returned := s.returned ++ [(ref, outcome)] } = s.answers := by
    simp [State.answers, State.pop, top, Op.answers]
  refine ⟨(top ▸ reported.guarded).pop rfl, ?_, reported.rightly, ?_, ?_, ?_⟩
  · rw [answers]
    exact reported.told
  · have once := reported.once
    rw [top] at once
    exact once
  · rw [answers]
    exact reported.full
  · rw [answers]
    exact reported.queued

theorem Reported.endNotify (reported : Reported [] s) {rest : List (Op R)}
    (top : s.todo = .endNotify :: rest) : Reported [] { s.pop rest with notifying := false } := by
  have answers : answers { s.pop rest with notifying := false } = s.answers := by
    simp [State.answers, State.pop, top, Op.answers]
  refine ⟨(top ▸ reported.guarded).finish, ?_, reported.rightly, ?_, ?_, ?_⟩
  · rw [answers]
    exact reported.told
  · have once := reported.once
    rw [top] at once
    exact once
  · rw [answers]
    exact reported.full
  · rw [answers]
    exact reported.queued

/-- A callback for an invalid record concerns no submission. -/
theorem Reported.invalid (reported : Reported [] s) (failure : FailedRecord R) :
    Reported [] (notifyFailure o none failure s) := by
  unfold State.notifyFailure
  split_ifs with skipped
  · exact reported
  · have silent : s.notifying = false := by
      simp only [Bool.or_eq_true, not_or, Bool.not_eq_true] at skipped
      exact skipped.2
    have refs : reportedRefs { s with
        notifying := true
        reported := s.reported ++ [(none, failure)]
        todo := .user .onFailure :: .endNotify :: s.todo } = s.reportedRefs := by
      simp [reportedRefs]
    refine ⟨(silent ▸ reported.guarded).notify, ?_, ?_, ?_, reported.full, reported.queued⟩
    · rw [refs]
      exact reported.told
    · intro ref told member
      refine reported.rightly ref told ((List.mem_append.mp member).resolve_right ?_)
      simp
    · rw [refs]
      exact reported.once

/-- Outside a callback, an item that fails is reported as it is counted. -/
theorem Reported.fail (configured : o.onFailure = true) (reported : Reported [] s)
    (balanced : s.ledger.Balanced) (silent : s.notifying = false) (ref : Ref) (disposition : Disposition)
    (reason : FailureReason) (retryable : Bool) (detail : Option String) :
    Reported [] (fail o ref disposition reason retryable detail s) := by
  unfold State.fail
  split
  · exact reported
  next item found =>
    have live := (mem_liveRefs_of_liveItem found).2.2
    have open_ : ref ∉ s.settled.map Prod.fst := fun ended => balanced.not_held ended
      (Multiset.mem_add.mpr (.inl (Multiset.mem_add.mpr (.inr live))))
    have owed : Reported [ref] (settleItem ref disposition.terminal s) :=
      reported.owe rfl rfl (fun sent => by cases disposition <;> cases sent) fun _ => rfl
    exact owed.pay configured silent _ (List.mem_append_right _ List.mem_cons_self) (reported.unheard open_)

theorem Reported.markSent (reported : Reported [] s) (ref : Ref) : Reported [] (markSent ref s) := by
  unfold State.markSent
  split_ifs
  · exact reported.owe rfl rfl (fun _ => rfl) fun failed => absurd rfl failed
  · exact reported

theorem Reported.abandonQueued (configured : o.onFailure = true) (reported : Reported [] s)
    (balanced : s.ledger.Balanced) {queued : List (Queued R)} {dropped : Nat} {rest : List (Op R)}
    (top : s.todo = .abandonQueued queued dropped :: rest) :
    Reported [] (abandonQueued o queued dropped (s.pop rest)) := by
  have silent := reported.silent top rfl
  have popped : Reported [] (s.pop rest) := reported.pop top rfl
  cases queued with
  | nil => exact popped.push _ rfl rfl (by simp [Op.mute, Op.loud]) (by simp [State.pop, silent])
  | cons q queued =>
    have held : q.ref ∈ s.held := Multiset.mem_add.mpr (.inr (by simp [top, Op.holds]))
    have open_ : q.ref ∉ s.settled.map Prod.fst := fun ended => balanced.not_held ended held
    have next : Reported [] (State.push [.abandonQueued queued (dropped + 1)] (s.pop rest)) :=
      popped.push _ rfl rfl (by simp [Op.mute, Op.loud]) (by simp [State.pop, silent])
    have owed : Reported [q.ref] (count q.ref .dropped (State.push [.abandonQueued queued (dropped + 1)] (s.pop rest))) :=
      next.owe rfl rfl (by simp) fun _ => rfl
    exact owed.pay configured silent _ (List.mem_append_right _ List.mem_cons_self) (next.unheard open_)

theorem Reported.abandonInFlight (configured : o.onFailure = true) (reported : Reported [] s)
    (balanced : s.ledger.Balanced) (silent : s.notifying = false) (pending : List Ref) (dropped unknown : Nat) :
    Reported [] (abandonInFlight o pending dropped unknown s) := by
  cases pending with
  | nil =>
    simp only [State.abandonInFlight]
    split_ifs
    · exact reported.add _ rfl rfl (by simp [Op.plain, Op.loud])
    · exact reported
  | cons ref rest =>
    have next : Reported [] (State.push [.abandonInFlight rest dropped
        (if (s.liveItem? ref).isSome then unknown + 1 else unknown)] s) :=
      reported.push _ rfl rfl (by simp [Op.mute, Op.loud]) (by simp [silent])
    exact next.fail configured balanced silent _ _ _ _ _

end State

/-- The sink's `deliver` throws synchronously while `onFailure` is running. -/
def nestedThrow (s : State R) (act : Act R) : Bool :=
  match act, s.todo with
  | .leave .throws, .user .deliver :: _ => s.notifying
  | _, _ => false

def NoNestedThrow (s : State R) (act : Act R) : Prop := nestedThrow s act = false

instance : ∀ (s : State R) (act : Act R), Decidable (NoNestedThrow s act) := fun _ _ =>
  inferInstanceAs (Decidable (_ = false))

namespace State

variable {s t : State R} {o : Options}

theorem Reported.move [AudrRecord R] {act : Act R} (configured : o.onFailure = true)
    (reported : Reported [] s) (sound : s.Sound) (known : ∀ ref ∈ s.accepted, ref < s.submitted)
    (move : Move o s act t) (permitted : NoNestedThrow s act) : Reported [] t := by
  have balanced := sound.balanced
  have popped : ∀ {op : Op R} {rest}, s.todo = op :: rest → op.holds = [] → (s.pop rest).ledger.Balanced :=
    fun top empty => Accounts.balanced_steps (Books.pop top empty).steps balanced
  cases move with
  | submit top =>
    have still := popped top rfl
    exact (reported.pop top rfl).submit still known _
  | reportInvalid top => exact (reported.pop top rfl).invalid _
  | queueFull top => exact reported.queueFull configured top
  | returned top => exact reported.returned top
  | endNotify top => exact reported.endNotify top
  | fail top => exact (reported.pop top rfl).fail configured (popped top rfl) (reported.silent top rfl) _ _ _ _ _
  | markSent top => exact (reported.pop top rfl).markSent _
  | notifyDelivered top =>
    unfold State.notifyDelivered
    split_ifs
    · exact (reported.pop top rfl).add _ rfl rfl (by simp [Op.plain, Op.loud])
    · exact reported.pop top rfl
  | @concludeItem ref pending batch unresolved rest top =>
    have silent := reported.silent top rfl
    have still : (s.pop rest).ledger.Balanced := popped top (by rfl)
    have next : Reported [] (State.push [.conclude pending batch
        (if ((s.pop rest).liveItem? ref).isSome then unresolved + 1 else unresolved)] (s.pop rest)) :=
      (reported.pop top rfl).push _ rfl rfl (by simp [Op.mute, Op.loud]) (by simp [State.pop, silent])
    exact next.fail configured still silent _ _ _ _ _
  | @release batch unresolved rest top =>
    refine (reported.pop top rfl).add (if unresolved = 0 then [] else [.user .logger]) rfl rfl ?_
    split_ifs <;> simp [Op.plain, Op.loud]
  | idleCheck top =>
    unfold State.idleCheck
    split_ifs <;> exact (reported.pop top rfl).congr rfl rfl
  | assignStopping top => exact (reported.pop top rfl).congr rfl rfl
  | assignShutdown top => exact (reported.pop top rfl).congr rfl rfl
  | abandonOutstanding top =>
    exact (reported.pop top rfl).push ([.abandonQueued s.queue 0]) rfl rfl (by simp [Op.mute, Op.loud])
      (by simp [State.pop, reported.silent top rfl])
  | abandonQueued top => exact reported.abandonQueued configured balanced top
  | abandonInFlight top =>
    exact (reported.pop top rfl).abandonInFlight configured (popped top rfl) (reported.silent top rfl) _ _ _
  | record top => exact reported.record _ _
  | flush top => exact reported.flush
  | shutdown top => exact reported.beginShutdown
  | sinkThrows top calling =>
    have silent : s.notifying = false := by simpa [NoNestedThrow, nestedThrow, top] using permitted
    exact (reported.pop top rfl).push ([.conclude _ _ 0]) rfl rfl (by simp [Op.mute, Op.loud])
      (by simp [State.pop, silent])
  | sinkReturns top calling exits => exact (reported.pop top rfl).congr rfl rfl
  | callbackThrows top other =>
    exact (reported.pop top rfl).add ([.user .logger]) rfl rfl (by simp [Op.plain, Op.loud])
  | callbackPromises top other => exact (reported.pop top rfl).congr rfl rfl
  | leaves top other => exact reported.pop top rfl
  | task top => exact reported.add ([.user .host]) rfl rfl (by simp [Op.plain, Op.loud])
  | lingerFires top armed =>
    apply Reported.startRun
    exact reported.congr rfl rfl
  | sinkSettles top awaiting =>
    obtain ⟨ops, batches, accounts, same⟩ := answer_cases _ _ s
    rw [same]
    refine reported.push (ops ++ [.conclude _ _ 0]) rfl rfl (fun op member => ?_)
      (by simp [reported.silent_nil top])
    rcases List.mem_append.mp member with call | last
    · exact Op.mute_of_accounts (accounts op call)
    · rw [List.mem_singleton.mp last]
      rfl
  | runResumes top paused => exact reported.resumeRun
  | drainSettles top found waiting truthful => exact reported.congr rfl rfl
  | stopAborts top found drained settled =>
    refine reported.push (if s.aborted then [.abandonOutstanding]
      else [.user .abortListener, .abandonOutstanding]) rfl rfl ?_ (by simp [reported.silent_nil top])
    split_ifs <;> simp [Op.mute, Op.plain, Op.loud]
  | @stopCloses stop warns top found owns =>
    refine reported.add ((if warns then [.user .logger] else []) ++ [.user .sinkClose]) rfl rfl ?_
    split_ifs <;> simp [Op.plain, Op.loud]
  | @stopEnds stop warns at_ top found last =>
    refine reported.add (if warns then [.user .logger] else []) rfl rfl ?_
    split_ifs <;> simp [Op.plain, Op.loud]
  | stopWaitSettles top found waiting truthful => exact reported.congr rfl rfl
  | @callbackSettles threw top pending =>
    refine reported.add (if threw then [.user .logger] else []) rfl rfl ?_
    split_ifs <;> simp [Op.plain, Op.loud]

end State

/-- Each failure counted so far is passed to `onFailure` once, as what it was counted
as, or else it is the failure the `record()` call returned; and a record that was
answered `queued` is of the first kind. -/
def EveryFailureTold (s : State R) : Prop :=
  (∀ ref (disposition : Disposition), (ref, disposition.terminal) ∈ s.settled →
    (∃ failure, s.reported.filter (fun entry => entry.1 = some ref) = [(some ref, failure)] ∧
      failure.disposition = disposition) ∨
    (s.reported.filter (fun entry => entry.1 = some ref) = [] ∧ disposition = .dropped ∧
      (ref, .droppedQueueFull) ∈ s.returned)) ∧
  ∀ ref (disposition : Disposition), (ref, .queued) ∈ s.returned → (ref, disposition.terminal) ∈ s.settled →
    ∃ failure, s.reported.filter (fun entry => entry.1 = some ref) = [(some ref, failure)] ∧
      failure.disposition = disposition

variable {o : Options} {labels : List (Act R)} {s : State R}

theorem Disposition.terminal_inj {first second : Disposition} (same : first.terminal = second.terminal) :
    first = second := by
  cases first <;> cases second <;> first | rfl | cases same

/-- What is heard of once is the only entry for its submission. -/
theorem filter_reported {reported : List (Option Ref × FailedRecord R)} {ref : Ref}
    (once : (reported.filterMap Prod.fst).Nodup) (heard : ref ∈ reported.filterMap Prod.fst) :
    ∃ failure, reported.filter (fun entry => entry.1 = some ref) = [(some ref, failure)] ∧
      (some ref, failure) ∈ reported := by
  induction reported with
  | nil => simp at heard
  | cons entry rest ih =>
    obtain ⟨which, failure⟩ := entry
    by_cases mine : which = some ref
    · subst mine
      obtain ⟨absent, _⟩ := List.nodup_cons.mp (show (ref :: rest.filterMap Prod.fst).Nodup from once)
      have none : rest.filter (fun entry => entry.1 = some ref) = [] := by
        refine List.filter_eq_nil_iff.mpr fun entry member same => absent ?_
        exact List.mem_filterMap.mpr ⟨entry, member, by simpa using same⟩
      exact ⟨failure, by simp [none], List.mem_cons_self⟩
    · have later : ref ∈ rest.filterMap Prod.fst := by
        cases which with
        | none => exact heard
        | some other => exact (List.mem_cons.mp heard).resolve_left fun same => mine (congrArg some same.symm)
      have distinct : (rest.filterMap Prod.fst).Nodup := by
        cases which with
        | none => exact once
        | some other => exact (List.nodup_cons.mp (show (other :: rest.filterMap Prod.fst).Nodup from once)).2
      obtain ⟨failure', only, member⟩ := ih distinct later
      exact ⟨failure', by simp [mine, only], List.mem_cons_of_mem _ member⟩

/-- With control in the event loop, an invariant of reports is a statement about them. -/
theorem State.Reported.every_failure_told (reported : State.Reported [] s) (balanced : s.ledger.Balanced)
    (top : s.todo = []) : EveryFailureTold s := by
  have once : s.reportedRefs.Nodup := (List.nodup_append.mp reported.once).1
  have settled : ∀ ref first second, (ref, first) ∈ s.settled → (ref, second) ∈ s.settled → first = second := by
    intro ref first second one two
    exact List.inj_on_of_nodup_map balanced.closed_nodup one two rfl |> congrArg Prod.snd
  have heard : ∀ ref (disposition : Disposition), (ref, disposition.terminal) ∈ s.settled → ref ∈ s.reportedRefs →
      ∃ failure, s.reported.filter (fun entry => entry.1 = some ref) = [(some ref, failure)] ∧
        failure.disposition = disposition := by
    intro ref disposition ended member
    obtain ⟨failure, only, present⟩ := filter_reported once member
    exact ⟨failure, only, Disposition.terminal_inj (settled ref _ _ (reported.rightly ref failure present) ended)⟩
  have answers : s.answers = s.returned := by simp [State.answers, top]
  refine ⟨fun ref disposition ended => ?_, fun ref disposition queued ended => ?_⟩
  · by_cases member : ref ∈ s.reportedRefs
    · exact .inl (heard ref disposition ended member)
    · have answered := ((reported.told ref disposition ended).resolve_left List.not_mem_nil).resolve_left member
      have dropped := settled ref _ _ (reported.full ref answered).1 ended
      have counted : disposition.terminal = Disposition.dropped.terminal := dropped.symm
      refine .inr ⟨?_, Disposition.terminal_inj counted, answers ▸ answered⟩
      refine List.filter_eq_nil_iff.mpr fun entry present same => member ?_
      exact List.mem_filterMap.mpr ⟨entry, present, by simpa using same⟩
  · refine heard ref disposition ended ?_
    rcases (reported.told ref disposition ended).resolve_left List.not_mem_nil with member | full
    · exact member
    · exact absurd (reported.queued ref (answers.symm ▸ queued)) (reported.full ref full).2

/-- When no delivery that `onFailure` starts fails before the callback has returned,
no failure is lost and none is told twice. -/
theorem failures_told [AudrRecord R] (configured : o.onFailure = true)
    (run : Run (step o) NoNestedThrow (initial R) labels s) (top : s.todo = []) : EveryFailureTold s := by
  have all : s.Sound ∧ Batching.Disciplined o.batchMaxSize false s.traffic ∧ State.Reported [] s := by
    refine run.invariant (fun s => s.Sound ∧ Batching.Disciplined o.batchMaxSize false s.traffic ∧
      State.Reported [] s) ⟨State.sound_initial, State.disciplined_initial, ?_⟩ ?_
    · exact ⟨by simp [initial, Guarded], by simp [initial], by simp [initial], by simp [initial, State.reportedRefs],
        by simp [initial, State.answers], by simp [initial, State.answers]⟩
    · rintro before label after ⟨sound, disciplined, reported⟩ permitted taken
      have move := State.step_moves taken
      exact ⟨sound.move move, Batching.disciplined_steps (move.carries sound).steps disciplined,
        reported.move configured sound disciplined.known move permitted⟩
  exact all.2.2.every_failure_told all.1.balanced top

/-- A sink throws; from `onFailure` one record is submitted and one finds the queue
full; the sink then refuses the one that was queued. -/
def toldLabels : List (Act String) :=
  [.task, .record "a" .valid, .leave .returns, .next, .leave .throws, .next, .record "b" .valid,
    .leave .returns, .next, .next, .record "c" .valid, .leave .returns, .next, .leave .returns, .next,
    .next, .leave .returns, .next, .next, .leave .returns, .next, .leave .returns, .runResumes,
    .leave .returnsPromise, .sinkSettles (.result (.failed false (some "refused"))), .leave .returns,
    .next, .leave .returns, .next, .next, .next]

def told : State String :=
  (Transition.execute (step smallOptions) (initial String) toldLabels).getD (initial String)

theorem failures_told_nested :
    told.settled = [(0, .unknown), (2, .dropped), (1, .dropped)] ∧ EveryFailureTold told := by
  have run : Run (step smallOptions) NoNestedThrow (initial String) toldLabels told :=
    Run.of_executeWithin rfl
  exact ⟨rfl, failures_told rfl run rfl⟩

/-- `onFailure` hears of an invalid record and submits another one, whose delivery
fails at once: nobody is told that the record, answered `queued`, ended unknown. -/
def lostLabels : List (Act String) :=
  [.task, .record "bad" .invalid, .leave .returns, .next, .record "a" .valid, .leave .returns, .next,
    .leave .throws, .next, .next, .leave .returns, .next, .leave .returns, .next, .leave .returns]

def lost : State String :=
  (Transition.execute (step smallOptions) (initial String) lostLabels).getD (initial String)

theorem failures_lost : ¬ ∀ (labels : List (Act String)) (s : State String),
    Reaches smallOptions labels s → s.todo = [] → EveryFailureTold s := by
  intro all
  have run : Reaches smallOptions lostLabels lost := Run.of_execute rfl
  obtain ⟨failure, only, _⟩ := (all lostLabels lost run rfl).2 0 .unknown (by decide) (by decide)
  have none : lost.reported.filter (fun entry => entry.1 = some 0) = [] := rfl
  rw [none] at only
  cases only

end Audr.Pipeline
