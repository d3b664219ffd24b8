import Audr.Lib.Batching
import Audr.Pipeline.Conservation

/-! What the TypeScript pipeline owes a sink: batches within the size the client asks
for, one call at a time, every accepted record at most once and in order; and a queue
that never grows past its bound. The pipeline refines a batching queue, and the
discipline is the invariant of that queue. -/

namespace Audr.Pipeline

open Batching (Traffic Disciplined)
open Transition (Run anyStep)

variable {R : Type}

/-- Whether a call of the sink has not settled. -/
def RunAt.calls : RunAt → Bool
  | .calling _ => true
  | .awaiting _ => true
  | _ => false

namespace State

/-- The batching queue a state of the pipeline stands for. -/
def traffic (s : State R) : Traffic where
  offered := s.submitted
  accepted := s.accepted
  waiting := s.queueRefs
  handed := s.handed
  answered := s.answered
  calling := s.run.calls
  closed := s.aborted

/-- What a piece of the pipeline's code does to the batching queue and to the bound. -/
structure Carries (o : Options) (s t : State R) : Prop where
  steps : Batching.Steps o.batchMaxSize false s.traffic t.traffic
  bound : s.depth ≤ o.maxQueueSize → t.depth ≤ o.maxQueueSize

variable {s t u : State R} {o : Options}

theorem Carries.trans (first : Carries o s t) (second : Carries o t u) : Carries o s u :=
  ⟨first.steps.trans second.steps, second.bound ∘ first.bound⟩

theorem Carries.congr (same : t.traffic = s.traffic) (depth : t.depth ≤ s.depth) : Carries o s t :=
  ⟨same ▸ .refl, depth.trans⟩

theorem Carries.after (later : Carries o t u) (same : t.traffic = s.traffic) (depth : t.depth ≤ s.depth) :
    Carries o s u :=
  (Carries.congr same depth).trans later

theorem Carries.refl (s : State R) : Carries o s s := .congr rfl le_rfl

theorem Carries.push (ops : List (Op R)) (s : State R) : Carries o s (push ops s) := .congr rfl le_rfl

theorem Carries.pop (rest : List (Op R)) (s : State R) : Carries o s (s.pop rest) := .congr rfl le_rfl

/-- A delivery hands over the front of a queue that is not empty. -/
theorem carries_deliver (full : s.queue ≠ []) (idle : s.run.calls = false) :
    Carries o s (deliver o s) := by
  have handed : (deliver o s).traffic = s.traffic.hand o.batchMaxSize := by
    simp [traffic, deliver, Traffic.hand, queueRefs, List.map_take, List.map_drop, RunAt.calls]
  have some : s.traffic.waiting.take o.batchMaxSize ≠ [] := by
    have positive := o.batch_pos
    simp only [traffic, queueRefs, ne_eq, List.take_eq_nil_iff, List.map_eq_nil_iff, not_or]
    exact ⟨by omega, full⟩
  refine ⟨?_, fun bound => ?_⟩
  · rw [handed]
    exact .single (.hand _ le_rfl some idle)
  · have same : (deliver o s).depth = s.depth := by
      simp only [depth, deliver, List.length_append, List.length_map, List.length_take, List.length_drop]
      omega
    exact same ▸ bound

theorem Control.quiet (control : s.Control) (free : s.delivering = false) : s.run.calls = false := by
  rw [(control.idle free).1]
  rfl

theorem carries_schedule (control : s.Control) : Carries o s (schedule o s) := by
  rcases schedule_cases o s with ⟨same, _⟩ | ⟨free, full, _, started⟩ | ⟨_, _, _, armed⟩
  · rw [same]
    exact .refl s
  · rw [started]
    exact Carries.after (carries_deliver full (control.quiet free)) rfl le_rfl
  · rw [armed]
    exact .congr rfl le_rfl

theorem carries_startRun (control : s.Control) : Carries o s (startRun o s) := by
  rcases startRun_cases o s with ⟨same, _⟩ | ⟨_, _, woken⟩ | ⟨free, full, started⟩
  · rw [same]
    exact .refl s
  · rw [woken]
    exact .congr rfl le_rfl
  · rw [started]
    exact Carries.after (carries_deliver full (control.quiet free)) rfl le_rfl

theorem carries_resumeRun (control : s.Control) (paused : s.run = .delivered) :
    Carries o s (resumeRun o s) := by
  have idle : s.run.calls = false := by rw [paused]; rfl
  rcases resumeRun_cases o s with ⟨full, _, next⟩ | ⟨_, woken⟩ | ⟨_, rescheduled⟩
  · rw [next]
    exact carries_deliver full idle
  · rw [woken]
    exact .congr (by simp only [traffic, idle]; rfl) le_rfl
  · have located := control.located
    rw [paused] at located
    have ended : Control { s with delivering := false, run := .idle } :=
      ⟨⟨rfl, located.2.1, located.2.2⟩, control.nodup⟩
    rw [rescheduled]
    exact (carries_schedule ended).after (by simp only [traffic, idle]; rfl) le_rfl

theorem carries_notifyFailure (ref : Option Ref) (failure : FailedRecord R) (s : State R) :
    Carries o s (notifyFailure o ref failure s) := by
  unfold notifyFailure
  split_ifs
  · exact .refl s
  · exact .congr rfl le_rfl

theorem carries_settleItem (ref : Ref) (terminal : Terminal) (s : State R) :
    Carries o s (settleItem ref terminal s) :=
  .congr rfl (by simp [depth, settleItem, count])

theorem carries_markSent (ref : Ref) (s : State R) : Carries o s (markSent ref s) := by
  unfold markSent
  split_ifs
  · exact carries_settleItem ref .sent s
  · exact .refl s

theorem carries_fail (ref : Ref) (disposition : Disposition) (reason : FailureReason)
    (retryable : Bool) (detail : Option String) (s : State R) :
    Carries o s (fail o ref disposition reason retryable detail s) := by
  unfold fail
  split
  · exact .refl s
  · exact (carries_settleItem ref _ s).trans (carries_notifyFailure _ _ _)

/-- A submission is refused when the queue is full, so an accepted one fits. -/
theorem carries_submit (control : s.Control) (opened : s.aborted = false) (record : R) :
    Carries o s (submit o record s) := by
  rcases submit_cases o record s with ⟨_, same⟩ | ⟨room, same⟩ <;> rw [same]
  · exact ⟨.single .refuse, id⟩
  · have accepted : (enqueue record s).traffic = s.traffic.accept := by
      simp [traffic, Traffic.accept, queueRefs, enqueue]
    refine Carries.trans ⟨?_, fun _ => ?_⟩ (carries_schedule (control.congr rfl rfl rfl rfl))
    · exact .single (accepted ▸ .accept opened)
    · simp only [depth, enqueue, List.length_append, List.length_singleton] at room ⊢
      omega

theorem carries_drain (control : s.Control) (forFlush : Bool) : Carries o s (drain o forFlush s) := by
  have waiting : (awaitIdle forFlush s).Control := control.congr rfl rfl rfl rfl
  exact (carries_schedule waiting).after rfl le_rfl

theorem carries_flush (control : s.Control) : Carries o s (flush o s) := by
  rcases flush_cases o s with ⟨_, same⟩ | ⟨_, _, same⟩ <;> rw [same]
  · exact carries_drain control true
  · exact .congr rfl le_rfl

theorem carries_beginShutdown (control : s.Control) : Carries o s (beginShutdown o s) := by
  rcases beginShutdown_cases o s with ⟨_, same⟩ | ⟨_, _, _, same⟩ | ⟨_, _, same⟩ <;> rw [same]
  · exact .refl s
  · exact .push _ s
  · have begun : (stopping_ s).Control := control.congr rfl rfl rfl rfl
    exact (carries_drain begun false).after rfl le_rfl

theorem carries_record (record : R) (verdict : Verdict) (s : State R) :
    Carries o s (State.record record verdict s) := by
  unfold State.record
  split_ifs
  · exact .refl s
  · cases verdict <;> exact .push _ s

theorem carries_abandonQueued (queued : List (Queued R)) (dropped : Nat) (s : State R) :
    Carries o s (abandonQueued o queued dropped s) := by
  cases queued with
  | nil => exact .push _ s
  | cons q rest => exact (carries_notifyFailure _ _ _).after rfl le_rfl

theorem carries_abandonInFlight (pending : List Ref) (dropped unknown : Nat) (s : State R) :
    Carries o s (abandonInFlight o pending dropped unknown s) := by
  cases pending with
  | nil =>
    simp only [abandonInFlight]
    split_ifs
    · exact .push _ s
    · exact .refl s
  | cons ref rest => exact (Carries.push _ s).trans (carries_fail _ _ _ _ _ _)

/-- Every step of the machine is some steps of the batching queue, within the bound. -/
theorem Move.carries [AudrRecord R] {act : Act R} (move : Move o s act t) (sound : s.Sound) :
    Carries o s t := by
  have control := sound.control
  cases move with
  | submit top =>
    have fits := sound.halting.top_fits top
    have opened : s.aborted = false := by simpa [Op.fits] using fits
    exact (Carries.pop _ s).trans (carries_submit (control.pop top rfl) opened _)
  | reportInvalid top => exact (Carries.pop _ s).trans (carries_notifyFailure _ _ _)
  | queueFull top => exact (carries_notifyFailure _ _ _).after rfl le_rfl
  | returned top => exact .congr rfl le_rfl
  | endNotify top => exact .congr rfl le_rfl
  | fail top => exact (Carries.pop _ s).trans (carries_fail _ _ _ _ _ _)
  | markSent top => exact (Carries.pop _ s).trans (carries_markSent _ _)
  | notifyDelivered top =>
    unfold State.notifyDelivered
    split_ifs <;> exact .congr rfl le_rfl
  | concludeItem top => exact (carries_fail _ _ _ _ _ _).after rfl le_rfl
  | release top =>
    have idle : s.run.calls = false := by
      rw [(control.concluding top).1]
      rfl
    refine .congr (by simp only [traffic, idle]; rfl) ?_
    exact Nat.add_le_add_left (List.length_filter_le _ _) _
  | idleCheck top =>
    unfold State.idleCheck
    split_ifs <;> exact .congr rfl le_rfl
  | assignStopping top => exact .congr rfl le_rfl
  | assignShutdown top => exact .congr rfl le_rfl
  | abandonOutstanding top =>
    have fits := sound.halting.top_fits top
    exact ⟨.single (.discard fits), fun bound => le_trans (by simp [depth, State.abandonOutstanding, State.push, State.pop]) bound⟩
  | abandonQueued top => exact (Carries.pop _ s).trans (carries_abandonQueued _ _ _)
  | abandonInFlight top => exact (Carries.pop _ s).trans (carries_abandonInFlight _ _ _ _)
  | record top => exact carries_record _ _ s
  | flush top => exact carries_flush control
  | shutdown top => exact carries_beginShutdown control
  | sinkThrows top calling =>
    have busy : s.traffic.calling = true := by
      simp only [traffic, calling]
      rfl
    exact ⟨.single (.answer busy), id⟩
  | sinkReturns top calling exits => exact .congr (by simp only [traffic, calling]; rfl) le_rfl
  | callbackThrows top other => exact .congr rfl le_rfl
  | callbackPromises top other => exact .congr rfl le_rfl
  | leaves top other => exact .congr rfl le_rfl
  | task top => exact .push _ s
  | lingerFires top armed =>
    have unarmed : { s with lingerTimer := Timer.unset }.Control := control.congr rfl rfl rfl rfl
    exact (carries_startRun unarmed).after rfl le_rfl
  | sinkSettles top awaiting =>
    have busy : s.traffic.calling = true := by
      simp only [traffic, awaiting]
      rfl
    obtain ⟨ops, batches, _, same⟩ := answer_cases _ _ s
    rw [same]
    exact ⟨.single (.answer busy), id⟩
  | runResumes top paused => exact carries_resumeRun control paused
  | drainSettles top found waiting truthful => exact .congr rfl le_rfl
  | stopAborts top found drained settled => exact ⟨.single .close, id⟩
  | stopCloses top found owns => exact .congr rfl le_rfl
  | stopEnds top found last => exact .congr rfl le_rfl
  | stopWaitSettles top found waiting truthful => exact .congr rfl le_rfl
  | callbackSettles top pending => exact .congr rfl le_rfl

end State

variable [AudrRecord R] {o : Options} {labels : List (Act R)} {s : State R}

omit [AudrRecord R] in
theorem State.disciplined_initial : Disciplined o.batchMaxSize false (initial R).traffic :=
  ⟨nofun, .refl _, fun _ => rfl, fun _ => List.prefix_refl _, .nil, nofun, rfl⟩

theorem carries_run (run : Reaches o labels s) :
    Disciplined o.batchMaxSize false s.traffic ∧ s.depth ≤ o.maxQueueSize := by
  have both : s.Sound ∧ Disciplined o.batchMaxSize false s.traffic ∧ s.depth ≤ o.maxQueueSize := by
    refine run.invariant (fun s => s.Sound ∧ Disciplined o.batchMaxSize false s.traffic ∧
      s.depth ≤ o.maxQueueSize) ⟨State.sound_initial, State.disciplined_initial, Nat.zero_le _⟩ ?_
    rintro before label after ⟨sound, disciplined, bound⟩ _ taken
    have move := State.step_moves taken
    have carries := move.carries sound
    exact ⟨sound.move move, Batching.disciplined_steps carries.steps disciplined, carries.bound bound⟩
  exact both.2

/-- The discipline owed to sinks, in every state of every run. -/
theorem batch_discipline (run : Reaches o labels s) :
    (∀ batch ∈ s.handed, batch ≠ [] ∧ batch.length ≤ o.batchMaxSize) ∧
    s.answered ≤ s.handed.length ∧ s.handed.length ≤ s.answered + 1 ∧
    s.handed.flatten <+: s.accepted ∧ s.accepted.Pairwise (· < ·) ∧
    s.queue.length + s.inFlight.length ≤ o.maxQueueSize := by
  obtain ⟨disciplined, bound⟩ := carries_run run
  refine ⟨disciplined.sizes, ?_, disciplined.single, disciplined.handed_prefix, disciplined.rising, bound⟩
  have flight : s.handed.length = _ := disciplined.flight
  exact flight ▸ Nat.le_add_right _ _

/-- A client with room for three records, delivered two by two. -/
def pairOptions : Options := ⟨3, 2, true, true, true, by decide, Nat.two_pos, by decide⟩

/-- A full batch goes out, a fourth record finds no room, and the timer sends the third. -/
def pairLabels : List (Act String) :=
  [.task, .record "a" .valid, .leave .returns, .next, .next, .record "b" .valid, .leave .returns,
    .next, .leave .returnsPromise, .next, .record "c" .valid, .leave .returns, .next, .next,
    .record "d" .valid, .leave .returns, .next, .leave .returns, .next, .leave .returns, .next,
    .next, .leave .returns, .sinkSettles (.result (.failed true none)), .leave .returns, .next,
    .leave .returns, .next, .next, .leave .returns, .next, .next, .next, .next, .runResumes,
    .lingerFires]

def paired : State String :=
  (Transition.execute (step pairOptions) (initial String) pairLabels).getD (initial String)

theorem batch_discipline_pairs :
    paired.handed = [[0, 1], [2]] ∧ paired.handed.length ≤ paired.answered + 1 ∧
      paired.handed.flatten <+: paired.accepted := by
  have run : Reaches pairOptions pairLabels paired := Run.of_execute rfl
  obtain ⟨_, _, single, order, _⟩ := batch_discipline run
  exact ⟨rfl, single, order⟩

end Audr.Pipeline
