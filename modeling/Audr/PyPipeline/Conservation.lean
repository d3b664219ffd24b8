import Audr.Lib.Transition
import Audr.PyPipeline.Books
import Audr.PyPipeline.Turns

/-! Accounting conservation of the Python pipeline. No record is counted twice in any
run. A record is lost exactly where the worker is cancelled after its helper task has
taken a record off the queue; in every other run a stop that ends leaves nothing open. -/

namespace Audr.PyPipeline

open Transition (Run anyStep)

variable {R : Type}

/-- `stop` has been through its abandonment. -/
def StopAt.past : StopAt → Bool
  | .closing _ => true
  | .ended _ => true
  | _ => false

theorem StopAt.past_join (at_ : StopAt) : at_.join.past = at_.past := by
  cases at_ <;> rfl

namespace State

/-- What holds between any two steps of the pipeline. -/
structure Sound (s : State R) : Prop where
  control : s.Control
  balanced : s.ledger.Balanced
  counted : s.Counted

variable {s t : State R} {o : Options}

theorem sound_initial : (initial R).Sound := ⟨control_initial, rfl, ⟨rfl, rfl, rfl⟩⟩

theorem Sound.move [AudrRecord R] {act : Act R} (sound : s.Sound) (move : Move o s act t) : t.Sound := by
  refine ⟨sound.control.move move, ?_, ?_⟩
  · rcases move.books sound.control with ⟨_, _, books⟩ | books
    · exact Accounts.balanced_steps books.steps sound.balanced
    · exact Accounts.balanced_steps books.steps sound.balanced
  · rcases move.books sound.control with ⟨_, _, books⟩ | books
    · exact books.counted sound.counted
    · exact books.counted sound.counted

theorem held_card (s : State R) : s.held.card = s.queue.length + s.worker.popped.length +
    (liveRefs s.inFlight).length + s.lost.length := by
  simp only [held, queueRefs, Multiset.card_add, Multiset.coe_card, List.length_map]

/-- Every submitted record is counted, or is in one of four places. -/
theorem Sound.total (sound : s.Sound) :
    s.submitted = s.sent + s.dropped + s.unknown + s.queue.length + s.worker.popped.length +
      (liveRefs s.inFlight).length + s.lost.length := by
  have sizes : s.submitted = s.held.card + s.settled.length := sound.balanced.card_eq
  have outstanding := s.held_card
  have counted := sound.counted.total
  omega

theorem held_none (queue : s.queue = []) (popped : s.worker.popped = []) (live : liveRefs s.inFlight = [])
    (lost : s.lost = []) : s.held = 0 := by
  simp [held, queueRefs, queue, popped, live, lost]

/-- A submission that is refused is counted at once. -/
theorem held_refused {record : R} (items : (submit o record s).inFlight = s.inFlight)
    (refused : Accounted { s with submitted := s.submitted + 1 } (submit o record s)) :
    (submit o record s).held = s.held := by
  have queue : _ = s.queue := congrArg (fun s => s.queue) refused.frame
  have worker : _ = s.worker := congrArg (fun s => s.worker) refused.frame
  have lost : _ = s.lost := congrArg (fun s => s.lost) refused.frame
  simp only [frame] at queue worker lost
  simp only [held, queueRefs, queue, worker, items, lost]

/-- Nothing held stays nothing held, once submissions are refused. -/
theorem held_zero [AudrRecord R] {act : Act R} (sound : s.Sound) (called : s.stop ≠ .notCalled)
    (empty : s.held = 0) (move : Move o s act t) : t.held = 0 := by
  rcases move.books sound.control with ⟨record, rfl, _⟩ | books
  · cases move with
    | submit top =>
      rcases submit_cases o record s with ⟨_, refused, items⟩ | ⟨running, _⟩
      · rw [held_refused items refused, empty]
      · rw [(sound.control.phased.halted called).2] at running
        cases running
  · refine Multiset.eq_zero_of_forall_notMem fun ref member => ?_
    have after := Accounts.balanced_steps books.steps sound.balanced
    have known : ref < t.submitted := after.lt_issued.mpr (.inl member)
    rw [books.taken, Nat.add_zero] at known
    have closed := sound.balanced.all_closed empty known
    have still : ref ∈ t.ledger.closedTokens :=
      ((Accounts.closed_prefix books.steps).sublist.map Prod.fst).subset closed
    exact after.not_held still member

/-- Nothing is queued and nothing is in flight. -/
def quiet (s : State R) : Bool := s.queue.isEmpty && (liveRefs s.inFlight).isEmpty

theorem quiet_iff : s.quiet = true ↔ s.queue = [] ∧ liveRefs s.inFlight = [] := by
  simp [quiet]

/-- The steps that leave no record behind: the worker is not cancelled while its helper
task holds a record, and the shutdown is not torn down, by an exception a callback lets
escape or by a cancellation of the task that waits for the worker, while there is
something to abandon. -/
def keepsTrack (s : State R) : Act R → Bool
  | .workerCancelled => s.worker.popped.isEmpty
  | .workerGathered => s.stop != .interrupted || s.quiet
  | .leave .escapes =>
      match s.catcher with
      | .closeSink _ :: _ => s.quiet
      | _ => true
  | _ => true

/-- Nothing is lost, and a stop that is past its abandonment has left nothing open. -/
structure Kept (s : State R) : Prop where
  lost : s.lost = []
  past : s.stop.past = true → s.held = 0

theorem gone_popped {worker : WorkerAt R} (gone : worker.gone = true) : worker.popped = [] := by
  cases worker <;> first | rfl | cases gone

theorem past_called {at_ : StopAt} (past : at_.past = true) : at_ ≠ .notCalled := by
  rintro rfl
  cases past

theorem collect_stop (o : Options) (batch : List Ref) (expired : Bool) (s : State R) :
    (collect o batch expired s).lost = s.lost ∧ (collect o batch expired s).stop = s.stop := by
  rcases collect_cases o batch expired s with ⟨size, _, out⟩ | ⟨_, _, _, waits⟩
  · rw [out]
    exact ⟨rfl, rfl⟩
  · rw [waits]
    exact ⟨rfl, rfl⟩

theorem finish_stop (batch : List Ref) (raising : Bool) (s : State R) :
    (finish batch raising s).lost = s.lost ∧ (finish batch raising s).stop.past = s.stop.past := by
  rcases tasksDone_cases batch s with done | ⟨_, done⟩ <;> rw [finish, done]
  · exact ⟨rfl, rfl⟩
  · exact ⟨rfl, s.stop.past_join⟩

theorem abandonQueue_stop (o : Options) (s : State R) :
    (abandonQueue o s).lost = s.lost ∧ (abandonQueue o s).stop.past = s.stop.past := by
  rcases abandonQueue_cases o s with ⟨q, rest, _, same⟩ | ⟨_, same⟩
  · have lost : _ = (taskDone { s with queue := rest }).lost := congrArg (fun s => s.lost) same
    have stop : _ = (taskDone { s with queue := rest }).stop := congrArg (fun s => s.stop) same
    simp only [frame] at lost stop
    rcases taskDone_cases { s with queue := rest } with done | ⟨_, done⟩ <;> rw [lost, stop, done]
    · exact ⟨rfl, rfl⟩
    · exact ⟨rfl, s.stop.past_join⟩
  · have lost : _ = s.lost := congrArg (fun s => s.lost) same
    have stop : _ = s.stop := congrArg (fun s => s.stop) same
    exact ⟨lost, congrArg StopAt.past stop⟩

/-- No permitted step loses a record, and the abandonment of a stop ends with nothing held. -/
theorem Kept.turn [AudrRecord R] {act : Act R} (kept : s.Kept) (permitted : s.keepsTrack act = true)
    (turn : Turn o s act t) : t.lost = [] ∧ (t.stop.past = true → s.stop.past = true ∨ t.held = 0) := by
  have lost := kept.lost
  have same (lost' : t.lost = s.lost) (stop : t.stop.past = s.stop.past) :
      t.lost = [] ∧ (t.stop.past = true → s.stop.past = true ∨ t.held = 0) :=
    ⟨lost'.trans lost, fun past => .inl (stop ▸ past)⟩
  cases turn with
  | @finish batch raising =>
    obtain ⟨lost', stop⟩ := finish_stop batch raising (s.pop [])
    exact same lost' stop
  | @abandonQueue rest =>
    obtain ⟨lost', stop⟩ := abandonQueue_stop o (s.pop rest)
    exact same lost' stop
  | @shutdown raising =>
    unfold State.shutdown
    split_ifs
    · exact ⟨lost, fun past => .inl past⟩
    · exact ⟨lost, fun past => by cases past⟩
  | closeSink gone queue live => exact ⟨lost, fun _ => .inr (held_none queue (gone_popped gone) live lost)⟩
  | @submit record =>
    rcases submit_cases o record s with ⟨_, refused, _⟩ | ⟨_, _, queued⟩
    · have lost' : _ = s.lost := congrArg (fun s => s.lost) refused.frame
      have stop : _ = s.stop := congrArg (fun s => s.stop) refused.frame
      exact same lost' (congrArg StopAt.past stop)
    · rw [queued]
      exact ⟨lost, fun past => .inl past⟩
  | flush =>
    unfold State.flush
    split_ifs <;> exact ⟨lost, fun past => .inl past⟩
  | stop =>
    unfold State.beginStop
    split_ifs
    · exact ⟨lost, fun past => .inl past⟩
    · exact ⟨lost, fun past => by cases past⟩
  | start =>
    unfold State.start
    split_ifs <;> exact ⟨lost, fun past => .inl past⟩
  | @spills pending batch raising =>
    obtain ⟨lost', stop⟩ := finish_stop batch true (s.pop [])
    exact same lost' stop
  | tears caught gone =>
    have none : s.quiet = true := by simpa [keepsTrack, caught] using permitted
    obtain ⟨queue, live⟩ := quiet_iff.mp none
    exact ⟨lost, fun _ => .inr (held_none queue (gone_popped gone) live lost)⟩
  | workerGets =>
    obtain ⟨lost', stop⟩ := collect_stop o _ _ _
    exact same lost' (congrArg StopAt.past stop)
  | reclaimedRecord =>
    obtain ⟨lost', stop⟩ := collect_stop o _ _ _
    exact same lost' (congrArg StopAt.past stop)
  | @cancelledReclaiming batch popped at_ =>
    have empty : popped = none := by simpa [keepsTrack, at_, WorkerAt.popped] using permitted
    subst empty
    exact ⟨by simpa using lost, fun past => .inl past⟩
  | stopInterrupted at_ => exact ⟨lost, fun past => by cases past⟩
  | stopCancelledClosing at_ => exact ⟨lost, fun _ => .inl (by rw [at_]; rfl)⟩
  | gatherRaises ended at_ =>
    have none : s.quiet = true := by simpa [keepsTrack, at_] using permitted
    obtain ⟨queue, live⟩ := quiet_iff.mp none
    exact ⟨lost, fun _ => .inr (held_none queue (by rw [ended]; rfl) live lost)⟩
  | closeSettles at_ => exact ⟨lost, fun _ => .inl (by rw [at_]; rfl)⟩
  | _ => exact ⟨lost, fun past => .inl past⟩

theorem Kept.move [AudrRecord R] {act : Act R} (kept : s.Kept) (sound : s.Sound)
    (permitted : s.keepsTrack act = true) (move : Move o s act t) : t.Kept := by
  have next : t.lost = [] ∧ (t.stop.past = true → s.stop.past = true ∨ t.held = 0) := by
    rcases move.turn sound.control with ⟨same, _, _⟩ | turn
    · have lost : t.lost = s.lost := congrArg (fun s => s.lost) same
      have stop : t.stop = s.stop := congrArg (fun s => s.stop) same
      exact ⟨lost.trans kept.lost, fun past => .inl (stop ▸ past)⟩
    · exact kept.turn permitted turn
  refine ⟨next.1, fun past => ?_⟩
  rcases next.2 past with before | empty
  · exact held_zero sound (past_called before) (kept.past before) move
  · exact empty

theorem kept_initial : (initial R).Kept := ⟨rfl, nofun⟩

end State

/-- The states a pipeline can be in, with the labels of the steps that lead there. -/
abbrev Reaches [AudrRecord R] (o : Options) (labels : List (Act R)) (s : State R) : Prop :=
  Run (step o) anyStep (initial R) labels s

/-- The same by steps that leave no record behind. -/
abbrev ReachesKeeping [AudrRecord R] (o : Options) (labels : List (Act R)) (s : State R) : Prop :=
  Run (step o) (fun s act => s.keepsTrack act = true) (initial R) labels s

variable [AudrRecord R] {o : Options} {labels : List (Act R)} {s : State R}

theorem sound_run (run : Reaches o labels s) : s.Sound :=
  run.invariant State.Sound State.sound_initial fun _ _ _ sound _ taken => sound.move (State.step_moves taken)

/-- No record ends twice, in whatever order the tasks go on. -/
theorem counted_once (run : Reaches o labels s) :
    (s.settled.map Prod.fst).Nodup ∧ Tallied s.settled s.sent s.dropped s.unknown :=
  ⟨(sound_run run).balanced.closed_nodup, (sound_run run).counted⟩

theorem kept_run (run : ReachesKeeping o labels s) : s.Sound ∧ s.Kept := by
  refine run.invariant (fun s => s.Sound ∧ s.Kept) ⟨State.sound_initial, State.kept_initial⟩ ?_
  rintro before label after ⟨sound, kept⟩ permitted taken
  have move := State.step_moves taken
  exact ⟨sound.move move, kept.move sound permitted move⟩

/-- As long as no step leaves a record behind, each one submitted is counted once or is
where the pipeline will find it; and a stop that has ended has counted them all. -/
theorem no_record_lost (run : ReachesKeeping o labels s) :
    (s.settled.map Prod.fst).Nodup ∧
    (s.sent = endedAs .sent s.settled ∧ s.dropped = endedAs .dropped s.settled ∧
      s.unknown = endedAs .unknown s.settled) ∧
    s.submitted = s.sent + s.dropped + s.unknown + s.queue.length + s.worker.popped.length +
      (liveRefs s.inFlight).length ∧
    ∀ raising, s.stop = .ended raising → s.submitted = s.sent + s.dropped + s.unknown := by
  obtain ⟨sound, kept⟩ := kept_run run
  have total := sound.total
  rw [kept.lost, List.length_nil, Nat.add_zero] at total
  refine ⟨sound.balanced.closed_nodup, ⟨sound.counted.sent, sound.counted.dropped, sound.counted.unknown⟩,
    total, fun raising ended => ?_⟩
  have empty := kept.past (by rw [ended]; rfl)
  have sizes : s.submitted = s.held.card + s.settled.length := sound.balanced.card_eq
  have counted := sound.counted.total
  rw [empty, Multiset.card_zero] at sizes
  omega

/-- A pipeline with room for two records, which it delivers in pairs. -/
def smallOptions : Options := ⟨2, 2, true, true, true, Nat.two_pos, Nat.two_pos, by decide⟩

/-- The worker lingers with one record when a second is submitted and a stop times out;
the helper task has the second before the cancellation arrives. -/
def lossLabels : List (Act String) :=
  [.task, .start, .submit "a", .leave .returns, .workerGets false, .task, .submit "b", .stop,
    .leave .returns, .getTaskPops, .stopDrains true, .next, .next, .leave .returns, .next, .next,
    .lingerReturns, .workerCancelled, .workerGathered, .next, .next, .next, .next, .closeSettles false]

def loss : State String :=
  (Transition.execute (step smallOptions) (initial String) lossLabels).getD (initial String)

/-- The second record is counted nowhere after the stop has ended. -/
theorem record_lost : Reaches smallOptions lossLabels loss ∧ loss.stop = .ended false ∧
    loss.submitted = 2 ∧ loss.sent + loss.dropped + loss.unknown = 1 :=
  ⟨Run.of_execute rfl, rfl, rfl, rfl⟩

/-- The same, but the worker goes on before the stop times out: it delivers the pair. -/
def keptLabels : List (Act String) :=
  [.task, .start, .submit "a", .leave .returns, .workerGets false, .task, .submit "b", .stop,
    .leave .returns, .getTaskPops, .lingerReturns, .reclaimed false, .stopDrains true, .next, .next,
    .leave .returns, .next, .leave .raises, .next, .next, .sinkAnswers .cancelled, .next, .next, .next,
    .next, .next, .next, .next, .next, .workerGathered, .next, .next, .next, .closeSettles false]

def keptAll : State String :=
  (Transition.executeWithin (step smallOptions) (fun s act => s.keepsTrack act = true) (initial String)
    keptLabels).getD (initial String)

theorem no_record_lost_pair : keptAll.stop = .ended false ∧ keptAll.submitted = 2 ∧
    keptAll.submitted = keptAll.sent + keptAll.dropped + keptAll.unknown := by
  have run : ReachesKeeping smallOptions keptLabels keptAll := Run.of_executeWithin rfl
  have ended : keptAll.stop = .ended false := rfl
  exact ⟨ended, rfl, (no_record_lost run).2.2.2 false ended⟩

end Audr.PyPipeline
