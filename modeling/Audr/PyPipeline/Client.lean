import Audr.PyPipeline.Conservation

/-! The Python client in front of its pipeline, with an `on_failure` callback that records each
failed record once more. Nothing but the interpreter's limit on nested calls ends that for a
record that stays invalid, or that stays in front of a full queue. -/

namespace Audr.PyPipeline

open Transition (Run anyStep)

/-- An `AUDR`, as far as the client looks into it: its emitter, and all the rest. -/
structure Stamped (E B : Type) where
  emitter : Option E
  body : B
  deriving DecidableEq, Repr

/-- What `record` is called with: a record, or a mapping and what `from_dict` makes of it. -/
inductive Input (R : Type) where
  | model (record : R)
  | mapping (parsed : Option R)
  deriving DecidableEq, Repr

/-- The outcomes `Client.record` returns. -/
inductive Outcome where
  | queued
  | rejectedInvalid
  | droppedQueueFull
  | droppedNotRunning
  deriving DecidableEq, Repr

/-- The fields of `Client` that change, with how often it has validated a record, and how often
`on_failure` was called within calls of `record`. -/
structure Client (R : Type) where
  pipeline : State R
  shutdownDone : Bool
  readings : Nat
  notified : Nat

variable {E B R : Type}

def Input.parsed : Input R → Option R
  | .model record => some record
  | .mapping parsed => parsed

/-- The record with the client's emitter, unless it has one. -/
def stamp (emitter : Option E) (record : Stamped E B) : Stamped E B :=
  if record.emitter.isNone then { record with emitter := emitter } else record

namespace State

/-- The pipeline runs once it was asked to, and its queue has room. -/
def accepts (o : Options) (s : State R) : Bool := (s.running || !s.stopped) && s.currentDepth < o.maxQueueSize

/-- The callback that runs returns. -/
def callbackReturns (s : State R) : State R := s.pop s.todo.tail

/-- `submit` returns what it was about to. -/
def submitReturns (s : State R) : State R :=
  match s.todo with
  | .returned ref outcome :: rest => { s.pop rest with returned := s.returned ++ [(ref, outcome)] }
  | _ => s

end State

section Recording

variable (o : Options) (emitter : Option E) (valid : Nat → Stamped E B → Bool)

/-- `Client.record`, with a callback that calls `client.record(failure.record)`, where the
interpreter admits so many nested calls. Past the limit a call raises, and the code around the
callback catches that. Whether a record is valid depends on the clock, so on when it is read. -/
def record : Nat → Input (Stamped E B) → Client (Stamped E B) → Client (Stamped E B) × Option Outcome
  | 0, _, client => (client, none)
  | limit + 1, input, client =>
      if client.shutdownDone then (client, some .droppedNotRunning)
      else
        let s := client.pipeline.start
        match input.parsed with
        | none => ({ client with pipeline := s }, some .rejectedInvalid)
        | some model =>
            let model := stamp emitter model
            if valid client.readings model then
              let submitted := { client with pipeline := State.submit o model s, readings := client.readings + 1 }
              if s.accepts o then (submitted, some .queued)
              else
                let after :=
                  if o.onFailure then
                    let called := (record limit (.model model) { submitted with notified := client.notified + 1 }).1
                    { called with pipeline := called.pipeline.callbackReturns }
                  else submitted
                ({ after with pipeline := after.pipeline.submitReturns },
                  some (if s.running then .droppedQueueFull else .droppedNotRunning))
            else
              let rejected := { client with pipeline := s, readings := client.readings + 1 }
              (if o.onFailure then (record limit (.model model) { rejected with notified := client.notified + 1 }).1
                else rejected, some .rejectedInvalid)

end Recording

namespace State

variable {s : State R} {o : Options}

theorem start_running (s : State R) : s.start.running = (s.running || !s.stopped) := by
  unfold start
  split
  next begun => cases running : s.running <;> simp_all
  next begun => simp_all

theorem start_counts (s : State R) : s.start.submitted = s.submitted ∧ s.start.dropped = s.dropped := by
  unfold start
  split <;> exact ⟨rfl, rfl⟩

theorem accepts_start (s : State R) : s.start.accepts o = s.accepts o := by
  have stopped : s.start.stopped = s.stopped := by
    unfold start
    split <;> rfl
  have depth : s.start.currentDepth = s.currentDepth := by
    unfold start
    split <;> rfl
  rw [accepts, start_running, stopped, depth, accepts]
  cases s.running <;> cases s.stopped <;> rfl

theorem submit_accepted (record : R) (running : s.running = true) (room : s.currentDepth < o.maxQueueSize) :
    (submit o record s).submitted = s.submitted + 1 ∧ (submit o record s).dropped = s.dropped := by
  rw [submit]
  simp [running, State.currentDepth] at room ⊢
  simp [show ¬o.maxQueueSize ≤ s.queue.length + s.inFlight.length by omega]

/-- What a submission that is refused changes. -/
structure Refused (s t : State R) : Prop where
  running : t.running = s.running
  stopped : t.stopped = s.stopped
  depth : t.currentDepth = s.currentDepth
  submitted : t.submitted = s.submitted + 1
  dropped : t.dropped = s.dropped + 1

theorem submit_refused (record : R) (refused : s.running = false ∨ o.maxQueueSize ≤ s.currentDepth) :
    Refused s (submit o record s) := by
  have told : ∀ ref outcome failure, Refused s (notifyFailure o ref failure
      (push [.returned ref outcome] (count ref .dropped { s with submitted := s.submitted + 1 }))) := by
    intro ref outcome failure
    unfold notifyFailure
    split <;> exact ⟨rfl, rfl, rfl, rfl, rfl⟩
  unfold submit
  dsimp only
  split
  · exact told _ _ _
  next running =>
    split
    · exact told _ _ _
    next room => exact absurd refused (by simpa using ⟨by simpa using running, by simpa [State.currentDepth] using room⟩)

theorem accepts_started (s : State R) :
    s.accepts o = true ↔ s.start.running = true ∧ s.start.currentDepth < o.maxQueueSize := by
  rw [← accepts_start, accepts, Bool.and_eq_true, decide_eq_true_eq, Bool.or_eq_true]
  refine and_congr_left fun _ => or_iff_left_of_imp fun going => ?_
  unfold start at going ⊢
  split at going <;> simp_all

end State

section Bounds

variable {o : Options} {emitter : Option E} {valid : Nat → Stamped E B → Bool}

theorem stamp_stamp (model : Stamped E B) : stamp emitter (stamp emitter model) = stamp emitter model := by
  obtain ⟨mine, body⟩ := model
  cases mine <;> cases emitter <;> rfl

/-! One call of `record`. -/

variable {limit : Nat} {input : Input (Stamped E B)} {client : Client (Stamped E B)} {model : Stamped E B}

theorem record_shut (done : client.shutdownDone = true) :
    record o emitter valid (limit + 1) input client = (client, some .droppedNotRunning) := by
  rw [record, if_pos done]

theorem record_unparsed (going : client.shutdownDone = false) (none : input.parsed = none) :
    (record o emitter valid (limit + 1) input client).1 = { client with pipeline := client.pipeline.start } := by
  simp [record, going, none]

theorem record_invalid (going : client.shutdownDone = false) (parsed : input.parsed.map (stamp emitter) = some model)
    (callback : o.onFailure = true) (invalid : valid client.readings model = false) :
    (record o emitter valid (limit + 1) input client).1 =
      (record o emitter valid limit (.model model)
        { client with
          pipeline := client.pipeline.start
          readings := client.readings + 1
          notified := client.notified + 1 }).1 := by
  obtain ⟨given, found, rfl⟩ := Option.map_eq_some_iff.mp parsed
  simp [record, going, found, invalid, callback]

theorem record_queued (going : client.shutdownDone = false) (parsed : input.parsed.map (stamp emitter) = some model)
    (passes : valid client.readings model = true) (accepts : client.pipeline.accepts o = true) :
    (record o emitter valid (limit + 1) input client).1 =
      { client with
        pipeline := State.submit o model client.pipeline.start
        readings := client.readings + 1 } := by
  obtain ⟨given, found, rfl⟩ := Option.map_eq_some_iff.mp parsed
  simp [record, going, found, passes, State.accepts_start, accepts]

theorem record_refused (going : client.shutdownDone = false) (parsed : input.parsed.map (stamp emitter) = some model)
    (callback : o.onFailure = true) (passes : valid client.readings model = true) (full : client.pipeline.accepts o = false) :
    let called := (record o emitter valid limit (.model model)
      { client with
        pipeline := State.submit o model client.pipeline.start
        readings := client.readings + 1
        notified := client.notified + 1 }).1
    (record o emitter valid (limit + 1) input client).1 =
      { called with pipeline := called.pipeline.callbackReturns.submitReturns } := by
  obtain ⟨given, found, rfl⟩ := Option.map_eq_some_iff.mp parsed
  simp [record, going, found, passes, State.accepts_start, full, callback]

/-- What happened since grew by no more than so much. -/
structure Grows (bound : Nat) (before after : Client R) : Prop where
  notified : after.notified ≤ before.notified + bound
  submitted : after.pipeline.submitted ≤ before.pipeline.submitted + bound
  dropped : after.pipeline.dropped ≤ before.pipeline.dropped + bound

theorem Grows.refl (bound : Nat) (client : Client R) : Grows bound client client := ⟨by omega, by omega, by omega⟩

theorem grows_queued (bound : Nat) (accepts : client.pipeline.accepts o = true) :
    Grows (bound + 1) client
      { client with
        pipeline := State.submit o model client.pipeline.start
        readings := client.readings + 1 } := by
  obtain ⟨running, room⟩ := (State.accepts_started client.pipeline).mp accepts
  obtain ⟨submitted, dropped⟩ := State.submit_accepted model running room
  obtain ⟨same, same'⟩ := State.start_counts client.pipeline
  exact ⟨by dsimp only; omega, by dsimp only; omega, by dsimp only; omega⟩

/-- A call ends with few calls of the callback, whatever the interpreter's limit. -/
def Bounded (o : Options) (emitter : Option E) (valid : Nat → Stamped E B → Bool) (input : Input (Stamped E B))
    (client : Client (Stamped E B)) : Prop :=
  ∃ bound, ∀ limit, Grows bound client (record o emitter valid limit input client).1

/-- A record that is going to be queued: there is room, and it is valid now or at a later look. -/
def Queueable (o : Options) (valid : Nat → Stamped E B → Bool) (model : Stamped E B) (client : Client (Stamped E B)) :
    Prop :=
  client.pipeline.accepts o = true ∧ ∃ reading, client.readings ≤ reading ∧ valid reading model = true

/-- A record that nothing is going to become of is recorded again as often as the interpreter admits. -/
theorem record_again (callback : o.onFailure = true) (limit : Nat) :
    ∀ (input : Input (Stamped E B)) (client : Client (Stamped E B)), client.shutdownDone = false →
      input.parsed.map (stamp emitter) = some model → ¬Queueable o valid model client →
        client.notified + limit ≤ (record o emitter valid limit input client).1.notified := by
  induction limit with
  | zero => exact fun _ _ _ _ _ => le_rfl
  | succ limit ih =>
    intro input client going parsed stuck
    have stamped : (Input.model model).parsed.map (stamp emitter) = some model := by
      obtain ⟨given, -, rfl⟩ := Option.map_eq_some_iff.mp parsed
      exact congrArg some (stamp_stamp given)
    by_cases passes : valid client.readings model = true
    · -- What is valid now is refused for want of room, and so is all that follows.
      have full : client.pipeline.accepts o = false := by
        by_contra accepts
        exact stuck ⟨by simpa using accepts, client.readings, le_rfl, passes⟩
      have refused := State.submit_refused (s := client.pipeline.start) (o := o) model (by
        by_contra room
        rw [not_or, Bool.not_eq_false, not_le] at room
        rw [(State.accepts_started client.pipeline).mpr room] at full
        cases full)
      rw [record_refused going parsed callback passes full]
      have later := ih (.model model)
        { client with
          pipeline := State.submit o model client.pipeline.start
          readings := client.readings + 1
          notified := client.notified + 1 } going stamped
        (by
          rintro ⟨accepts, -⟩
          have same : (State.submit o model client.pipeline.start).accepts o = client.pipeline.start.accepts o := by
            rw [State.accepts, State.accepts, refused.running, refused.stopped, refused.depth]
          rw [same, State.accepts_start, full] at accepts
          cases accepts)
      dsimp only at later ⊢
      omega
    · rw [record_invalid going parsed callback (by simpa using passes)]
      have later := ih (.model model)
        { client with
          pipeline := client.pipeline.start
          readings := client.readings + 1
          notified := client.notified + 1 } going stamped
        (by
          rintro ⟨accepts, reading, after, passing⟩
          rw [State.accepts_start] at accepts
          exact stuck ⟨accepts, reading, by dsimp only at after; omega, passing⟩)
      dsimp only at later ⊢
      omega

/-- A record that is going to be queued is recorded again until it is valid. -/
theorem record_ends (callback : o.onFailure = true) (distance : Nat) :
    ∀ (limit : Nat) (input : Input (Stamped E B)) (client : Client (Stamped E B)),
      input.parsed.map (stamp emitter) = some model → client.pipeline.accepts o = true →
        valid (client.readings + distance) model = true →
          Grows (distance + 1) client (record o emitter valid limit input client).1 := by
  induction distance with
  | zero =>
    intro limit input client parsed accepts passes
    cases limit with
    | zero => exact .refl _ client
    | succ limit =>
      by_cases done : client.shutdownDone = true
      · rw [record_shut done]
        exact .refl _ client
      · rw [record_queued (by simpa using done) parsed passes accepts]
        exact grows_queued _ accepts
  | succ distance ih =>
    intro limit input client parsed accepts passes
    cases limit with
    | zero => exact .refl _ client
    | succ limit =>
      by_cases done : client.shutdownDone = true
      · rw [record_shut done]
        exact .refl _ client
      have going : client.shutdownDone = false := by simpa using done
      by_cases now : valid client.readings model = true
      · rw [record_queued going parsed now accepts]
        exact grows_queued _ accepts
      · have stamped : (Input.model model).parsed.map (stamp emitter) = some model := by
          obtain ⟨given, -, rfl⟩ := Option.map_eq_some_iff.mp parsed
          exact congrArg some (stamp_stamp given)
        rw [record_invalid going parsed callback (by simpa using now)]
        have later := ih limit (.model model)
          { client with
            pipeline := client.pipeline.start
            readings := client.readings + 1
            notified := client.notified + 1 } stamped ((State.accepts_start _).trans accepts)
          (by rwa [Nat.add_right_comm, Nat.add_assoc])
        obtain ⟨submitted, dropped⟩ := State.start_counts client.pipeline
        obtain ⟨first, second, third⟩ := later
        dsimp only at first second third
        rw [submitted] at second
        rw [dropped] at third
        exact ⟨by omega, by omega, by omega⟩

/-- With a callback that records each failed record once more, a call of `record` ends after a
number of nested calls that does not depend on the interpreter exactly when the client is shut
down, the mapping does not parse, or there is room for a record that is or becomes valid. -/
theorem record_bounded_iff (o : Options) (emitter : Option E) (valid : Nat → Stamped E B → Bool)
    (input : Input (Stamped E B)) (client : Client (Stamped E B)) (callback : o.onFailure = true) :
    Bounded o emitter valid input client ↔ client.shutdownDone = true ∨ input.parsed = none ∨
      ∃ model ∈ input.parsed, Queueable o valid (stamp emitter model) client := by
  constructor
  · rintro ⟨bound, bounded⟩
    by_contra stuck
    rw [not_or, not_or, Bool.not_eq_true] at stuck
    obtain ⟨going, some, never⟩ := stuck
    obtain ⟨model, parsed⟩ := Option.ne_none_iff_exists'.mp some
    have again := @record_again _ _ _ emitter valid _ callback (bound + 1) input client going
      (by rw [parsed]; rfl) fun queueable => never ⟨model, parsed, queueable⟩
    have few := (bounded (bound + 1)).notified
    omega
  · rintro (done | none | ⟨model, parsed, accepts, reading, later, passes⟩)
    · refine ⟨0, fun limit => ?_⟩
      cases limit with
      | zero => exact .refl 0 client
      | succ limit =>
        rw [record_shut done]
        exact .refl 0 client
    · refine ⟨0, fun limit => ?_⟩
      cases limit with
      | zero => exact .refl 0 client
      | succ limit =>
        by_cases done : client.shutdownDone = true
        · rw [record_shut done]
          exact .refl 0 client
        · rw [record_unparsed (by simpa using done) none]
          obtain ⟨submitted, dropped⟩ := State.start_counts client.pipeline
          exact ⟨le_rfl, submitted.le, dropped.le⟩
    · obtain ⟨distance, rfl⟩ := Nat.exists_eq_add_of_le later
      have parsed : input.parsed.map (stamp emitter) = some (stamp emitter model) := by
        rw [show input.parsed = some model from parsed]
        rfl
      exact ⟨distance + 1, fun limit => record_ends callback distance limit input client parsed accepts passes⟩

end Bounds

/-! What a call of `record` does to the pipeline. -/

instance stampedRecord [AudrRecord B] : AudrRecord (Stamped E B) := ⟨fun record => AudrRecord.recordId record.body⟩

namespace State

variable {s : State R} {o : Options} {site : Site} {rest : List (Op R)}

theorem start_todo (s : State R) : s.start.todo = s.todo := by
  unfold start
  split <;> rfl

/-- A submission that is refused calls the callback before it returns. -/
theorem submit_calls (record : R) (callback : o.onFailure = true)
    (refused : s.running = false ∨ o.maxQueueSize ≤ s.currentDepth) :
    ∃ ref outcome, (submit o record s).todo = .user .onFailure :: .returned ref outcome :: s.todo := by
  have told : ∀ ref failure (t : State R), (notifyFailure o ref failure t).todo = .user .onFailure :: t.todo := by
    intro ref failure t
    rw [notifyFailure, if_pos callback]
  unfold submit
  dsimp only
  split
  · exact ⟨_, _, told _ _ _⟩
  next running =>
    split
    · exact ⟨_, _, told _ _ _⟩
    next room => exact absurd refused (by simpa using ⟨by simpa using running, by simpa [State.currentDepth] using room⟩)

theorem submit_todo (record : R) (running : s.running = true) (room : s.currentDepth < o.maxQueueSize) :
    (submit o record s).todo = s.todo := by
  rcases submit_cases o record s with ⟨refused, -⟩ | ⟨-, -, queued⟩
  · rcases refused with stopped | full
    · rw [running] at stopped
      cases stopped
    · omega
  · rw [queued]

variable [AudrRecord R]

theorem step_start (top : s.todo = .user site :: rest) : step o s .start = some s.start := by
  unfold step
  rw [top]
  exact congrArg (fun s => some (start s)) (push_pop top)

theorem step_submit (top : s.todo = .user site :: rest) (record : R) :
    step o s (.submit record) = some (submit o record s) := by
  unfold step
  rw [top]
  exact congrArg (fun s => some (submit o record s)) (push_pop top)

theorem step_leave (top : s.todo = .user site :: rest) : step o s (.leave .returns) = some s.callbackReturns := by
  unfold step
  rw [top, callbackReturns, top]
  rfl

theorem step_returned {ref : Ref} {outcome : SubmitOutcome} (top : s.todo = .returned ref outcome :: rest) :
    step o s .next = some s.submitReturns := by
  unfold step
  rw [top, submitReturns, top]
  rfl

end State

/-- What a call of `record` from user code does to the pipeline are steps of its machine, after
which that code goes on. -/
theorem record_run [AudrRecord B] {o : Options} {emitter : Option E} {valid : Nat → Stamped E B → Bool}
    (callback : o.onFailure = true) (limit : Nat) :
    ∀ (input : Input (Stamped E B)) (client : Client (Stamped E B)) {site : Site} {rest : List (Op (Stamped E B))},
      client.pipeline.todo = .user site :: rest →
        (∃ labels, Run (step o) anyStep client.pipeline labels (record o emitter valid limit input client).1.pipeline) ∧
          (record o emitter valid limit input client).1.pipeline.todo = .user site :: rest := by
  induction limit with
  | zero => exact fun input client _ _ top => ⟨⟨[], .refl⟩, top⟩
  | succ limit ih =>
    intro input client site rest top
    by_cases done : client.shutdownDone = true
    · rw [record_shut done]
      exact ⟨⟨[], .refl⟩, top⟩
    have going : client.shutdownDone = false := by simpa using done
    have starts : Run (step o) anyStep client.pipeline [.start] client.pipeline.start := .single trivial (State.step_start top)
    have started : client.pipeline.start.todo = .user site :: rest := (State.start_todo _).trans top
    cases parsed : input.parsed with
    | none =>
      rw [record_unparsed going parsed]
      exact ⟨⟨_, starts⟩, started⟩
    | some given =>
      have parsed : input.parsed.map (stamp emitter) = some (stamp emitter given) := by rw [parsed]; rfl
      by_cases passes : valid client.readings (stamp emitter given) = true
      · have submits : Run (step o) anyStep client.pipeline [.start, .submit (stamp emitter given)]
            (State.submit o (stamp emitter given) client.pipeline.start) :=
          starts.trans (.single trivial (State.step_submit started _))
        by_cases accepts : client.pipeline.accepts o = true
        · obtain ⟨running, room⟩ := (State.accepts_started client.pipeline).mp accepts
          rw [record_queued going parsed passes accepts]
          exact ⟨⟨_, submits⟩, (State.submit_todo _ running room).trans started⟩
        · have refused : client.pipeline.start.running = false ∨ o.maxQueueSize ≤ client.pipeline.start.currentDepth := by
            by_contra room
            rw [not_or, Bool.not_eq_false, not_le] at room
            exact accepts ((State.accepts_started client.pipeline).mpr room)
          obtain ⟨ref, outcome, called⟩ := State.submit_calls (stamp emitter given) callback refused
          rw [started] at called
          obtain ⟨⟨labels, nested⟩, resumed⟩ := ih (.model (stamp emitter given))
            { client with
              pipeline := State.submit o (stamp emitter given) client.pipeline.start
              readings := client.readings + 1
              notified := client.notified + 1 } called
          rw [record_refused going parsed callback passes (by simpa using accepts)]
          generalize (record o emitter valid limit _ _).1 = after at nested resumed ⊢
          have left : after.pipeline.callbackReturns.todo = .returned ref outcome :: .user site :: rest := by
            rw [State.callbackReturns, resumed]
            rfl
          refine ⟨⟨_, ((submits.trans nested).trans (.single trivial (State.step_leave resumed))).trans
            (.single trivial (State.step_returned left))⟩, ?_⟩
          simp [State.submitReturns, left, State.pop]
      · rw [record_invalid going parsed callback (by simpa using passes)]
        obtain ⟨⟨labels, nested⟩, resumed⟩ := ih (.model (stamp emitter given))
          { client with
            pipeline := client.pipeline.start
            readings := client.readings + 1
            notified := client.notified + 1 } started
        exact ⟨⟨_, starts.trans nested⟩, resumed⟩

/-- A pipeline of a queue that is full. -/
def fullClientLabels : List (Act (Stamped String String)) :=
  [.task, .start, .submit ⟨none, "a"⟩, .submit ⟨none, "b"⟩]

def fullClient : Client (Stamped String String) where
  pipeline := (Transition.execute (step smallOptions) (initial _) fullClientLabels).getD (initial _)
  shutdownDone := false
  readings := 2
  notified := 0

/-- The client before its first record. -/
def freshClient : Client (Stamped String String) := ⟨initial _, false, 0, 0⟩

/-- A record that becomes valid, in front of a queue with room. -/
theorem record_bounded_later :
    Bounded smallOptions (some "sdk") (fun reading _ => 3 ≤ reading) (.model ⟨none, "a"⟩) freshClient :=
  (record_bounded_iff _ _ _ _ _ rfl).mpr (.inr (.inr ⟨⟨none, "a"⟩, rfl, by decide, 3, by decide, by decide⟩))

/-- Neither a valid record in front of a full queue nor an invalid record is done with, short of
the interpreter's limit. -/
theorem record_recurses : Reaches smallOptions fullClientLabels fullClient.pipeline ∧
    ¬Bounded smallOptions none (fun _ _ => true) (.model ⟨none, "c"⟩) fullClient ∧
    ¬Bounded smallOptions none (fun _ _ => false) (.model ⟨none, "c"⟩) freshClient := by
  have endless : ∀ (valid : Nat → Stamped String String → Bool) (client : Client (Stamped String String)),
      client.shutdownDone = false → ¬Queueable smallOptions valid ⟨none, "c"⟩ client →
        ¬Bounded smallOptions none valid (.model ⟨none, "c"⟩) client := by
    rintro valid client going stuck ⟨bound, bounded⟩
    have again := record_again rfl (bound + 1) (.model ⟨none, "c"⟩) client going rfl stuck
    have few := (bounded (bound + 1)).notified
    omega
  refine ⟨Run.of_execute rfl, endless _ _ rfl ?_, endless _ _ rfl ?_⟩
  · exact fun queueable => absurd queueable.1 (by decide)
  · rintro ⟨-, reading, -, passes⟩
    cases passes

end Audr.PyPipeline
