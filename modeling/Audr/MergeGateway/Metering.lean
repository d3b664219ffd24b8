import Audr.MergeGateway.Gateway

/-! What the facade makes of its calls: each is recorded or reported at most once, a stream exactly
once by the time it has been read, and a record bills the scopes the call was made in. -/

namespace Audr.MergeGateway

open Overlay (innermost)
open Scopes (Attribution AudrContext RunContext Scope mergeAttribution nest scopeOf attributionOf runs joined)
open Transition (Run anyStep)

namespace Metered

/-- What one step of a call can do, and the time it reads. -/
inductive Moved (m : Metered) : Option ℚ → Metered → Prop
  | rejected (phase : m.phase = .pending) : Moved m none { m with phase := .rejected }
  | passed (now : ℚ) (phase : m.phase = .pending) (unmetered : m.call = none) :
      Moved m (some now) { m with phase := .answered none }
  | settled {call : Call} {around : Surroundings} (native : Native) (phase : m.phase = .pending)
      (metered : m.call = some call) : Moved m (some around.now) (settle call native around m)
  | begun (closable : Bool) (phase : m.phase = .streaming closable) :
      Moved m none { m with iterations := m.iterations ++ [⟨.unstarted, []⟩] }
  | shifted {i : Nat} {before after : Iteration} (held : m.iterations[i]? = some before) (running : after.at_ ≠ .done)
      (same : after.received = before.received) : Moved m none { m with iterations := m.iterations.set i after }
  | observed {call : Call} {around : Surroundings} {i : Nat} {before : Iteration} (frame : Option GatewayResult)
      (metered : m.call = some call) (held : m.iterations[i]? = some before) :
      Moved m (some around.now)
        (observe call frame around { m with iterations := m.iterations.set i ⟨.yielded, before.received ++ [frame]⟩ })
  | left {i : Nat} {before : Iteration} (reason : IncompleteReason) (held : m.iterations[i]? = some before) :
      Moved m none (incomplete reason { m with iterations := m.iterations.set i { before with at_ := .done } })
  | closed (closable : Bool) (phase : m.phase = .streaming closable) : Moved m none (incomplete .closed m)

variable {m t : Metered} {call : Call} {around : Surroundings} {i : Nat} {before after it : Iteration} {act : CallAct}
  {now : Option ℚ}

theorem move_eq_some {next : Iteration → Option Iteration} (moved : m.move i next = some t) :
    ∃ before after, m.iterations[i]? = some before ∧ next before = some after ∧
      t = { m with iterations := m.iterations.set i after } := by
  simp only [move, Option.bind_eq_bind, Option.bind_eq_some_iff] at moved
  obtain ⟨before, held, after, taken, same⟩ := moved
  exact ⟨before, after, held, taken, (Option.some.inj same).symm⟩

theorem moved_of_step (taken : m.step act = some t) : Moved m (Act.now? (.call 0 act)) t := by
  cases act with
  | rejects =>
    simp only [step, Option.ite_none_right_eq_some] at taken
    obtain ⟨phase, same⟩ := taken
    cases here : m.phase <;> simp [here] at phase
    rw [← Option.some.inj same]
    exact .rejected here
  | resolves native around =>
    simp only [step, Option.ite_none_right_eq_some] at taken
    obtain ⟨phase, same⟩ := taken
    cases here : m.phase <;> simp [here] at phase
    split at same
    next metered =>
      rw [← Option.some.inj same]
      exact .passed around.now here metered
    next call metered =>
      rw [← Option.some.inj same]
      exact .settled native here metered
  | iterate =>
    simp only [step, Option.ite_none_right_eq_some] at taken
    obtain ⟨phase, same⟩ := taken
    cases here : m.phase <;> simp [here] at phase
    rw [← Option.some.inj same]
    exact .begun _ here
  | next i =>
    obtain ⟨before, after, held, shift, rfl⟩ := move_eq_some taken
    cases place : before.at_ <;> simp [place] at shift <;> rw [← shift] <;> exact .shifted held (by simp) rfl
  | «return» i =>
    obtain ⟨before, after, held, shift, rfl⟩ := move_eq_some taken
    cases place : before.at_ <;> simp [place] at shift <;> rw [← shift] <;> exact .shifted held (by simp) rfl
  | throw i =>
    obtain ⟨before, after, held, shift, rfl⟩ := move_eq_some taken
    cases place : before.at_ <;> simp [place] at shift <;> rw [← shift] <;> exact .shifted held (by simp) rfl
  | yields i frame around =>
    simp only [step, Option.bind_eq_bind, Option.bind_eq_some_iff] at taken
    obtain ⟨call, metered, moved, first, same⟩ := taken
    obtain ⟨before, after, held, shift, rfl⟩ := move_eq_some first
    rw [Option.ite_none_right_eq_some] at shift
    rw [← Option.some.inj same, ← Option.some.inj shift.2]
    exact .observed frame metered held
  | ends i =>
    simp only [step, Option.bind_eq_bind, Option.bind_eq_some_iff] at taken
    obtain ⟨moved, first, same⟩ := taken
    obtain ⟨before, after, held, shift, rfl⟩ := move_eq_some first
    rw [Option.ite_none_right_eq_some] at shift
    rw [← Option.some.inj same, ← Option.some.inj shift.2]
    exact .left .ended held
  | throws i =>
    simp only [step, Option.bind_eq_bind, Option.bind_eq_some_iff] at taken
    obtain ⟨moved, first, same⟩ := taken
    obtain ⟨before, after, held, shift, rfl⟩ := move_eq_some first
    rw [Option.ite_none_right_eq_some] at shift
    rw [← Option.some.inj same, ← Option.some.inj shift.2]
    exact .left .failed held
  | closes i throws =>
    simp only [step, Option.bind_eq_bind, Option.bind_eq_some_iff] at taken
    obtain ⟨_, -, leaving, -, moved, first, same⟩ := taken
    obtain ⟨before, after, held, shift, rfl⟩ := move_eq_some first
    rw [← Option.some.inj same, ← Option.some.inj shift]
    exact .left (leaving.reason throws) held
  | close =>
    simp only [step, Option.ite_none_right_eq_some] at taken
    obtain ⟨phase, same⟩ := taken
    rw [← Option.some.inj same]
    cases here : m.phase <;> simp [here] at phase
    exact .closed _ here

/-! What stays. -/

theorem incomplete_frame (reason : IncompleteReason) (m : Metered) :
    (incomplete reason m).task = m.task ∧ (incomplete reason m).call = m.call ∧ (incomplete reason m).phase = m.phase ∧
      (incomplete reason m).iterations = m.iterations := by
  unfold incomplete
  split <;> exact ⟨rfl, rfl, rfl, rfl⟩

theorem observe_frame (frame : Option GatewayResult) (m : Metered) :
    (observe call frame around m).task = m.task ∧ (observe call frame around m).call = m.call ∧
      (observe call frame around m).phase = m.phase ∧ (observe call frame around m).iterations = m.iterations := by
  cases frame with
  | none => exact ⟨rfl, rfl, rfl, rfl⟩
  | some result =>
    unfold observe
    dsimp only
    split_ifs
    · exact ⟨rfl, rfl, rfl, rfl⟩
    · exact ⟨rfl, rfl, rfl, rfl⟩
    · exact incomplete_frame _ m
    · exact ⟨rfl, rfl, rfl, rfl⟩

/-- A step leaves the call and the task it was made in. -/
theorem Moved.frame (moved : Moved m now t) : t.task = m.task ∧ t.call = m.call := by
  cases moved with
  | settled native phase metered =>
    unfold settle
    split <;> exact ⟨rfl, rfl⟩
  | observed frame metered held =>
    obtain ⟨task, call, -, -⟩ := observe_frame frame { m with iterations := _ }
    exact ⟨task, call⟩
  | left reason held =>
    obtain ⟨task, call, -, -⟩ := incomplete_frame reason { m with iterations := _ }
    exact ⟨task, call⟩
  | closed closable phase =>
    obtain ⟨task, call, -, -⟩ := incomplete_frame .closed m
    exact ⟨task, call⟩
  | _ => exact ⟨rfl, rfl⟩

/-! Each call is recorded or reported at most once. -/

def streaming (m : Metered) : Prop := ∃ closable, m.phase = .streaming closable

/-- Whether nothing is to be said of a metered call: its promise has not been fulfilled, or its
stream is still open. Of a call that is not metered all is said when it is made. -/
def silent (m : Metered) : Bool :=
  m.call.isSome &&
    match m.phase with
    | .pending | .rejected => true
    | .streaming _ => m.open
    | .answered _ => false

structure Accounted (m : Metered) : Prop where
  count : m.outcomes.length = if m.silent then 0 else 1
  opened : m.open = true → m.streaming
  metered : m.streaming → m.call.isSome = true
  iterated : m.iterations ≠ [] → m.streaming
  finished : ∀ it ∈ m.iterations, it.at_ = .done → m.open = false

theorem silent_open (phase : m.streaming) (metered : m.call.isSome = true) : m.silent = m.open := by
  obtain ⟨closable, phase⟩ := phase
  rw [silent, phase, metered, Bool.true_and]

theorem not_streaming (accounted : m.Accounted) (phase : m.phase = .pending) : m.open = false ∧ m.iterations = [] := by
  have other : ¬m.streaming := by
    intro streaming
    obtain ⟨closable, same⟩ := streaming
    rw [phase] at same
    cases same
  refine ⟨Bool.eq_false_iff.mpr fun opened => other (accounted.opened opened), ?_⟩
  by_contra some
  exact other (accounted.iterated some)

/-- Iterations other than finished ones may be put in any place. -/
theorem Accounted.place (accounted : m.Accounted) {iterations : List Iteration} (streaming : m.streaming)
    (finished : ∀ it ∈ iterations, it.at_ = .done → m.open = false) : Accounted { m with iterations := iterations } where
  count := accounted.count
  opened := accounted.opened
  metered := accounted.metered
  iterated := fun _ => streaming
  finished := finished

/-- The stream is done with; one outcome has been added. -/
theorem Accounted.shut (accounted : m.Accounted) (opened : m.open = true) (outcome : Outcome) :
    Accounted { m with «open» := false, outcomes := m.outcomes ++ [outcome] } where
  count := by
    have streaming := accounted.opened opened
    have before := accounted.count
    rw [silent_open streaming (accounted.metered streaming), opened, if_pos rfl] at before
    have after : silent { m with «open» := false, outcomes := m.outcomes ++ [outcome] } = false :=
      silent_open streaming (accounted.metered streaming)
    rw [after, List.length_append, before]
    rfl
  opened := fun other => by cases other
  metered := accounted.metered
  iterated := accounted.iterated
  finished := fun _ _ _ => rfl

theorem Accounted.incomplete (accounted : m.Accounted) (reason : IncompleteReason) : (incomplete reason m).Accounted := by
  unfold Metered.incomplete
  split_ifs with opened
  · exact accounted.shut opened _
  · exact accounted

theorem Accounted.observe (accounted : m.Accounted) (frame : Option GatewayResult) : (observe call frame around m).Accounted := by
  cases frame with
  | none => exact accounted
  | some result =>
    unfold Metered.observe
    dsimp only
    split_ifs with done opened
    · exact accounted.shut opened _
    · exact accounted
    · exact accounted.incomplete _
    · exact accounted

theorem incomplete_shut (reason : IncompleteReason) (m : Metered) : (incomplete reason m).open = false := by
  unfold incomplete
  split_ifs with opened
  · rfl
  · exact Bool.eq_false_iff.mpr opened

/-- An iteration that is set somewhere, and those that stood there. -/
theorem mem_set_iteration (member : it ∈ m.iterations.set i after) : it ∈ m.iterations ∨ it = after :=
  List.mem_or_eq_of_mem_set member

theorem Accounted.iterations_held (accounted : m.Accounted) (held : m.iterations[i]? = some before) : m.streaming := by
  apply accounted.iterated
  intro none
  rw [none] at held
  cases held

/-- What a finished iteration leaves behind. -/
theorem Accounted.leave (accounted : m.Accounted) (held : m.iterations[i]? = some before) (reason : IncompleteReason) :
    (Metered.incomplete reason { m with iterations := m.iterations.set i { before with at_ := .done } }).Accounted := by
  have streaming := accounted.iterations_held held
  have same := incomplete_frame reason { m with iterations := m.iterations.set i { before with at_ := .done } }
  have plain : Metered.incomplete reason { m with iterations := m.iterations.set i { before with at_ := .done } } =
      { Metered.incomplete reason m with iterations := m.iterations.set i { before with at_ := .done } } := by
    unfold Metered.incomplete
    split <;> rfl
  rw [plain]
  apply (accounted.incomplete reason).place
  · obtain ⟨closable, phase⟩ := streaming
    exact ⟨closable, (incomplete_frame reason m).2.2.1.trans phase⟩
  · exact fun _ _ _ => incomplete_shut reason m

theorem Accounted.settle (accounted : m.Accounted) (phase : m.phase = .pending) (metered : m.call = some call)
    (native : Native) : (settle call native around m).Accounted := by
  obtain ⟨shut, none⟩ := not_streaming accounted phase
  have empty : m.outcomes.length = 0 := by
    have count := accounted.count
    have silent : m.silent = true := by rw [silent, phase, metered]; rfl
    rwa [silent, if_pos rfl] at count
  have answered : ∀ (result : Option GatewayResult) (outcome : Outcome),
      Accounted { m with phase := .answered result, outcomes := m.outcomes ++ [outcome] } := by
    intro result outcome
    have quiet : Metered.silent { m with phase := .answered result, outcomes := m.outcomes ++ [outcome] } = false := by
      simp [Metered.silent]
    constructor
    · rw [quiet, List.length_append, empty]
      rfl
    · intro opened
      rw [show m.open = true from opened] at shut
      cases shut
    · intro streaming
      obtain ⟨closable, other⟩ := streaming
      cases other
    · exact fun some => absurd none some
    · exact fun it member => absurd (none ▸ member) List.not_mem_nil
  cases native with
  | stream closable =>
    have loud : Metered.silent { m with phase := .streaming closable, «open» := true } = true := by
      simp [Metered.silent, metered]
    constructor
    · change m.outcomes.length = _
      rw [empty, Metered.settle, loud]
      rfl
    · exact fun _ => ⟨closable, rfl⟩
    · exact fun _ => Option.isSome_iff_exists.mpr ⟨call, metered⟩
    · exact fun some => absurd none some
    · exact fun it member => absurd (none ▸ member) List.not_mem_nil
  | hidden => exact answered _ _
  | result result =>
    cases result with
    | none => exact answered _ _
    | some result => exact answered _ _

theorem Accounted.moved (accounted : m.Accounted) (moved : Moved m now t) : t.Accounted := by
  cases moved with
  | rejected phase =>
    obtain ⟨shut, none⟩ := not_streaming accounted phase
    have count := accounted.count
    have same : Metered.silent { m with phase := .rejected } = m.silent := by simp [silent, phase]
    constructor
    · rw [same]
      exact count
    · intro opened
      rw [show m.open = true from opened] at shut
      cases shut
    · intro streaming
      obtain ⟨closable, other⟩ := streaming
      cases other
    · exact fun some => absurd none some
    · exact fun it member => absurd (none ▸ member) List.not_mem_nil
  | passed now phase unmetered =>
    obtain ⟨shut, none⟩ := not_streaming accounted phase
    have count := accounted.count
    have same : Metered.silent { m with phase := .answered .none } = m.silent := by simp [silent, unmetered]
    constructor
    · rw [same]
      exact count
    · intro opened
      rw [show m.open = true from opened] at shut
      cases shut
    · intro streaming
      obtain ⟨closable, other⟩ := streaming
      cases other
    · exact fun some => absurd none some
    · exact fun it member => absurd (none ▸ member) List.not_mem_nil
  | settled native phase metered => exact accounted.settle phase metered native
  | begun closable phase =>
    apply accounted.place ⟨closable, phase⟩
    intro it member done
    rcases List.mem_append.mp member with earlier | new
    · exact accounted.finished it earlier done
    · rw [List.mem_singleton.mp new] at done
      cases done
  | shifted held running same =>
    apply accounted.place (accounted.iterations_held held)
    intro it member done
    rcases mem_set_iteration member with earlier | rfl
    · exact accounted.finished it earlier done
    · exact absurd done running
  | observed frame metered held =>
    apply Accounted.observe
    apply accounted.place (accounted.iterations_held held)
    intro it member done
    rcases mem_set_iteration member with earlier | rfl
    · exact accounted.finished it earlier done
    · cases done
  | left reason held => exact accounted.leave held reason
  | closed closable phase => exact accounted.incomplete .closed

/-! A record is made from what the host has received. -/

/-- A result the host has of a call: its answer, or a frame that ends a response. -/
def has (m : Metered) (result : GatewayResult) : Prop :=
  m.phase = .answered (some result) ∨
    (result.object = some "response.done" ∧ ∃ it ∈ m.iterations, some result ∈ it.received)

/-- A record of a call, from a result the host has. -/
def Made (m : Metered) (record : Record) : Prop :=
  ∃ call result resource around, m.call = some call ∧ m.has result ∧ call.startedAt ≤ around.now ∧
    record = recordOf call result resource around

variable {result : GatewayResult}

theorem kept_received (held : m.iterations[i]? = some before) (more : before.received ⊆ after.received)
    (member : it ∈ m.iterations) : ∃ other ∈ m.iterations.set i after, it.received ⊆ other.received := by
  obtain ⟨j, there⟩ := List.mem_iff_getElem?.mp member
  by_cases same : i = j
  · subst same
    rw [held] at there
    rw [← Option.some.inj there]
    refine ⟨after, List.mem_iff_getElem?.mpr ⟨i, ?_⟩, more⟩
    exact List.getElem?_set_self (List.getElem?_eq_some_iff.mp held).1
  · refine ⟨it, List.mem_iff_getElem?.mpr ⟨j, ?_⟩, List.Subset.refl _⟩
    rw [List.getElem?_set_ne same, there]

/-- What the host has it keeps. -/
theorem Moved.has (moved : Moved m now t) (received : m.has result) : t.has result := by
  have place : ∀ {i : Nat} {before : Iteration} (after : Iteration), m.iterations[i]? = some before →
      before.received ⊆ after.received →
      ∀ u : Metered, u.phase = m.phase → u.iterations = m.iterations.set i after → u.has result := by
    intro i before after held more u phase iterations
    rcases received with answer | frame
    · exact .inl (phase.trans answer)
    · obtain ⟨done, it, member, listed⟩ := frame
      obtain ⟨other, within, subset⟩ := kept_received held more member
      exact .inr ⟨done, other, iterations ▸ within, subset listed⟩
  have unanswered : m.phase = .pending → ∃ it ∈ m.iterations, result.object = some "response.done" ∧ some result ∈ it.received := by
    intro phase
    rcases received with answer | frame
    · rw [phase] at answer
      cases answer
    · obtain ⟨done, it, member, listed⟩ := frame
      exact ⟨it, member, done, listed⟩
  cases moved with
  | rejected phase =>
    obtain ⟨it, member, done, listed⟩ := unanswered phase
    exact .inr ⟨done, it, member, listed⟩
  | passed now phase unmetered =>
    obtain ⟨it, member, done, listed⟩ := unanswered phase
    exact .inr ⟨done, it, member, listed⟩
  | settled native phase metered =>
    obtain ⟨it, member, done, listed⟩ := unanswered phase
    refine .inr ⟨done, it, ?_, listed⟩
    unfold settle
    split <;> exact member
  | begun closable phase =>
    rcases received with answer | frame
    · exact .inl answer
    · obtain ⟨done, it, member, listed⟩ := frame
      exact .inr ⟨done, it, List.mem_append_left _ member, listed⟩
  | shifted held running same => exact place _ held (by rw [same]; exact List.Subset.refl _) _ rfl rfl
  | observed frame metered held =>
    obtain ⟨-, -, phase, iterations⟩ := observe_frame frame { m with iterations := _ }
    exact place _ held (List.subset_append_left _ _) _ phase iterations
  | @left i before reason held =>
    obtain ⟨-, -, phase, iterations⟩ := incomplete_frame reason
      { m with iterations := m.iterations.set i { before with at_ := .done } }
    exact place { before with at_ := .done } held (List.Subset.refl _) _ phase iterations
  | closed closable phase =>
    obtain ⟨-, -, same, iterations⟩ := incomplete_frame .closed m
    rcases received with answer | frame
    · exact .inl (same.trans answer)
    · exact .inr (iterations ▸ frame)

theorem record_eq {record : Record} {answer : Answer} (made : MergeGateway.record call result around = .recorded record answer) :
    ∃ resource, record = recordOf call result resource around := by
  unfold MergeGateway.record at made
  split at made
  · cases made
  · dsimp only at made
    split at made
    · cases made
    · split_ifs at made
      cases made
      exact ⟨_, rfl⟩

theorem mem_incomplete {record : Record} {answer : Answer} {reason : IncompleteReason}
    (member : Outcome.recorded record answer ∈ (incomplete reason m).outcomes) : .recorded record answer ∈ m.outcomes := by
  unfold incomplete at member
  split_ifs at member
  · simpa using member
  · exact member

/-- A step records what the host has been handed in the same step. -/
theorem Moved.outcomes {record : Record} {answer : Answer} (moved : Moved m now t)
    (member : Outcome.recorded record answer ∈ t.outcomes) :
    .recorded record answer ∈ m.outcomes ∨
      ∃ call result resource around, now = some around.now ∧ m.call = some call ∧ t.has result ∧
        record = recordOf call result resource around := by
  cases moved with
  | @settled call around native phase metered =>
    cases native with
    | stream closable => exact .inl member
    | hidden => exact .inl (by simpa [settle] using member)
    | result result =>
      cases result with
      | none => exact .inl (by simpa [settle] using member)
      | some result =>
        rcases List.mem_append.mp member with earlier | new
        · exact .inl earlier
        · obtain ⟨resource, same⟩ := record_eq (List.mem_singleton.mp new).symm
          exact .inr ⟨call, result, resource, around, rfl, metered, .inl rfl, same⟩
  | @observed call around i before frame metered held =>
    cases frame with
    | none => exact .inl member
    | some result =>
      have has : result.object = some "response.done" →
          Metered.has (observe call (some result) around
            { m with iterations := m.iterations.set i ⟨.yielded, before.received ++ [some result]⟩ }) result := by
        intro done
        obtain ⟨-, -, -, iterations⟩ := @observe_frame call around (some result)
          { m with iterations := m.iterations.set i ⟨.yielded, before.received ++ [some result]⟩ }
        refine .inr ⟨done, ⟨.yielded, before.received ++ [some result]⟩, ?_, by simp⟩
        rw [iterations]
        exact List.mem_iff_getElem?.mpr ⟨i, List.getElem?_set_self (List.getElem?_eq_some_iff.mp held).1⟩
      by_cases done : result.object = some "response.done"
      · by_cases opened : m.open = true
        · have after : (observe call (some result) around
              { m with iterations := m.iterations.set i ⟨.yielded, before.received ++ [some result]⟩ }).outcomes =
                m.outcomes ++ [MergeGateway.record call result around] := by
            simp [observe, done, opened]
          rw [after] at member
          rcases List.mem_append.mp member with earlier | new
          · exact .inl earlier
          · obtain ⟨resource, same⟩ := record_eq (List.mem_singleton.mp new).symm
            exact .inr ⟨call, result, resource, around, rfl, metered, has done, same⟩
        · left
          simpa [observe, done, opened] using member
      · left
        simp only [observe, if_neg done] at member
        split_ifs at member
        · have earlier := mem_incomplete member
          exact earlier
        · exact member
  | left reason held =>
    have earlier := mem_incomplete member
    exact .inl earlier
  | closed closable phase => exact .inl (mem_incomplete member)
  | _ => exact .inl member

theorem made_moved (moved : Moved m now t)
    (made : ∀ record answer, Outcome.recorded record answer ∈ m.outcomes → m.Made record)
    (later : ∀ call, m.call = some call → ∀ time, now = some time → call.startedAt ≤ time) :
    ∀ record answer, Outcome.recorded record answer ∈ t.outcomes → t.Made record := by
  intro record answer member
  obtain ⟨-, same⟩ := moved.frame
  rcases moved.outcomes member with earlier | new
  · obtain ⟨call, result, resource, around, metered, has, order, eq⟩ := made record answer earlier
    exact ⟨call, result, resource, around, same.trans metered, moved.has has, order, eq⟩
  · obtain ⟨call, result, resource, around, time, metered, has, eq⟩ := new
    exact ⟨call, result, resource, around, same.trans metered, has, later call metered _ time, eq⟩

/-- Nothing more is said of a call that is not metered. -/
theorem Accounted.quiet (accounted : m.Accounted) (moved : Moved m now t) (unmetered : m.call = none) :
    t.outcomes = m.outcomes := by
  have shut : m.open = false := by
    rw [Bool.eq_false_iff]
    intro opened
    have metered := accounted.metered (accounted.opened opened)
    rw [unmetered] at metered
    cases metered
  have unopened : ¬m.open = true := by simp [shut]
  cases moved with
  | rejected phase => rfl
  | passed now phase other => rfl
  | settled native phase metered =>
    rw [unmetered] at metered
    cases metered
  | begun closable phase => rfl
  | shifted held running same => rfl
  | observed frame metered held =>
    rw [unmetered] at metered
    cases metered
  | left reason held =>
    unfold Metered.incomplete
    rw [if_neg unopened]
  | closed closable phase =>
    unfold Metered.incomplete
    rw [if_neg unopened]

end Metered

/-! The whole facade. -/

/-- A call that was begun in a task, not after the present time. -/
def Begun (attributionDefaults : Option Attribution) (s : Gateway) (m : Metered) : Prop :=
  ∃ task, s.tasks[m.task]? = some task ∧
    ∀ call, m.call = some call → call.startedAt ≤ s.clock ∧
      ∃ operation params, begin (defaultsOf attributionDefaults) task.scope operation params call.startedAt = some call

structure Sound (attributionDefaults : Option Attribution) (s : Gateway) : Prop where
  scopes : ∀ task ∈ s.tasks, task.scope = scopeOf task.path
  begun : ∀ m ∈ s.calls, Begun attributionDefaults s m
  accounted : ∀ m ∈ s.calls, m.Accounted
  unmetered : ∀ m ∈ s.calls, m.call = none → m.outcomes = [.attributionUnresolved]
  made : ∀ m ∈ s.calls, ∀ record answer, Outcome.recorded record answer ∈ m.outcomes → m.Made record

variable {attributionDefaults : Option Attribution} {s t : Gateway} {m : Metered} {act : Act} {acts : List Act}

theorem begin_startedAt {defaults : Attribution} {scope : Scope} {operation : OperationName} {params : JsRecord.Value}
    {now : ℚ} {call : Call} (started : begin defaults scope operation params now = some call) : call.startedAt = now := by
  unfold begin at started
  dsimp only at started
  split_ifs at started
  cases started
  rfl

/-- Tasks and time go on. -/
theorem Begun.grow (begun : Begun attributionDefaults s m) (tasks : List Task) {clock : ℚ} (later : s.clock ≤ clock)
    (calls : List Metered) : Begun attributionDefaults ⟨clock, s.tasks ++ tasks, calls⟩ m := by
  obtain ⟨task, held, calls⟩ := begun
  refine ⟨task, ?_, fun call metered => ?_⟩
  · rw [List.getElem?_append_left (List.getElem?_eq_some_iff.mp held).1, held]
  · obtain ⟨before, started⟩ := calls call metered
    exact ⟨before.trans later, started⟩

theorem Sound.tick (sound : Sound attributionDefaults s) {clock : ℚ} (later : s.clock ≤ clock) :
    Sound attributionDefaults { s with clock := clock } where
  scopes := sound.scopes
  begun := fun m member => by
    have grown := (sound.begun m member).grow [] later s.calls
    rwa [List.append_nil] at grown
  accounted := sound.accounted
  unmetered := sound.unmetered
  made := sound.made

/-- A task enters a context. -/
theorem Sound.enter (sound : Sound attributionDefaults s) {task : Nat} {around : Task} (held : s.tasks[task]? = some around)
    (context : Option AudrContext) :
    Sound attributionDefaults { s with tasks := s.tasks ++ [⟨around.path ++ [context], nest around.scope context⟩] } := by
  constructor
  · intro task member
    rcases List.mem_append.mp member with earlier | new
    · exact sound.scopes task earlier
    · rw [List.mem_singleton.mp new]
      have outer := sound.scopes around (List.mem_of_getElem? held)
      dsimp only
      rw [outer, Scopes.scopeOf_concat]
  · exact fun m member => (sound.begun m member).grow _ le_rfl _
  · exact sound.accounted
  · exact sound.unmetered
  · exact sound.made

/-- A call is made: it is pending, and has an outcome only if it is not metered. -/
theorem Sound.create (sound : Sound attributionDefaults s) {task : Nat} {around : Task} (held : s.tasks[task]? = some around)
    {call : Option Call} (begun : ∀ made, call = some made → made.startedAt ≤ s.clock ∧ ∃ operation params,
      begin (defaultsOf attributionDefaults) around.scope operation params made.startedAt = some made) :
    Sound attributionDefaults { s with calls := s.calls ++ [⟨task, call, .pending, false, [],
      if call.isNone then [Outcome.attributionUnresolved] else []⟩] } := by
  constructor
  · exact sound.scopes
  · intro m member
    rcases List.mem_append.mp member with earlier | new
    · have grown := (sound.begun m earlier).grow [] le_rfl (s.calls ++ [⟨task, call, .pending, false, [],
        if call.isNone then [Outcome.attributionUnresolved] else []⟩])
      rwa [List.append_nil] at grown
    · rw [List.mem_singleton.mp new]
      exact ⟨around, held, begun⟩
  · intro m member
    rcases List.mem_append.mp member with earlier | new
    · exact sound.accounted m earlier
    · rw [List.mem_singleton.mp new]
      constructor
      · cases call <;> rfl
      · exact fun opened => by cases opened
      · intro streaming
        obtain ⟨closable, phase⟩ := streaming
        cases phase
      · exact fun some => absurd rfl some
      · exact fun it member => absurd member List.not_mem_nil
  · intro m member none
    rcases List.mem_append.mp member with earlier | new
    · exact sound.unmetered m earlier none
    · rw [List.mem_singleton.mp new] at none ⊢
      dsimp only at none ⊢
      rw [none]
      rfl
  · intro m member record answer recorded
    rcases List.mem_append.mp member with earlier | new
    · exact sound.made m earlier record answer recorded
    · rw [List.mem_singleton.mp new] at recorded
      dsimp only at recorded
      split_ifs at recorded
      · simp at recorded
      · exact absurd recorded List.not_mem_nil

/-- A call goes on. -/
theorem Sound.goOn (sound : Sound attributionDefaults s) {number : Nat} {act : CallAct} {before after : Metered}
    (now : ∀ time, (Act.call number act).now? = some time → time = s.clock) (held : s.calls[number]? = some before)
    (step : before.step act = some after) : Sound attributionDefaults { s with calls := s.calls.set number after } := by
  have moved := Metered.moved_of_step step
  have member := List.mem_of_getElem? held
  constructor
  · exact sound.scopes
  · intro m within
    rcases List.mem_or_eq_of_mem_set within with earlier | rfl
    · exact sound.begun m earlier
    · obtain ⟨task, there, calls⟩ := sound.begun before member
      obtain ⟨place, call⟩ := moved.frame
      exact ⟨task, by rw [place]; exact there, fun other metered => calls other (call ▸ metered)⟩
  · intro m within
    rcases List.mem_or_eq_of_mem_set within with earlier | rfl
    · exact sound.accounted m earlier
    · exact (sound.accounted before member).moved moved
  · intro m within none
    rcases List.mem_or_eq_of_mem_set within with earlier | rfl
    · exact sound.unmetered m earlier none
    · have unmetered := moved.frame.2.symm.trans none
      rw [(sound.accounted before member).quiet moved unmetered, sound.unmetered before member unmetered]
  · intro m within
    rcases List.mem_or_eq_of_mem_set within with earlier | rfl
    · exact sound.made m earlier
    · apply Metered.made_moved moved (sound.made before member)
      intro call metered time read
      obtain ⟨task, there, calls⟩ := sound.begun before member
      have present : time = s.clock := now time (by cases act <;> exact read)
      rw [present]
      exact (calls call metered).1

theorem Sound.move (sound : Sound attributionDefaults s) (now : ∀ time, act.now? = some time → time = s.clock)
    (taken : s.move attributionDefaults act = some t) : Sound attributionDefaults t := by
  cases act with
  | withAudr task context =>
    simp only [Gateway.move, Option.bind_eq_bind, Option.bind_eq_some_iff] at taken
    obtain ⟨around, held, same⟩ := taken
    rw [← Option.some.inj same]
    exact sound.enter held context
  | create task operation params time =>
    simp only [Gateway.move, Option.bind_eq_bind, Option.bind_eq_some_iff] at taken
    obtain ⟨around, held, same⟩ := taken
    rw [← Option.some.inj same]
    apply sound.create held
    intro call started
    have began := begin_startedAt started
    exact ⟨(began.trans (now time rfl)).le, operation, params, by rw [began]; exact started⟩
  | call number act =>
    simp only [Gateway.move, Option.bind_eq_bind, Option.bind_eq_some_iff] at taken
    obtain ⟨before, held, after, step, same⟩ := taken
    rw [← Option.some.inj same]
    exact sound.goOn now held step

theorem Sound.step (sound : Sound attributionDefaults s) (taken : s.step attributionDefaults act = some t) :
    Sound attributionDefaults t := by
  unfold Gateway.step at taken
  split at taken
  next none => exact sound.move (fun time read => by rw [none] at read; cases read) taken
  next time read =>
    rw [Option.ite_none_right_eq_some] at taken
    apply (sound.tick taken.1).move _ taken.2
    intro other again
    rw [read] at again
    exact (Option.some.inj again).symm

/-- The attribution, the run and the time of a record of a call that was made inside some scopes. -/
structure Billed (attributionDefaults : Option Attribution) (path : List (Option AudrContext)) (record : Record) : Prop where
  attribution : ∀ field, record.attribution.get field =
    (innermost (fun context => (attributionOf context).bind fun attribution => attribution.get field) path).or
      (attributionDefaults.bind fun attribution => attribution.get field)
  environment : record.attribution.environment ≠ none
  joins : ∀ run, (runs path).getLast? = some run → record.runId = run.runId ∧ record.runType = "agent_run" ∧
    record.parentSpanId = innermost RunContext.parentSpanId (joined path) ∧
    record.runName = innermost RunContext.name (joined path)
  alone : runs path = [] → record.runType = "single_call" ∧ record.parentSpanId = none ∧ record.runName = none
  duration : 0 ≤ record.durationMs

end Audr.MergeGateway
