import Audr.Mastra.Exporter

/-! What the exporter meters over a whole run: a tool call once unless it delegated, every other
span at most once, and nothing is tracked beyond the end of a tool call. -/

namespace Audr.Mastra

open JsRecord (Value)
open VercelAi (Attribution)

/-- The span an event starts. -/
def Event.started : Event → Option (String × SpanType)
  | .spanStarted span => some (span.id, span.type)
  | _ => none

/-- The span an event ends. -/
def Event.ended : Event → Option String
  | .spanEnded span _ _ => some span.id
  | _ => none

def Event.stops : Event → Bool
  | .shutdown => true
  | _ => false

/-- An agent or workflow run that names its parent; an empty id names none. -/
def Span.delegates (span : Span) (id : String) : Bool := span.type.delegation && nonEmpty span.parentSpanId = some id

/-- A start or an end of an agent or workflow run that names a span as its parent. -/
def Event.delegates (id : String) : Event → Bool
  | .spanStarted span => span.delegates id
  | .spanEnded span _ _ => span.delegates id
  | _ => false

/-- Span ids are unique, and a span starts before it ends. -/
def WellBehaved (s : Traced) : Event → Prop
  | .spanStarted span => ∀ event ∈ s.events, event.started.map Prod.fst ≠ some span.id
  | .spanEnded span _ _ =>
      (∃ event ∈ s.events, event.started = some (span.id, span.type)) ∧ ∀ event ∈ s.events, event.ended ≠ some span.id
  | _ => True

instance (s : Traced) : (event : Event) → Decidable (WellBehaved s event)
  | .spanStarted span => inferInstanceAs (Decidable (∀ event ∈ s.events, event.started.map Prod.fst ≠ some span.id))
  | .spanEnded span _ _ =>
      inferInstanceAs (Decidable ((∃ event ∈ s.events, event.started = some (span.id, span.type)) ∧
        ∀ event ∈ s.events, event.ended ≠ some span.id))
  | .spanUpdated _ => instDecidableTrue
  | .shutdown => instDecidableTrue

/-- How often the client was called with a record of a span. -/
def Exporter.attemptsFor (exporter : Exporter) (id : String) : Nat :=
  exporter.attempts.countP fun record => record.run.spanId = id

/-- The attribution of a span is resolved. -/
def Resolvable (defaults : Option Attribution) (span : Span) : Prop :=
  ∃ attribution, resolveAttribution span.metadata defaults = some (.resolved attribution)

def Outcome.isMade {α : Type} : Outcome α → Bool
  | .made _ => true
  | _ => false

/-- A tool call that has started and not ended. -/
def OpenTool (events : List Event) (id : String) : Prop :=
  (∃ event ∈ events, event.started = some (id, .toolCall)) ∧ ∀ event ∈ events, event.ended ≠ some id

/-- What is promised of the events so far. -/
structure MeteredOnce (s : Traced) : Prop where
  tools : ∀ earlier start during span answer now later,
    s.events = earlier ++ .spanStarted start :: during ++ .spanEnded span answer now :: later → start.id = span.id →
    (∀ event ∈ during, event.stops = false) → span.type = .toolCall → (nonEmpty span.entityName).isSome = true →
    Resolvable s.defaults span → s.attemptsFor span.id = if during.any (Event.delegates span.id) then 0 else 1
  spans : ∀ id, s.attemptsFor id ≤ 1
  tracked : ∀ id, id ∈ s.openToolSpans ∨ id ∈ s.delegationToolSpans → OpenTool s.events id

variable {toLowerCase : String → String} {exporter : Exporter} {span : Span} {answer : Answer} {now : ℤ}

/-! What one event does. -/

namespace Exporter

@[simp] theorem trackDelegationChild_openToolSpans :
    (exporter.trackDelegationChild span).openToolSpans = exporter.openToolSpans := by
  unfold trackDelegationChild
  split
  · split
    · split <;> rfl
    · rfl
  · rfl

@[simp] theorem trackDelegationChild_attempts :
    (exporter.trackDelegationChild span).attempts = exporter.attempts := by
  unfold trackDelegationChild
  split
  · split
    · split <;> rfl
    · rfl
  · rfl

@[simp] theorem trackDelegationChild_defaults :
    (exporter.trackDelegationChild span).defaults = exporter.defaults := by
  unfold trackDelegationChild
  split
  · split
    · split <;> rfl
    · rfl
  · rfl

/-- An open tool is a delegation from the first run on that names it. -/
theorem mem_trackDelegationChild {id : String} :
    id ∈ (exporter.trackDelegationChild span).delegationToolSpans ↔
      id ∈ exporter.delegationToolSpans ∨ (id ∈ exporter.openToolSpans ∧ span.delegates id = true) := by
  unfold trackDelegationChild Span.delegates
  by_cases delegation : span.type.delegation = true
  · rw [if_pos delegation, delegation, Bool.true_and, decide_eq_true_eq]
    cases nonEmpty span.parentSpanId with
    | none => simp
    | some parent =>
      rw [Option.some.injEq]
      by_cases tracked : parent ∈ exporter.openToolSpans
      · simp only [if_pos tracked, Finset.mem_insert]
        constructor
        · rintro (rfl | before)
          · exact .inr ⟨tracked, rfl⟩
          · exact .inl before
        · rintro (before | ⟨-, rfl⟩)
          · exact .inr before
          · exact .inl rfl
      · simp only [if_neg tracked]
        constructor
        · exact .inl
        · rintro (before | ⟨inside, rfl⟩)
          · exact before
          · exact absurd inside tracked
  · simp [delegation]

theorem record_sets : (record toLowerCase exporter span answer now).openToolSpans = exporter.openToolSpans ∧
    (record toLowerCase exporter span answer now).delegationToolSpans = exporter.delegationToolSpans ∧
    (record toLowerCase exporter span answer now).defaults = exporter.defaults := by
  unfold record
  split
  · exact ⟨rfl, rfl, rfl⟩
  · exact ⟨rfl, rfl, rfl⟩
  · cases answer <;> exact ⟨rfl, rfl, rfl⟩

/-- The record that is attempted is one of the span. -/
theorem recordFor_spanId {made : AudrRecord} (recorded : recordFor toLowerCase exporter span now = .made made) :
    made.run.spanId = span.id := by
  unfold recordFor at recorded
  split at recorded
  · cases recorded
  · cases recorded
  · split at recorded
    · cases recorded
    · cases recorded
    · cases recorded
      rfl

/-- A named tool call of someone is recorded unless it delegated. -/
theorem recordFor_tool (tool : span.type = .toolCall) (named : (nonEmpty span.entityName).isSome = true)
    (resolvable : Resolvable exporter.defaults span) :
    (recordFor toLowerCase exporter span now).isMade = true ↔ span.id ∉ exporter.delegationToolSpans := by
  obtain ⟨name, named⟩ := Option.isSome_iff_exists.mp named
  obtain ⟨attribution, resolved⟩ := resolvable
  unfold recordFor meter
  rw [tool]
  by_cases delegated : span.id ∈ exporter.delegationToolSpans
  · simp [Exporter.tool, named, tool, delegated, Outcome.isMade]
  · simp [Exporter.tool, named, tool, delegated, resolved, Outcome.isMade]

theorem record_attemptsFor (id : String) :
    (record toLowerCase exporter span answer now).attemptsFor id = exporter.attemptsFor id +
      if id = span.id ∧ (recordFor toLowerCase exporter span now).isMade = true then 1 else 0 := by
  unfold record
  cases recorded : recordFor toLowerCase exporter span now with
  | threw => simp [attemptsFor, log, Outcome.isMade]
  | dropped warning => simp [attemptsFor, log, Outcome.isMade]
  | made made =>
    have spanId := recordFor_spanId recorded
    have counted : (exporter.attempts ++ [made]).countP (fun record => record.run.spanId = id) =
        exporter.attempts.countP (fun record => record.run.spanId = id) + if id = span.id then 1 else 0 := by
      rw [List.countP_append, List.countP_singleton, spanId]
      simp [eq_comm]
    cases answer <;> simpa [attemptsFor, log, Outcome.isMade] using counted

/-! What an event does, seen from one span. -/

variable {event : Event} {id : String}

theorem handle_defaults : (exporter.handle toLowerCase event).defaults = exporter.defaults := by
  cases event with
  | spanStarted span =>
    rw [handle, trackStarted, trackDelegationChild_defaults]
    split <;> rfl
  | spanEnded span answer now =>
    have kept := (@record_sets toLowerCase (exporter.trackDelegationChild span) span answer now).2.2
    rw [handle, spanEnded]
    split <;> simp [finishTool, kept]
  | spanUpdated span => rfl
  | shutdown => rfl

/-- Only its own end leads to an attempt for a span. -/
theorem handle_attemptsFor :
    (exporter.handle toLowerCase event).attemptsFor id = exporter.attemptsFor id + match event with
      | .spanEnded span _ now =>
          if id = span.id ∧ (recordFor toLowerCase (exporter.trackDelegationChild span) span now).isMade = true then 1
          else 0
      | _ => 0 := by
  cases event with
  | spanStarted span =>
    rw [handle, trackStarted, attemptsFor, trackDelegationChild_attempts]
    split <;> rfl
  | spanEnded span answer now =>
    have counted := @record_attemptsFor toLowerCase (exporter.trackDelegationChild span) span answer now id
    have kept : (exporter.trackDelegationChild span).attemptsFor id = exporter.attemptsFor id := by
      rw [attemptsFor, trackDelegationChild_attempts, attemptsFor]
    rw [kept] at counted
    rw [handle, spanEnded]
    split <;> exact counted
  | spanUpdated span => rfl
  | shutdown => rfl

theorem handle_openToolSpans :
    id ∈ (exporter.handle toLowerCase event).openToolSpans ↔ match event with
      | .spanStarted span => id ∈ exporter.openToolSpans ∨ (span.type = .toolCall ∧ id = span.id)
      | .spanEnded span _ _ => id ∈ exporter.openToolSpans ∧ ¬(span.type = .toolCall ∧ id = span.id)
      | .spanUpdated _ => id ∈ exporter.openToolSpans
      | .shutdown => False := by
  cases event with
  | spanStarted span =>
    rw [handle, trackStarted, trackDelegationChild_openToolSpans]
    by_cases tool : span.type = .toolCall <;> simp [tool, or_comm]
  | spanEnded span answer now =>
    have kept := (@record_sets toLowerCase (exporter.trackDelegationChild span) span answer now).1
    rw [handle, spanEnded]
    by_cases tool : span.type = .toolCall <;> simp [tool, finishTool, kept, and_comm]
  | spanUpdated span => rfl
  | shutdown => simp [handle, shutdown]

/-- A tool that is open joins the delegations with the first run that names it, and leaves them when
it ends. -/
theorem handle_delegationToolSpans :
    id ∈ (exporter.handle toLowerCase event).delegationToolSpans ↔ match event with
      | .spanStarted span => id ∈ exporter.delegationToolSpans ∨ (id ∈ exporter.openToolSpans ∧ span.delegates id = true)
      | .spanEnded span _ _ =>
          (id ∈ exporter.delegationToolSpans ∨ (id ∈ exporter.openToolSpans ∧ span.delegates id = true)) ∧
            ¬(span.type = .toolCall ∧ id = span.id)
      | .spanUpdated _ => id ∈ exporter.delegationToolSpans
      | .shutdown => False := by
  cases event with
  | spanStarted span =>
    rw [handle, trackStarted, mem_trackDelegationChild]
    by_cases tool : span.type = .toolCall
    · have other : span.delegates id = false := by simp [Span.delegates, tool, SpanType.delegation]
      simp [tool, other]
    · simp [tool]
  | spanEnded span answer now =>
    have kept := (@record_sets toLowerCase (exporter.trackDelegationChild span) span answer now).2.1
    rw [handle, spanEnded]
    dsimp only
    rw [← mem_trackDelegationChild]
    by_cases tool : span.type = .toolCall
    · simp [tool, finishTool, kept, and_comm]
    · simp [tool, kept]
  | spanUpdated span => rfl
  | shutdown => simp [handle, shutdown]

end Exporter

/-! What holds after every run. -/

/-- Spans start once and before they end. -/
structure Ordered (events : List Event) : Prop where
  kinds : ∀ first ∈ events, ∀ second ∈ events, ∀ id kind other, first.started = some (id, kind) →
    second.started = some (id, other) → kind = other
  ends : ∀ event ∈ events, ∀ id, event.ended = some id → ∃ start ∈ events, start.started.map Prod.fst = some id

/-- What is known of a tool call while it is open, and of the attempts of a span that has not
ended. -/
structure Tracking (s : Traced) : Prop extends Ordered s.events, MeteredOnce s where
  opened : ∀ earlier start during, s.events = earlier ++ .spanStarted start :: during → start.type = .toolCall →
    (∀ event ∈ during, event.ended ≠ some start.id) → (∀ event ∈ during, event.stops = false) →
    start.id ∈ s.openToolSpans ∧ (start.id ∈ s.delegationToolSpans ↔ during.any (Event.delegates start.id) = true)
  unended : ∀ id, (∀ event ∈ s.events, event.ended ≠ some id) → s.attemptsFor id = 0

theorem Tracking.create (defaults : Option Attribution) : Tracking (Traced.create defaults) where
  kinds := by simp [Traced.create]
  ends := by simp [Traced.create]
  tools := by simp [Traced.create]
  spans := by simp [Traced.create, Exporter.create, Exporter.attemptsFor]
  tracked := by simp [Traced.create, Exporter.create]
  opened := by simp [Traced.create]
  unended := by simp [Traced.create, Exporter.create, Exporter.attemptsFor]

/-- A list that ends with one more item is cut before that item, or at it. -/
theorem append_cons_eq_concat {α : Type} {items earlier later : List α} {item last : α}
    (cut : items ++ [last] = earlier ++ item :: later) :
    (later = [] ∧ item = last ∧ items = earlier) ∨ ∃ rest, later = rest ++ [last] ∧ items = earlier ++ item :: rest := by
  rcases List.eq_nil_or_concat later with rfl | ⟨rest, final, rfl⟩
  · obtain ⟨same, ends⟩ := List.append_inj' cut rfl
    exact .inl ⟨rfl, by simpa using ends.symm, same⟩
  · rw [List.concat_eq_append, ← List.cons_append, ← List.append_assoc] at cut
    obtain ⟨same, ends⟩ := List.append_inj' cut rfl
    exact .inr ⟨rest, by simpa using ends.symm, same⟩

variable {s : Traced} {event : Event}

/-- The state after an event. -/
def Traced.next (toLowerCase : String → String) (s : Traced) (event : Event) : Traced :=
  { s.toExporter.handle toLowerCase event with events := s.events ++ [event] }

theorem Ordered.step (ordered : Ordered s.events) (behaved : WellBehaved s event) : Ordered (s.events ++ [event]) := by
  constructor
  · intro first inFirst second inSecond id kind other starts restarts
    rw [List.mem_append, List.mem_singleton] at inFirst inSecond
    rcases inFirst with inFirst | rfl
    · rcases inSecond with inSecond | rfl
      · exact ordered.kinds first inFirst second inSecond id kind other starts restarts
      · cases second with
        | spanStarted span =>
          cases restarts
          exact absurd (by rw [starts]; rfl) (behaved first inFirst)
        | _ => cases restarts
    · rcases inSecond with inSecond | rfl
      · cases first with
        | spanStarted span =>
          cases starts
          exact absurd (by rw [restarts]; rfl) (behaved second inSecond)
        | _ => cases starts
      · rw [starts] at restarts
        cases restarts
        rfl
  · intro last inside id ended
    rw [List.mem_append, List.mem_singleton] at inside
    rcases inside with inside | rfl
    · obtain ⟨start, found, starts⟩ := ordered.ends last inside id ended
      exact ⟨start, List.mem_append_left _ found, starts⟩
    · cases last with
      | spanEnded span answer now =>
        cases ended
        obtain ⟨start, found, starts⟩ := behaved.1
        exact ⟨start, List.mem_append_left _ found, by rw [starts]; rfl⟩
      | _ => cases ended

namespace Tracking

variable (tracking : Tracking s) (behaved : WellBehaved s event)

include tracking behaved

theorem step_opened {earlier during : List Event} {start : Span}
    (cut : s.events ++ [event] = earlier ++ .spanStarted start :: during) (tool : start.type = .toolCall)
    (runs : ∀ event ∈ during, event.ended ≠ some start.id) (stays : ∀ event ∈ during, event.stops = false) :
    start.id ∈ (s.next toLowerCase event).openToolSpans ∧
      (start.id ∈ (s.next toLowerCase event).delegationToolSpans ↔ during.any (Event.delegates start.id) = true) := by
  change start.id ∈ (s.toExporter.handle toLowerCase event).openToolSpans ∧
    (start.id ∈ (s.toExporter.handle toLowerCase event).delegationToolSpans ↔ _)
  rw [Exporter.handle_openToolSpans, Exporter.handle_delegationToolSpans]
  rcases append_cons_eq_concat cut with ⟨rfl, rfl, rfl⟩ | ⟨before, rfl, same⟩
  · have fresh : ¬(start.id ∈ s.openToolSpans ∨ start.id ∈ s.delegationToolSpans) := by
      intro tracked
      obtain ⟨⟨first, inside, starts⟩, -⟩ := tracking.tracked _ tracked
      exact behaved first inside (by rw [starts]; rfl)
    rw [not_or] at fresh
    simp [tool, fresh.1, fresh.2]
  · obtain ⟨inside, delegated⟩ := tracking.opened earlier start before same tool
      (fun event member => runs event (List.mem_append_left _ member))
      fun event member => stays event (List.mem_append_left _ member)
    have running := runs event (by simp)
    have staying := stays event (by simp)
    rw [List.any_append, Bool.or_eq_true, ← delegated]
    cases event with
    | spanStarted span => simp [inside, Event.delegates]
    | spanEnded span answer now =>
      have different : start.id ≠ span.id := fun same => running (by rw [same]; rfl)
      simp [inside, Event.delegates, different]
    | spanUpdated span => simp [inside, Event.delegates]
    | shutdown => cases staying

theorem step_unended {id : String} (runs : ∀ event ∈ s.events, event.ended ≠ some id) (running : event.ended ≠ some id) :
    (s.next toLowerCase event).attemptsFor id = 0 := by
  change (s.toExporter.handle toLowerCase event).attemptsFor id = 0
  rw [Exporter.handle_attemptsFor, tracking.unended id runs]
  cases event with
  | spanEnded span answer now =>
    have different : id ≠ span.id := fun same => running (by rw [same]; rfl)
    simp [different]
  | _ => rfl

theorem step_spans (id : String) : (s.next toLowerCase event).attemptsFor id ≤ 1 := by
  change (s.toExporter.handle toLowerCase event).attemptsFor id ≤ 1
  have before := tracking.spans id
  rw [Exporter.handle_attemptsFor]
  cases event with
  | spanEnded span answer now =>
    dsimp only
    split
    next ends =>
      rw [tracking.unended id (ends.1 ▸ behaved.2)]
    next => exact before
  | _ => exact before

theorem step_tracked {id : String}
    (tracked : id ∈ (s.next toLowerCase event).openToolSpans ∨ id ∈ (s.next toLowerCase event).delegationToolSpans) :
    OpenTool (s.events ++ [event]) id := by
  change id ∈ (s.toExporter.handle toLowerCase event).openToolSpans ∨
    id ∈ (s.toExporter.handle toLowerCase event).delegationToolSpans at tracked
  rw [Exporter.handle_openToolSpans, Exporter.handle_delegationToolSpans] at tracked
  have kept : OpenTool s.events id → event.ended ≠ some id → OpenTool (s.events ++ [event]) id := by
    rintro ⟨⟨start, inside, starts⟩, runs⟩ running
    refine ⟨⟨start, List.mem_append_left _ inside, starts⟩, ?_⟩
    intro last member
    rw [List.mem_append, List.mem_singleton] at member
    rcases member with member | rfl
    · exact runs last member
    · exact running
  cases event with
  | spanStarted span =>
    have cases' : (id ∈ s.openToolSpans ∨ id ∈ s.delegationToolSpans) ∨ (span.type = .toolCall ∧ id = span.id) := by tauto
    rcases cases' with before | ⟨tool, rfl⟩
    · exact kept (tracking.tracked id before) nofun
    · refine ⟨⟨.spanStarted span, by simp, by rw [Event.started, tool]⟩, ?_⟩
      intro last member ended
      rw [List.mem_append, List.mem_singleton] at member
      rcases member with member | rfl
      · obtain ⟨start, inside, starts⟩ := tracking.ends last member _ ended
        exact behaved start inside starts
      · cases ended
  | spanEnded span answer now =>
    have both : (id ∈ s.openToolSpans ∨ id ∈ s.delegationToolSpans) ∧ ¬(span.type = .toolCall ∧ id = span.id) := by tauto
    have before := tracking.tracked id both.1
    refine kept before fun ended => ?_
    cases ended
    -- the span that ends is the tool call that is open, and so has its type
    obtain ⟨first, inFirst, starts⟩ := before.1
    obtain ⟨second, inSecond, restarts⟩ := behaved.1
    exact both.2 ⟨tracking.kinds second inSecond first inFirst _ _ _ restarts starts, rfl⟩
  | spanUpdated span => exact kept (tracking.tracked id tracked) nofun
  | shutdown => exact absurd tracked (by simp)

theorem step_tools {earlier during later : List Event} {start : Span}
    (cut : s.events ++ [event] = earlier ++ .spanStarted start :: during ++ .spanEnded span answer now :: later)
    (same : start.id = span.id) (stays : ∀ event ∈ during, event.stops = false) (tool : span.type = .toolCall)
    (named : (nonEmpty span.entityName).isSome = true) (resolvable : Resolvable s.defaults span) :
    (s.next toLowerCase event).attemptsFor span.id = if during.any (Event.delegates span.id) then 0 else 1 := by
  change (s.toExporter.handle toLowerCase event).attemptsFor span.id = _
  rw [Exporter.handle_attemptsFor]
  rcases append_cons_eq_concat cut with ⟨rfl, rfl, before⟩ | ⟨rest, rfl, before⟩
  · -- the tool call ends with this event
    obtain ⟨first, inFirst, starts⟩ := behaved.1
    have begun : start.type = .toolCall := by
      rw [← tool]
      refine tracking.kinds (.spanStarted start) ?_ first inFirst span.id _ _ (by rw [Event.started, same]) starts
      rw [before]
      simp
    have runs : ∀ event ∈ during, event.ended ≠ some start.id := by
      intro event member
      rw [same]
      refine behaved.2 event ?_
      rw [before]
      simp [member]
    obtain ⟨-, delegated⟩ := tracking.opened earlier start during before begun runs stays
    rw [same] at delegated
    have none : s.attemptsFor span.id = 0 := tracking.unended span.id behaved.2
    have own : s.toExporter.trackDelegationChild span = s.toExporter := by
      simp [Exporter.trackDelegationChild, tool, SpanType.delegation]
    have recorded := @Exporter.recordFor_tool toLowerCase s.toExporter span now tool named resolvable
    rw [none]
    dsimp only
    rw [own]
    simp only [recorded, delegated, true_and, Nat.zero_add]
    cases during.any (Event.delegates span.id) <;> rfl
  · -- it has ended before, and no other span has its id
    have earlierOnce := tracking.tools earlier start during span answer now rest before same stays tool named resolvable
    rw [earlierOnce]
    cases event with
    | spanEnded other_ reply time =>
      have different : span.id ≠ other_.id := by
        intro again
        refine behaved.2 (.spanEnded span answer now) ?_ (by rw [Event.ended, again])
        rw [before]
        simp
      simp [different]
    | _ => rfl

theorem step : Tracking (s.next toLowerCase event) where
  toOrdered := tracking.toOrdered.step behaved
  tools := by
    intro earlier start during span answer now later cut same stays tool named resolvable
    refine tracking.step_tools behaved cut same stays tool named ?_
    have kept : (s.next toLowerCase event).defaults = s.defaults := Exporter.handle_defaults
    rwa [← kept]
  spans := tracking.step_spans behaved
  tracked := fun id => tracking.step_tracked behaved
  opened := fun earlier start during cut tool runs stays => tracking.step_opened behaved cut tool runs stays
  unended := by
    intro id runs
    refine tracking.step_unended behaved (fun event member => runs event ?_) (runs event ?_)
    · exact List.mem_append_left _ member
    · exact List.mem_append_right _ List.mem_cons_self

end Tracking

/-- After any run of well-behaved events, whatever the client and the spans did to recording: a
named tool call of someone was attempted once, or never where it delegated while it was open, every
other span was attempted at most once, and only tool calls that are open are tracked. -/
theorem run_metered_once {defaults : Option Attribution} {events : List Event}
    (run : Transition.Run (step toLowerCase) WellBehaved (Traced.create defaults) events s) : s.events = events ∧ MeteredOnce s := by
  have logged : s.events = events := by
    induction run with
    | refl => rfl
    | tail before permitted taken ih =>
      cases taken
      rw [ih]
  have tracking : Tracking s := by
    refine run.invariant Tracking (Tracking.create defaults) ?_
    intro before event after held behaved taken
    cases taken
    exact held.step behaved
  exact ⟨logged, tracking.toMeteredOnce⟩

/-- A span of one second, named `search`. -/
def namedSpan (id : String) (type : SpanType) (parentSpanId : Value) : Span :=
  { id
    traceId := "trace"
    type
    parentSpanId
    entityName := .string "search"
    attributes := some .undefined
    metadata := some .undefined
    startTime := .date (some 0)
    endTime := .date (some 1000)
    failed := false }

/-- Two tools are open at once: one of them delegates to an agent, and the client fails on the other. -/
def delegatedEvents : List Event :=
  [.spanStarted (namedSpan "wrapper" .toolCall (.string "root")),
    .spanStarted (namedSpan "plain" .toolCall (.string "root")),
    .spanStarted (namedSpan "agent" .agentRun (.string "wrapper")),
    .spanEnded (namedSpan "plain" .toolCall (.string "root")) .throws 0,
    .spanEnded (namedSpan "agent" .agentRun (.string "wrapper")) (.returns true) 0,
    .spanEnded (namedSpan "wrapper" .toolCall (.string "root")) (.returns true) 0]

theorem run_metered_once_delegated :
    let s := delegatedEvents.foldl (Traced.next id) (Traced.create (some [("environment", .string "test")]))
    (s.events = delegatedEvents ∧ MeteredOnce s) ∧ s.attemptsFor "wrapper" = 0 ∧ s.attemptsFor "plain" = 1 :=
  ⟨@run_metered_once id _ _ _ (Transition.Run.of_executeWithin rfl), by decide +kernel, by decide +kernel⟩

end Audr.Mastra
