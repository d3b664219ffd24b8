import Audr.Lib.Transition
import Audr.NemoRelay.Mapping

/-! Who is billed for a scope. A start inherits what its parent was given, or opens a
billing root of its own; a chain of starts leads from every scope to its root. A tracker
that has forgotten a parent cannot tell it from one it never saw. -/

namespace Audr.NemoRelay

open Python (Value)
open Record (Attribution)
open Transition (Run anyStep)

/-- One scope start as it was taken: its parent, whether it declared attribution of its
own, and the state the tracker gave it. -/
structure Started where
  uuid : String
  parent : Option String
  declares : Bool
  state : ScopeState
  deriving DecidableEq

/-- A tracker with its history: the starts it took and the operations it returned. -/
structure History (C : Type) where
  tracker : ScopeTracker
  starts : List Started
  emitted : List (Operation C)
  deriving DecidableEq

variable {C : Type} {lib : Library C}

def History.begin (defaults : Attribution) (maxScopes : Nat) : History C :=
  ⟨.create defaults maxScopes, [], []⟩

/-- The start an event is, if it is well formed. -/
def startOf (lib : Library C) (t : ScopeTracker) (event : Event) : Option Started :=
  match read lib event with
  | .start uuid parent timestamp metadata =>
      some ⟨uuid, parent, declaresAttribution metadata, t.startState uuid parent timestamp metadata⟩
  | _ => none

def operationOf : Except Python.Exception (MappingResult C) → Option (Operation C)
  | .ok (.ready operation) => some operation
  | _ => none

/-- One event, whatever it is. -/
def consumed (lib : Library C) (h : History C) (event : Event) : Option (History C) :=
  let (tracker, result) := h.tracker.consume lib event
  some
    { tracker
      starts := h.starts ++ (startOf lib h.tracker event).toList
      emitted := h.emitted ++ (operationOf result).toList }

/-- The last start under a name. -/
def lastStart (starts : List Started) (uuid : String) : Option Started :=
  starts.reverse.find? fun entry => entry.uuid = uuid

/-- The billed fields of an operation are those of the scope's own start. -/
def Billed (entry : Started) (shared : SharedFields) : Prop :=
  entry.uuid = shared.scopeId ∧ shared.runId = entry.state.rootUuid ∧
    shared.parentSpanId = (if entry.state.rootUuid = entry.uuid then none else entry.state.parentUuid) ∧
    entry.state.attribution = some shared.attribution

/-! One event. -/

/-- A normalization adds to the fields it is given, and leaves them as they are. -/
theorem normalizeLlm_shared {event : Event} {shared : SharedFields} {operation : Operation C}
    (ok : normalizeLlm lib event shared = .ok operation) : operation.shared = shared := by
  unfold normalizeLlm at ok
  simp only [bind, Except.bind] at ok
  repeat' split at ok
  all_goals cases ok
  all_goals rfl

theorem normalizeTool_shared {event : Event} {shared : SharedFields} {operation : Operation C}
    (ok : normalizeTool event shared = .ok operation) : operation.shared = shared := by
  unfold normalizeTool at ok
  split at ok
  · cases ok
  · cases ok
    rfl

theorem normalized_shared {event : Event} {category : String} {shared : SharedFields} {operation : Operation C}
    (ok : (if category = "llm" then normalizeLlm lib event shared else normalizeTool event shared) =
      .ok operation) : operation.shared = shared := by
  split at ok
  · exact normalizeLlm_shared ok
  · exact normalizeTool_shared ok

/-- An operation is only ever returned for an open scope that can be billed. -/
theorem finish_ready {event : Event} {uuid : String} {timestamp : Int} {state : Option ScopeState}
    {operation : Operation C}
    (ready : operationOf (ScopeTracker.finish lib event uuid timestamp state) = some operation) :
    ∃ open_ attribution, state = some open_ ∧ open_.attribution = some attribution ∧
      operation.shared.scopeId = uuid ∧ operation.shared.runId = open_.rootUuid ∧
      operation.shared.parentSpanId = (if open_.rootUuid = uuid then none else open_.parentUuid) ∧
      operation.shared.attribution = attribution := by
  unfold ScopeTracker.finish at ready
  split at ready
  next category _ =>
    split at ready
    · cases ready
    · cases state with
      | none => cases ready
      | some open_ =>
        simp only at ready
        split at ready
        · cases ready
        next attribution billed =>
          refine ⟨open_, attribution, rfl, billed, ?_⟩
          split at ready
          next finished normalized =>
            cases ready
            rw [normalized_shared normalized]
            exact ⟨rfl, rfl, rfl, rfl⟩
          · cases ready
          · cases ready
          · cases ready
  · split at ready <;> cases ready
  · cases ready

/-- What one event can do to a history: nothing, a start, or the end of an open scope. -/
inductive Consumed (lib : Library C) (h : History C) (event : Event) : History C → Prop where
  | aside : Consumed lib h event h
  | started {uuid parent timestamp metadata} (read : read lib event = .start uuid parent timestamp metadata) :
      Consumed lib h event
        { h with
          tracker := (h.tracker.trackStart (C := C) uuid parent timestamp metadata).1
          starts := h.starts ++ [⟨uuid, parent, declaresAttribution metadata,
            h.tracker.startState uuid parent timestamp metadata⟩] }
  | ended {uuid state} {ready : Option (Operation C)} (open_ : OrderedMap.get? h.tracker.scopes uuid = some state)
      (billed : ∀ operation ∈ ready, operation.shared.scopeId = uuid ∧ operation.shared.runId = state.rootUuid ∧
        operation.shared.parentSpanId = (if state.rootUuid = uuid then none else state.parentUuid) ∧
        state.attribution = some operation.shared.attribution) :
      Consumed lib h event
        { h with
          tracker :=
            { h.tracker with
              scopes := OrderedMap.erase h.tracker.scopes uuid
              retired := ScopeTracker.retire uuid h.tracker.maxScopes h.tracker.retired }
          emitted := h.emitted ++ ready.toList }

/-- No other operation is returned before the scopes are looked at. -/
theorem read_quiet {event : Event} {result : Except Python.Exception (MappingResult C)}
    (done : read lib event = .done result) : operationOf result = none := by
  unfold read at done
  repeat' split at done
  all_goals cases done
  all_goals rfl

theorem consumed_cases {h next : History C} {event : Event} (taken : consumed lib h event = some next) :
    Consumed lib h event next := by
  cases seen : read lib event with
  | done result =>
    have same : next = h := by
      simp only [consumed, startOf, ScopeTracker.consume, seen, read_quiet seen, Option.toList_none,
        List.append_nil, Option.some.injEq] at taken
      exact taken.symm
    rw [same]
    exact .aside
  | start uuid parent timestamp metadata =>
    have quiet : operationOf (.ok (h.tracker.trackStart (C := C) uuid parent timestamp metadata).2) = none := rfl
    simp only [consumed, startOf, ScopeTracker.consume, seen, quiet, Option.toList_some, Option.toList_none,
      List.append_nil, Option.some.injEq] at taken
    rw [← taken]
    exact .started seen
  | stop uuid timestamp =>
    cases open_ : OrderedMap.get? h.tracker.scopes uuid with
    | none =>
      have quiet : operationOf (ScopeTracker.finish lib event uuid timestamp none) = none := by
        cases ready : operationOf (ScopeTracker.finish lib event uuid timestamp none) with
        | none => rfl
        | some operation =>
          obtain ⟨state, _, none, _⟩ := finish_ready ready
          cases none
      simp only [consumed, startOf, ScopeTracker.consume, ScopeTracker.complete, seen, open_, quiet,
        Option.toList_none, List.append_nil, Option.some.injEq] at taken
      rw [← taken]
      exact .aside
    | some state =>
      simp only [consumed, startOf, ScopeTracker.consume, ScopeTracker.complete, seen, open_,
        Option.toList_none, List.append_nil, Option.some.injEq] at taken
      rw [← taken]
      refine .ended open_ fun operation ready => ?_
      obtain ⟨_, attribution, same, billed, scope, root, parent, given⟩ := finish_ready ready
      cases same
      exact ⟨scope, root, parent, given ▸ billed⟩

/-! What holds of every history. -/

/-- Dropping the oldest scopes leaves the newest, and both maps within their bound. -/
theorem evictOverflow_spec (limit : Nat) (scopes : List (String × ScopeState)) (retired : List String)
    (evicted : Nat) (bounded : retired.length ≤ limit) :
    (ScopeTracker.evictOverflow limit scopes retired evicted).1 <:+ scopes ∧
    (ScopeTracker.evictOverflow limit scopes retired evicted).1.length ≤ limit ∧
    (ScopeTracker.evictOverflow limit scopes retired evicted).2.1.length ≤ limit := by
  induction scopes generalizing retired evicted with
  | nil => exact ⟨List.suffix_refl _, Nat.zero_le _, bounded⟩
  | cons entry rest ih =>
    unfold ScopeTracker.evictOverflow
    split
    · obtain ⟨suffix, scopes, retired⟩ := ih _ (evicted + 1) (OrderedMap.trim_length limit _)
      exact ⟨suffix.trans (List.suffix_cons _ _), scopes, retired⟩
    next fits => exact ⟨List.suffix_refl _, Nat.le_of_not_lt fits, bounded⟩

/-- A start inherits from an earlier start of its parent, and is in the parent's billing root
with the parent's attribution; or it is a root. -/
def Rooted (before : List Started) (entry : Started) : Prop :=
  entry.state.parentUuid = entry.parent ∧
  (entry.state.rootUuid = entry.uuid ∨
    ∃ parent ∈ before, entry.parent = some parent.uuid ∧ parent.state.rootUuid = entry.state.rootUuid ∧
      parent.state.attribution = entry.state.attribution)

/-- The two maps agree with the starts taken, and every start is rooted in those before it. -/
structure Tracked (h : History C) : Prop where
  distinct : (OrderedMap.keys h.tracker.scopes).Nodup
  scopes : h.tracker.scopes.length ≤ h.tracker.maxScopes
  retired : h.tracker.retired.length ≤ h.tracker.maxScopes
  latest : ∀ uuid state, (uuid, state) ∈ h.tracker.scopes →
    ∃ entry, lastStart h.starts uuid = some entry ∧ entry.state = state
  rooted : ∀ before entry, before ++ [entry] <+: h.starts → Rooted before entry
  emitted : ∀ operation ∈ h.emitted, ∃ entry ∈ h.starts, Billed entry operation.shared

variable {h next : History C} {event : Event}

/-- The last start is the new one under its name, and the same as before under any other. -/
theorem lastStart_concat (starts : List Started) (entry : Started) (uuid : String) :
    lastStart (starts ++ [entry]) uuid = if entry.uuid = uuid then some entry else lastStart starts uuid := by
  rw [lastStart, List.reverse_append, List.reverse_singleton, List.singleton_append, List.find?_cons]
  by_cases same : entry.uuid = uuid <;> simp [same, lastStart]

theorem mem_of_lastStart {starts : List Started} {uuid : String} {entry : Started}
    (last : lastStart starts uuid = some entry) : entry ∈ starts ∧ entry.uuid = uuid := by
  refine ⟨List.mem_reverse.mp (List.mem_of_find?_eq_some last), ?_⟩
  simpa using List.find?_some last

/-- What `_start_state` can give a scope. -/
theorem startState_cases (t : ScopeTracker) (uuid : String) (parent : Option String) (timestamp : Int)
    (metadata : Option Value) :
    (∃ name state, parent = some name ∧ declaresAttribution metadata = false ∧
      OrderedMap.get? t.scopes name = some state ∧
      t.startState uuid parent timestamp metadata =
        ⟨parent, state.rootUuid, timestamp, state.attribution, state.attributionIssue⟩) ∨
    (declaresAttribution metadata = false ∧ (∃ name ∈ t.retired, parent = some name) ∧
      t.startState uuid parent timestamp metadata = ⟨parent, uuid, timestamp, none, some "/scope/parent_uuid"⟩) ∨
    ((declaresAttribution metadata = true ∨
        ∀ name, parent = some name → OrderedMap.get? t.scopes name = none ∧ name ∉ t.retired) ∧
      t.startState uuid parent timestamp metadata =
        ScopeTracker.rootState uuid parent timestamp (resolveAttribution t.defaults metadata)) := by
  unfold ScopeTracker.startState
  cases declares : declaresAttribution metadata with
  | true =>
    refine .inr (.inr ⟨.inl rfl, ?_⟩)
    cases parent.bind (OrderedMap.get? t.scopes) <;> rfl
  | false =>
    cases parent with
    | none => exact .inr (.inr ⟨.inr nofun, rfl⟩)
    | some name =>
      cases open_ : OrderedMap.get? t.scopes name with
      | some state => exact .inl ⟨name, state, rfl, rfl, open_, by simp [open_]⟩
      | none =>
        by_cases gone : name ∈ t.retired
        · exact .inr (.inl ⟨rfl, ⟨name, gone, rfl⟩, by simp [open_, gone]⟩)
        · refine .inr (.inr ⟨.inr fun other same => ?_, by simp [open_, gone]⟩)
          cases same
          exact ⟨open_, gone⟩

theorem tracked_begin (defaults : Attribution) (maxScopes : Nat) :
    Tracked (History.begin (C := C) defaults maxScopes) := by
  refine ⟨List.nodup_nil, Nat.zero_le _, Nat.zero_le _, fun _ _ member => absurd member List.not_mem_nil,
    fun before entry first => ?_, fun _ member => absurd member List.not_mem_nil⟩
  have short := first.length_le
  simp [History.begin] at short

theorem Tracked.consumed (tracked : Tracked h) (taken : Consumed lib h event next) : Tracked next := by
  cases taken with
  | aside => exact tracked
  | ended open_ billed =>
    refine ⟨OrderedMap.erase_nodup tracked.distinct, ?_, OrderedMap.trim_length _ _,
      fun uuid state member => tracked.latest uuid state (OrderedMap.mem_erase.mp member).1, tracked.rooted, ?_⟩
    · exact (List.filter_sublist.length_le).trans tracked.scopes
    · intro operation member
      rcases List.mem_append.mp member with old | new
      · exact tracked.emitted operation old
      · obtain ⟨scope, root, parent, given⟩ := billed operation (by simpa using new)
        obtain ⟨entry, last, same⟩ := tracked.latest _ _ (OrderedMap.mem_of_get? open_)
        obtain ⟨entered, named⟩ := mem_of_lastStart last
        refine ⟨entry, entered, named.trans scope.symm, ?_, ?_, ?_⟩
        · rw [same, root]
        · rw [same, parent, named]
        · rw [same, given]
  | @started uuid parent timestamp metadata seen =>
    obtain ⟨suffix, scopes, retired⟩ := evictOverflow_spec h.tracker.maxScopes
      (OrderedMap.set h.tracker.scopes uuid (h.tracker.startState uuid parent timestamp metadata))
      h.tracker.retired 0 tracked.retired
    refine ⟨?_, scopes, retired, fun name state member => ?_, fun before entry first => ?_, fun operation member => ?_⟩
    · exact (suffix.sublist.map Prod.fst).nodup (OrderedMap.set_nodup tracked.distinct)
    · rw [lastStart_concat]
      rcases OrderedMap.mem_set.mp (suffix.subset member) with ⟨old, other⟩ | new
      · rw [if_neg (Ne.symm other)]
        exact tracked.latest name state old
      · cases new
        rw [if_pos rfl]
        exact ⟨_, rfl, rfl⟩
    · rcases List.prefix_concat_iff.mp first with last | old
      · obtain ⟨rfl, same⟩ := List.append_inj' last rfl
        cases same
        rcases startState_cases h.tracker uuid parent timestamp metadata with
          ⟨name, state, rfl, _, open_, inherits⟩ | ⟨_, _, lost⟩ | ⟨_, root⟩
        · obtain ⟨entry, last, same⟩ := tracked.latest _ _ (OrderedMap.mem_of_get? open_)
          obtain ⟨entered, named⟩ := mem_of_lastStart last
          refine ⟨congrArg ScopeState.parentUuid inherits, .inr ⟨entry, entered, by rw [named], ?_, ?_⟩⟩
          · simp only [inherits, same]
          · simp only [inherits, same]
        · exact ⟨congrArg ScopeState.parentUuid lost, .inl (congrArg ScopeState.rootUuid lost)⟩
        · simp only [Rooted, root, ScopeTracker.rootState]
          split <;> exact ⟨rfl, .inl rfl⟩
      · exact tracked.rooted before entry old
    · obtain ⟨entry, entered, billed⟩ := tracked.emitted operation member
      exact ⟨entry, List.mem_append_left _ entered, billed⟩

/-- Up the chain of its parents every start reaches its root, which was given the same. -/
theorem Tracked.root (tracked : Tracked h) (before : List Started) (entry : Started)
    (first : before ++ [entry] <+: h.starts) :
    ∃ root ∈ before ++ [entry], root.uuid = entry.state.rootUuid ∧ root.state.rootUuid = root.uuid ∧
      root.state.attribution = entry.state.attribution := by
  induction size : before.length using Nat.strong_induction_on generalizing before entry with
  | _ length ih =>
    obtain ⟨_, own | ⟨parent, earlier, _, root, given⟩⟩ := tracked.rooted before entry first
    · exact ⟨entry, by simp, own.symm, own, rfl⟩
    · obtain ⟨less, more, rfl⟩ := List.append_of_mem earlier
      have upTo : less ++ [parent] <+: h.starts := by
        refine List.IsPrefix.trans ?_ first
        exact ⟨more ++ [entry], by simp⟩
      obtain ⟨top, member, named, its, same⟩ := ih less.length (by simp at size; omega) less parent upTo rfl
      refine ⟨top, ?_, named.trans root, its, same.trans given⟩
      rcases List.mem_append.mp member with inner | last
      · simp [inner]
      · rw [List.mem_singleton.mp last]
        simp

/-- If no name is started twice, none is reported twice and no reported scope is open. -/
def Once (h : History C) : Prop :=
  (h.starts.map Started.uuid).Nodup →
    (h.emitted.map fun operation => operation.shared.scopeId).Nodup ∧
    ∀ operation ∈ h.emitted, operation.shared.scopeId ∉ OrderedMap.keys h.tracker.scopes

theorem Once.consumed (once : Once h) (tracked : Tracked h) (taken : Consumed lib h event next) : Once next := by
  cases taken with
  | aside => exact once
  | @ended uuid state ready open_ billed =>
    intro distinct
    obtain ⟨single, closed⟩ := once distinct
    have opened : uuid ∈ OrderedMap.keys h.tracker.scopes := by
      rw [← OrderedMap.get?_isSome, open_]
      rfl
    refine ⟨?_, fun operation member => ?_⟩
    · rw [List.map_append]
      refine List.nodup_append.mpr ⟨single, ?_, ?_⟩
      · cases ready <;> simp
      · rintro old earlier new member rfl
        obtain ⟨operation, reported, rfl⟩ := List.mem_map.mp earlier
        obtain ⟨other, another, same⟩ := List.mem_map.mp member
        refine closed operation reported ?_
        rw [← same, (billed other (by simpa using another)).1]
        exact opened
    · intro kept
      rw [OrderedMap.keys_erase, List.mem_filter] at kept
      rcases List.mem_append.mp member with old | new
      · exact closed operation old kept.1
      · rw [(billed operation (by simpa using new)).1] at kept
        simp at kept
  | @started uuid parent timestamp metadata seen =>
    intro distinct
    simp only [List.map_append, List.map_cons, List.map_nil] at distinct
    obtain ⟨before, _, fresh⟩ := List.nodup_append.mp distinct
    obtain ⟨single, closed⟩ := once before
    refine ⟨single, fun operation member opened => ?_⟩
    obtain ⟨suffix, _⟩ := evictOverflow_spec h.tracker.maxScopes
      (OrderedMap.set h.tracker.scopes uuid (h.tracker.startState uuid parent timestamp metadata))
      h.tracker.retired 0 tracked.retired
    obtain ⟨pair, inside, named⟩ := List.mem_map.mp opened
    rcases OrderedMap.mem_set.mp (suffix.subset inside) with ⟨old, _⟩ | new
    · refine closed operation member ?_
      rw [← named]
      exact List.mem_map_of_mem old
    · obtain ⟨entry, entered, scope, _⟩ := tracked.emitted operation member
      refine fresh entry.uuid (List.mem_map_of_mem entered) uuid (List.mem_singleton.mpr rfl) ?_
      rw [scope, ← named, new]

/-- The histories of a tracker. -/
abbrev Reaches (lib : Library C) (defaults : Attribution) (maxScopes : Nat) (events : List Event)
    (h : History C) : Prop :=
  Run (consumed lib) anyStep (.begin defaults maxScopes) events h

variable {defaults : Attribution} {maxScopes : Nat} {events : List Event}

theorem tracked_run {allowed : History C → Event → Prop}
    (run : Run (consumed lib) allowed (.begin defaults maxScopes) events h) :
    Tracked h ∧ Once h ∧ h.tracker.maxScopes = maxScopes := by
  refine run.invariant (fun h => Tracked h ∧ Once h ∧ h.tracker.maxScopes = maxScopes)
    ⟨tracked_begin defaults maxScopes, fun _ => ⟨List.nodup_nil, fun _ member => absurd member List.not_mem_nil⟩, rfl⟩ ?_
  rintro before event after ⟨tracked, once, bound⟩ _ taken
  have cases := consumed_cases taken
  refine ⟨tracked.consumed cases, once.consumed tracked cases, ?_⟩
  cases cases <;> exact bound

/-- The run tree. Whatever events come in, when no name is started twice each start is
reported at most once; its run is a root that was given what is billed; its parent span is
an earlier start under the same root, or it is the root; and both maps keep their bound. -/
theorem run_tree (run : Reaches lib defaults maxScopes events h)
    (once : (h.starts.map Started.uuid).Nodup) :
    (h.emitted.map fun operation => operation.shared.scopeId).Nodup ∧
    (∀ operation ∈ h.emitted, ∃ before entry, before ++ [entry] <+: h.starts ∧
      entry.uuid = operation.shared.scopeId ∧
      (∃ root ∈ before ++ [entry], root.uuid = operation.shared.runId ∧ root.state.rootUuid = root.uuid ∧
        root.state.attribution = some operation.shared.attribution) ∧
      (operation.shared.parentSpanId = none → operation.shared.runId = operation.shared.scopeId) ∧
      ∀ name, operation.shared.parentSpanId = some name →
        ∃ parent ∈ before, parent.uuid = name ∧ parent.state.rootUuid = operation.shared.runId) ∧
    h.tracker.scopes.length ≤ maxScopes ∧ h.tracker.retired.length ≤ maxScopes := by
  obtain ⟨tracked, single, bound⟩ := tracked_run run
  refine ⟨(single once).1, fun operation reported => ?_, bound ▸ tracked.scopes, bound ▸ tracked.retired⟩
  obtain ⟨entry, entered, scope, runId, span, given⟩ := tracked.emitted operation reported
  obtain ⟨before, after, split⟩ := List.append_of_mem entered
  have first : before ++ [entry] <+: h.starts := ⟨after, by simp [split]⟩
  refine ⟨before, entry, first, scope, ?_, fun none => ?_, fun name some => ?_⟩
  · obtain ⟨root, member, named, its, same⟩ := tracked.root before entry first
    exact ⟨root, member, named.trans runId.symm, its, same.trans given⟩
  · obtain ⟨parentUuid, own | ⟨parent, _, named, _⟩⟩ := tracked.rooted before entry first
    · rw [runId, own, scope]
    · rw [none] at span
      split_ifs at span with own
      · rw [runId, own, scope]
      · rw [parentUuid, named] at span
        cases span
  · rw [some] at span
    split_ifs at span with own
    obtain ⟨parentUuid, its | ⟨parent, earlier, named, root, _⟩⟩ := tracked.rooted before entry first
    · exact absurd its own
    · refine ⟨parent, earlier, ?_, root.trans runId.symm⟩
      rw [parentUuid, named, Option.some.injEq] at span
      exact span.symm

/-! Lost parents. -/

/-- UUIDs are the same in either case. -/
def sameUuid (one other : String) : Bool :=
  one.toList.map Char.toLower = other.toList.map Char.toLower

/-- A start that declares no attribution finds its parent among the open or the retired scopes,
if it was started before. -/
def keepsLineage (lib : Library C) (h : History C) (event : Event) : Bool :=
  match read lib event with
  | .start _ (some parent) _ metadata =>
      declaresAttribution metadata || !(h.starts.any fun entry => sameUuid entry.uuid parent) ||
        (OrderedMap.get? h.tracker.scopes parent).isSome || decide (parent ∈ h.tracker.retired)
  | _ => true

/-- A start under a parent that was started before is given what the parent was given, or nothing. -/
def Inherits (before : List Started) (entry : Started) : Prop :=
  entry.declares = false → ∀ name, entry.parent = some name →
    (∃ earlier ∈ before, sameUuid earlier.uuid name = true) →
    entry.state.attribution = none ∨
      ∃ parent, lastStart before name = some parent ∧ entry.state.attribution = parent.state.attribution

theorem inherits_consumed (tracked : Tracked h) (taken : Consumed lib h event next)
    (permitted : keepsLineage lib h event = true)
    (inherits : ∀ before entry, before ++ [entry] <+: h.starts → Inherits before entry) :
    ∀ before entry, before ++ [entry] <+: next.starts → Inherits before entry := by
  cases taken with
  | aside => exact inherits
  | ended => exact inherits
  | @started uuid parent timestamp metadata seen =>
    intro before entry first
    rcases List.prefix_concat_iff.mp first with last | old
    · obtain ⟨rfl, same⟩ := List.append_inj' last rfl
      cases same
      intro declares name named earlier
      have undeclared : declaresAttribution metadata = false := declares
      have parentName : parent = some name := named
      rcases startState_cases h.tracker uuid parent timestamp metadata with
        ⟨other, state, same, _, open_, inherited⟩ | ⟨_, _, lost⟩ | ⟨unseen, _⟩
      · rw [parentName, Option.some.injEq] at same
        obtain ⟨started, last, its⟩ := tracked.latest _ _ (OrderedMap.mem_of_get? open_)
        exact .inr ⟨started, same ▸ last, by simp only [inherited, its]⟩
      · exact .inl (congrArg ScopeState.attribution lost)
      · obtain ⟨closed, forgotten⟩ := unseen.resolve_left (by simp [undeclared]) name parentName
        obtain ⟨started, entered, same⟩ := earlier
        have known : (h.starts.any fun entry => sameUuid entry.uuid name) = true :=
          List.any_eq_true.mpr ⟨started, entered, same⟩
        simp [keepsLineage, seen, parentName, undeclared, known, closed, forgotten] at permitted
    · exact inherits before entry old

/-- No misattributed billing, as long as no start names a parent the tracker has forgotten
or knows under another spelling. -/
theorem never_misattributed
    (run : Run (consumed lib) (fun h event => keepsLineage lib h event = true)
      (.begin defaults maxScopes) events h) :
    (∀ before entry, before ++ [entry] <+: h.starts → Inherits before entry) ∧
    ∀ operation ∈ h.emitted, ∃ entry ∈ h.starts, entry.uuid = operation.shared.scopeId ∧
      entry.state.attribution = some operation.shared.attribution := by
  have both : Tracked h ∧ ∀ before entry, before ++ [entry] <+: h.starts → Inherits before entry := by
    refine run.invariant
      (fun h => Tracked h ∧ ∀ before entry, before ++ [entry] <+: h.starts → Inherits before entry)
      ⟨tracked_begin defaults maxScopes, fun before entry first => ?_⟩ ?_
    · have short := first.length_le
      simp [History.begin] at short
    · rintro before label after ⟨tracked, inherits⟩ permitted taken
      have cases := consumed_cases taken
      exact ⟨tracked.consumed cases, inherits_consumed tracked cases permitted inherits⟩
  refine ⟨both.2, fun operation reported => ?_⟩
  obtain ⟨entry, entered, scope, _, _, given⟩ := both.1.emitted operation reported
  exact ⟨entry, entered, scope, given⟩

/-! Runs on fixed events, with every timestamp at the epoch. -/

def epochLibrary : Library Unit := ⟨id, fun _ => .at 0, fun _ _ => none, fun _ => true⟩

def testDefaults : Attribution := ⟨some .test, none, none, some "sub_default", none, none⟩

def scopeEvent (category uuid : String) (rest : List (String × Value)) : Event :=
  [("kind", .str "scope"), ("scope_category", .str category), ("uuid", .str uuid), ("timestamp", .str "Z")] ++ rest

def rootId : String := "00000000-0000-4000-8000-00000000000a"
def otherId : String := "00000000-0000-4000-8000-00000000000b"
def childId : String := "00000000-0000-4000-8000-00000000000c"

def declaredRoot : Event :=
  scopeEvent "start" rootId [("metadata", .obj [("audr", .obj [("subscription_id", .str "sub_root")])])]

/-- A root with a subscription of its own ends, another scope comes and goes, and then a
child of the first starts. -/
def forgottenEvents : List Event :=
  [declaredRoot, scopeEvent "end" rootId [], scopeEvent "start" otherId [], scopeEvent "end" otherId [],
    scopeEvent "start" childId [("parent_uuid", .str rootId)]]

def forgotten : History Unit :=
  (Transition.execute (consumed epochLibrary) (.begin testDefaults 1) forgottenEvents).getD (.begin testDefaults 1)

/-- With room for one scope the root is forgotten, and its child is billed to the defaults. -/
theorem forgotten_parent_billed : Reaches epochLibrary testDefaults 1 forgottenEvents forgotten ∧
    ∃ root other child, forgotten.starts = [root, other, child] ∧ child.parent = some root.uuid ∧
      child.declares = false ∧ child.state.attribution = some testDefaults ∧
      root.state.attribution ≠ some testDefaults :=
  ⟨Run.of_execute rfl, _, _, _, rfl, rfl, rfl, by decide, by decide⟩

/-- The same root with a tool call under it. -/
def toolEvents : List Event :=
  [declaredRoot, scopeEvent "start" childId [("parent_uuid", .str rootId)],
    scopeEvent "end" childId [("category", .str "tool"), ("name", .str "search")]]

def toolCalled : History Unit :=
  (Transition.executeWithin (consumed epochLibrary) (fun h event => keepsLineage epochLibrary h event = true)
    (.begin testDefaults 2) toolEvents).getD (.begin testDefaults 2)

theorem never_misattributed_child : ∃ root child, toolCalled.starts = [root, child] ∧
    child.state.attribution = root.state.attribution ∧ root.state.attribution ≠ some testDefaults := by
  have run : Run (consumed epochLibrary) (fun h event => keepsLineage epochLibrary h event = true)
      (.begin testDefaults 2) toolEvents toolCalled := Run.of_executeWithin rfl
  refine ⟨_, _, rfl, ?_, by decide⟩
  rcases (never_misattributed run).1 [_] _ (List.prefix_refl _) rfl rootId rfl ⟨_, List.mem_singleton.mpr rfl, by decide⟩ with
    lost | ⟨parent, last, same⟩
  · cases lost
  · cases last
    exact same

theorem run_tree_child : toolCalled.emitted.length = 1 ∧
    (toolCalled.emitted.map fun operation => operation.shared.scopeId).Nodup ∧
    toolCalled.tracker.scopes.length ≤ 2 := by
  have run : Reaches epochLibrary testDefaults 2 toolEvents toolCalled := Run.of_execute rfl
  have tree := run_tree run (by decide)
  exact ⟨rfl, tree.1, tree.2.2.1⟩

end Audr.NemoRelay
