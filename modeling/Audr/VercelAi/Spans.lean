import Audr.VercelAi.Lineage

/-! No two records have one span id. Model, rerank and tool spans count up within a call; a
tool span is recorded when it is closed, after which the call no longer has it open; an
embedding is recorded when its hook comes back from `mapResource`. -/

namespace Audr.VercelAi

variable {s t : Telemetry} {spans : List Span}

/-- The embedding a hook is to record. -/
def Hook.embedCallId? (hook : Hook) : Option String :=
  match hook.event with
  | .embed embedCallId _ _ => some embedCallId
  | _ => none

/-- The open tool spans of a call: each has its own index, and was opened by this call. -/
structure Opened (call : Nat) (toolSpans : List ToolSpan) (tracked : TrackedCall) : Prop where
  keys : (OrderedMap.keys tracked.openToolSpans).Nodup
  ids : (tracked.openToolSpans.map Prod.snd).Nodup
  indexed : ∀ entry ∈ tracked.openToolSpans, ∃ index < tracked.toolCalls,
    entry.2 = toolSpanId tracked.callId index entry.1
  known : ∀ entry ∈ tracked.openToolSpans, ⟨call, entry.2⟩ ∈ toolSpans

/-- A change of a call that takes back no index and opens no span of an old one. -/
structure Grown (before after : TrackedCall) : Prop where
  callId : after.callId = before.callId
  modelCalls : before.modelCalls ≤ after.modelCalls
  rerankCalls : before.rerankCalls ≤ after.rerankCalls
  toolCalls : before.toolCalls ≤ after.toolCalls
  closed : ∀ index < before.toolCalls, ∀ toolCallId,
    toolSpanId before.callId index toolCallId ∈ after.openToolSpans.map Prod.snd →
      toolSpanId before.callId index toolCallId ∈ before.openToolSpans.map Prod.snd

theorem toolSpanId_inj {callId a b : String} {m n : Nat} (plain : colonFree callId)
    (same : toolSpanId callId m a = toolSpanId callId n b) : m = n ∧ a = b := by
  have equal : Span.tool callId m a = Span.tool callId n b :=
    Span.id_inj (by rintro _ ⟨⟩; exact plain) (by rintro _ ⟨⟩; exact plain) same
  cases equal
  exact ⟨rfl, rfl⟩

namespace Telemetry

/-- The embeddings whose hooks are in `mapResource`. -/
def pendingEmbeds (s : Telemetry) : List String := s.hooks.filterMap Hook.embedCallId?

/-- A span that has had its chance of a record. -/
def Used (s : Telemetry) : Span → Prop
  | .model callId index => ∃ tracked ∈ s.objects, tracked.callId = callId ∧ index < tracked.modelCalls
  | .tool callId index toolCallId => ∃ tracked ∈ s.objects, tracked.callId = callId ∧ index < tracked.toolCalls ∧
      toolSpanId callId index toolCallId ∉ tracked.openToolSpans.map Prod.snd
  | .embed embedCallId => embedCallId ∈ s.embedEnds ∧ embedCallId ∉ s.pendingEmbeds
  | .rerank callId index => ∃ tracked ∈ s.objects, tracked.callId = callId ∧ index < tracked.rerankCalls

/-- The records' span ids are those of different spans, each of them used. -/
structure Spanned (s : Telemetry) (spans : List Span) : Prop where
  ids : (s.records.map fun produced => produced.record.run.spanId) = spans.map Span.id
  once : spans.Nodup
  used : ∀ span ∈ spans, s.Used span
  opened : ∀ (call : Nat) (tracked : TrackedCall), s.objects[call]? = some tracked → Opened call s.toolSpans tracked
  pending : s.pendingEmbeds.Nodup
  ended : s.pendingEmbeds ⊆ s.embedEnds

theorem create_spanned (defaults : Option Attribution) : (create defaults).Spanned [] := by
  constructor <;> simp [create, pendingEmbeds]

/-- Calls are told apart by their ids. -/
theorem Stepped.unique (stepped : s.Stepped) {a b : TrackedCall} (first : a ∈ s.objects) (second : b ∈ s.objects)
    (same : a.callId = b.callId) : a = b := by
  have distinct : (s.objects.map fun tracked => tracked.callId).Nodup := by
    simpa [infos, Function.comp_def] using stepped.distinct
  exact List.inj_on_of_nodup_map distinct first second same

theorem Stepped.plain_object (stepped : s.Stepped) {tracked : TrackedCall} (inside : tracked ∈ s.objects) :
    colonFree tracked.callId :=
  stepped.plain tracked.toCallInfo (List.mem_map_of_mem inside)

/-- The calls a used span can belong to have plain ids. -/
theorem Used.plain (stepped : s.Stepped) {span : Span} (used : s.Used span) :
    ∀ callId ∈ span.callId?, colonFree callId := by
  cases span with
  | model =>
    rintro _ ⟨⟩
    obtain ⟨tracked, inside, rfl, _⟩ := used
    exact stepped.plain_object inside
  | tool =>
    rintro _ ⟨⟩
    obtain ⟨tracked, inside, rfl, _⟩ := used
    exact stepped.plain_object inside
  | embed => nofun
  | rerank =>
    rintro _ ⟨⟩
    obtain ⟨tracked, inside, rfl, _⟩ := used
    exact stepped.plain_object inside

/-- Different spans have different ids. -/
theorem Spanned.nodup (spanned : s.Spanned spans) (stepped : s.Stepped) :
    (s.records.map fun produced => produced.record.run.spanId).Nodup := by
  rw [spanned.ids]
  refine List.Nodup.map_on ?_ spanned.once
  intro a first b second
  exact Span.id_inj (Used.plain stepped (spanned.used a first)) (Used.plain stepped (spanned.used b second))

/-! Steps that record nothing. -/

/-- More calls, spans opened elsewhere, or a hook that has come back. -/
theorem Used.mono (objects : s.objects ⊆ t.objects) (ends : s.embedEnds ⊆ t.embedEnds)
    (pending : ∀ embedCallId ∈ t.pendingEmbeds, embedCallId ∈ s.pendingEmbeds ∨ embedCallId ∉ s.embedEnds)
    {span : Span} (used : s.Used span) : t.Used span := by
  cases span with
  | model =>
    obtain ⟨tracked, inside, rest⟩ := used
    exact ⟨tracked, objects inside, rest⟩
  | tool =>
    obtain ⟨tracked, inside, rest⟩ := used
    exact ⟨tracked, objects inside, rest⟩
  | embed =>
    obtain ⟨ended, free⟩ := used
    exact ⟨ends ended, fun waits => (pending _ waits).elim free fun unknown => unknown ended⟩
  | rerank =>
    obtain ⟨tracked, inside, rest⟩ := used
    exact ⟨tracked, objects inside, rest⟩

theorem Opened.mono {call : Nat} {tracked : TrackedCall} {known more : List ToolSpan}
    (opened : Opened call known tracked) (grown : known ⊆ more) : Opened call more tracked :=
  ⟨opened.keys, opened.ids, opened.indexed, fun entry inside => grown (opened.known entry inside)⟩

theorem Spanned.keep (spanned : s.Spanned spans) (objects : t.objects = s.objects) (records : t.records = s.records)
    (toolSpans : s.toolSpans ⊆ t.toolSpans) (ends : s.embedEnds ⊆ t.embedEnds)
    (pending : ∀ embedCallId ∈ t.pendingEmbeds, embedCallId ∈ s.pendingEmbeds ∨ embedCallId ∉ s.embedEnds)
    (distinct : t.pendingEmbeds.Nodup) (ended : t.pendingEmbeds ⊆ t.embedEnds) : t.Spanned spans where
  ids := by rw [records, spanned.ids]
  once := spanned.once
  used span inside := Used.mono (objects ▸ List.Subset.refl _) ends pending (spanned.used span inside)
  opened call tracked object := by
    rw [objects] at object
    exact Opened.mono (spanned.opened call tracked object) toolSpans
  pending := distinct
  ended := ended

theorem Spanned.add (spanned : s.Spanned spans) (info : CallInfo) (parent : Option Nat) :
    (s.add info parent).Spanned spans := by
  refine ⟨spanned.ids, spanned.once, ?_, ?_, spanned.pending, spanned.ended⟩
  · intro span inside
    exact Used.mono (s := s) (t := s.add info parent) (List.subset_append_left _ _) (List.Subset.refl _)
      (fun _ waits => Or.inl waits) (spanned.used span inside)
  · intro call tracked object
    obtain before | ⟨_, rfl⟩ := getElem?_append_singleton object
    · exact spanned.opened call tracked before
    · exact ⟨List.nodup_nil, List.nodup_nil, nofun, nofun⟩

theorem object_modify (s : Telemetry) (call place : Nat) (change : TrackedCall → TrackedCall) :
    (s.modify call change).objects[place]? =
      s.objects[place]?.map fun tracked => if call = place then change tracked else tracked := by
  simp only [modify, List.getElem?_modify]
  rfl

theorem object_modify_self {call : Nat} {tracked : TrackedCall} (object : s.objects[call]? = some tracked)
    (change : TrackedCall → TrackedCall) : (s.modify call change).objects[call]? = some (change tracked) := by
  rw [object_modify, object, Option.map_some, if_pos rfl]

theorem Used.modify {call : Nat} {change : TrackedCall → TrackedCall}
    (grown : ∀ tracked, s.objects[call]? = some tracked → Grown tracked (change tracked)) {span : Span}
    (used : s.Used span) : (s.modify call change).Used span := by
  -- Every call is still there, grown at most.
  have still : ∀ tracked ∈ s.objects, ∃ after ∈ (s.modify call change).objects, Grown tracked after := by
    intro tracked inside
    obtain ⟨place, object⟩ := List.getElem?_of_mem inside
    have after := object_modify s call place change
    rw [object, Option.map_some] at after
    refine ⟨_, List.mem_of_getElem? after, ?_⟩
    split
    next here_ => exact grown tracked (here_ ▸ object)
    next => exact ⟨rfl, le_rfl, le_rfl, le_rfl, fun _ _ _ open_ => open_⟩
  cases span with
  | model =>
    obtain ⟨tracked, inside, rfl, below⟩ := used
    obtain ⟨after, there, grown⟩ := still tracked inside
    exact ⟨after, there, grown.callId, below.trans_le grown.modelCalls⟩
  | tool callId index toolCallId =>
    obtain ⟨tracked, inside, rfl, below, closed⟩ := used
    obtain ⟨after, there, grown⟩ := still tracked inside
    exact ⟨after, there, grown.callId, below.trans_le grown.toolCalls,
      fun open_ => closed (grown.closed index below toolCallId open_)⟩
  | embed => exact used
  | rerank =>
    obtain ⟨tracked, inside, rfl, below⟩ := used
    obtain ⟨after, there, grown⟩ := still tracked inside
    exact ⟨after, there, grown.callId, below.trans_le grown.rerankCalls⟩

theorem Spanned.modify (spanned : s.Spanned spans) {call : Nat} {change : TrackedCall → TrackedCall}
    (grown : ∀ tracked, s.objects[call]? = some tracked → Grown tracked (change tracked))
    (opened : ∀ tracked, s.objects[call]? = some tracked → Opened call s.toolSpans (change tracked)) :
    (s.modify call change).Spanned spans := by
  refine ⟨spanned.ids, spanned.once, ?_, ?_, spanned.pending, spanned.ended⟩
  · intro span inside
    exact Used.modify grown (spanned.used span inside)
  · intro place after object
    rw [object_modify] at object
    obtain ⟨tracked, before, rfl⟩ := Option.map_eq_some_iff.mp object
    split
    next here_ =>
      subst here_
      exact opened tracked before
    next => exact spanned.opened place tracked before

/-! Opening and closing a tool span. -/

theorem Spanned.openToolSpan (spanned : s.Spanned spans) (stepped : s.Stepped) {call : Nat} {tracked : TrackedCall}
    (object : s.objects[call]? = some tracked) (toolCallId : String) :
    (s.openToolSpan call tracked toolCallId).2.Spanned spans := by
  have plain := stepped.plain_object (List.mem_of_getElem? object)
  have opened := spanned.opened call tracked object
  -- An open span has an index below the one taken now.
  have fresh : ∀ index < tracked.toolCalls, ∀ other_, toolSpanId tracked.callId index other_ ≠
      toolSpanId tracked.callId tracked.toolCalls toolCallId := by
    intro index below other_ same
    have equal := (toolSpanId_inj plain same).1
    omega
  have known : ({ s with toolSpans := s.toolSpans ++
      [⟨call, toolSpanId tracked.callId tracked.toolCalls toolCallId⟩] } : Telemetry).Spanned spans :=
    spanned.keep rfl rfl (List.subset_append_left _ _) (List.Subset.refl _) (fun _ waits => Or.inl waits)
      spanned.pending spanned.ended
  refine known.modify ?_ ?_
  · intro found at_
    cases (object.symm.trans at_)
    refine ⟨rfl, le_rfl, le_rfl, Nat.le_succ _, ?_⟩
    intro index below other_ open_
    obtain ⟨entry, inside, same⟩ := List.mem_map.mp open_
    obtain ⟨before, _⟩ | rfl := OrderedMap.mem_set.mp inside
    · exact List.mem_map.mpr ⟨entry, before, same⟩
    · exact absurd same.symm (fresh index below other_)
  · intro found at_
    cases (object.symm.trans at_)
    refine ⟨OrderedMap.set_nodup opened.keys, ?_, ?_, ?_⟩
    · simp only [OrderedMap.set, List.map_append, List.map_singleton, List.nodup_append']
      refine ⟨opened.ids.sublist (List.filter_sublist.map _), List.nodup_singleton _, ?_⟩
      simp only [List.disjoint_singleton]
      intro open_
      obtain ⟨entry, inside, same⟩ := List.mem_map.mp open_
      obtain ⟨index, below, named⟩ := opened.indexed entry (OrderedMap.mem_erase.mp inside).1
      exact fresh index below entry.1 (named.symm.trans same)
    · intro entry inside
      obtain ⟨before, _⟩ | rfl := OrderedMap.mem_set.mp inside
      · obtain ⟨index, below, named⟩ := opened.indexed entry before
        exact ⟨index, Nat.lt_succ_of_lt below, named⟩
      · exact ⟨tracked.toolCalls, Nat.lt_succ_self _, rfl⟩
    · intro entry inside
      obtain ⟨before, _⟩ | rfl := OrderedMap.mem_set.mp inside
      · exact List.mem_append_left _ (opened.known entry before)
      · simp

/-- A span that is open has had no record; closing it is its chance. -/
theorem Spanned.closed (spanned : s.Spanned spans) (stepped : s.Stepped) {call : Nat} {tracked : TrackedCall}
    (object : s.objects[call]? = some tracked) {toolCallId spanId : String}
    (open_ : (toolCallId, spanId) ∈ tracked.openToolSpans) :
    let closed := s.modify call fun tracked =>
      { tracked with openToolSpans := OrderedMap.erase tracked.openToolSpans toolCallId }
    closed.Spanned spans ∧ ∃ span, span.id = spanId ∧ span ∉ spans ∧ closed.Used span := by
  intro closed
  have inside := List.mem_of_getElem? object
  have opened := spanned.opened call tracked object
  obtain ⟨index, below, named⟩ := opened.indexed _ open_
  dsimp only at named
  subst named
  refine ⟨?_, .tool tracked.callId index toolCallId, rfl, ?_, ?_⟩
  · refine spanned.modify ?_ ?_
    · intro found at_
      cases (object.symm.trans at_)
      refine ⟨rfl, le_rfl, le_rfl, le_rfl, ?_⟩
      intro place _ other_ still
      obtain ⟨entry, kept, same⟩ := List.mem_map.mp still
      exact List.mem_map.mpr ⟨entry, (OrderedMap.mem_erase.mp kept).1, same⟩
    · intro found at_
      cases (object.symm.trans at_)
      refine ⟨OrderedMap.erase_nodup opened.keys, opened.ids.sublist (List.filter_sublist.map _), ?_, ?_⟩
      · intro entry kept
        exact opened.indexed entry (OrderedMap.mem_erase.mp kept).1
      · intro entry kept
        exact opened.known entry (OrderedMap.mem_erase.mp kept).1
  · intro recorded
    obtain ⟨other_, there, same, _, free⟩ := spanned.used _ recorded
    cases stepped.unique there inside same
    exact free (List.mem_map.mpr ⟨_, open_, rfl⟩)
  · refine ⟨_, List.mem_of_getElem? (object_modify_self object _), rfl, below, ?_⟩
    intro still
    obtain ⟨entry, kept, same⟩ := List.mem_map.mp still
    obtain ⟨before, different⟩ := OrderedMap.mem_erase.mp kept
    have equal := List.inj_on_of_nodup_map opened.ids before open_ same
    exact different (congrArg Prod.fst equal)

theorem openToolSpan_object {call : Nat} {tracked : TrackedCall} (object : s.objects[call]? = some tracked)
    (toolCallId : String) :
    ∃ after, (s.openToolSpan call tracked toolCallId).2.objects[call]? = some after ∧
      (toolCallId, (s.openToolSpan call tracked toolCallId).1) ∈ after.openToolSpans := by
  simp only [Telemetry.openToolSpan]
  exact ⟨_, object_modify_self object _, OrderedMap.mem_set.mpr (Or.inr rfl)⟩

/-! Records. -/

/-- A record under the id of a span that has had none. -/
theorem Spanned.record (spanned : s.Spanned spans) (call : Nat) (info : CallInfo) {parts : RecordParts} {span : Span}
    (named : parts.spanId = span.id) (fresh : span ∉ spans) (used : s.Used span) :
    (s.record call info parts).Spanned (spans ++ [span]) := by
  refine ⟨?_, ?_, ?_, spanned.opened, spanned.pending, spanned.ended⟩
  · simp only [Telemetry.record, List.map_append, List.map_singleton, spanned.ids, named]
  · exact List.nodup_append'.mpr ⟨spanned.once, List.nodup_singleton _, by simpa using fresh⟩
  · have still : ∀ {known : Span}, s.Used known → (s.record call info parts).Used known :=
      Used.mono (List.Subset.refl _) (List.Subset.refl _) fun _ waits => Or.inl waits
    exact forall_mem_concat (fun known inside => still (spanned.used known inside)) (still used)

/-- A call's next model span has had no record. -/
theorem Spanned.model_fresh (spanned : s.Spanned spans) (stepped : s.Stepped) {tracked : TrackedCall}
    (inside : tracked ∈ s.objects) : Span.model tracked.callId tracked.modelCalls ∉ spans := by
  intro recorded
  obtain ⟨other_, there, same, below⟩ := spanned.used _ recorded
  cases stepped.unique there inside same
  exact lt_irrefl _ below

theorem Spanned.rerank_fresh (spanned : s.Spanned spans) (stepped : s.Stepped) {tracked : TrackedCall}
    (inside : tracked ∈ s.objects) : Span.rerank tracked.callId tracked.rerankCalls ∉ spans := by
  intro recorded
  obtain ⟨other_, there, same, below⟩ := spanned.used _ recorded
  cases stepped.unique there inside same
  exact lt_irrefl _ below

/-- An embedding whose hook is still in `mapResource` has had no record. -/
theorem Spanned.embed_fresh (spanned : s.Spanned spans) {embedCallId : String}
    (waits : embedCallId ∈ s.pendingEmbeds) : Span.embed embedCallId ∉ spans := by
  intro recorded
  exact (spanned.used _ recorded).2 waits

/-- A hook that comes back leaves the embeddings of the others pending. -/
theorem Spanned.leave (spanned : s.Spanned spans) (place : Nat) :
    ({ s with hooks := s.hooks.eraseIdx place } : Telemetry).Spanned spans := by
  have fewer : ((s.hooks.eraseIdx place).filterMap Hook.embedCallId?).Sublist s.pendingEmbeds :=
    (List.eraseIdx_sublist s.hooks place).filterMap _
  exact spanned.keep rfl rfl (List.Subset.refl _) (List.Subset.refl _) (fun _ waits => Or.inl (fewer.subset waits))
    (spanned.pending.sublist fewer) (List.Subset.trans fewer.subset spanned.ended)

/-- An embedding whose hook has come back can be recorded. -/
theorem Spanned.embed_used (spanned : s.Spanned spans) {place : Nat} {hook : Hook} {embedCallId : String}
    (at_ : s.hooks[place]? = some hook) (embed : hook.embedCallId? = some embedCallId) :
    embedCallId ∈ s.pendingEmbeds ∧
      ({ s with hooks := s.hooks.eraseIdx place } : Telemetry).Used (.embed embedCallId) := by
  obtain ⟨inside, found⟩ := List.getElem?_eq_some_iff.mp at_
  have parts := (List.getElem_cons_eraseIdx_perm inside).filterMap Hook.embedCallId?
  rw [found, List.filterMap_cons_some embed] at parts
  have waits : embedCallId ∈ s.pendingEmbeds := parts.mem_iff.mp List.mem_cons_self
  have distinct := parts.nodup_iff.mpr spanned.pending
  exact ⟨waits, spanned.ended waits, (List.nodup_cons.mp distinct).1⟩

end Telemetry

end Audr.VercelAi
