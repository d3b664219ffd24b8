import Audr.VercelAi.Spans

/-! What the records of an integration have in common over a whole run: no two have the same
span of the same run, the steps of a run go up, and a child's records are those of its root's
run under a tool span of it. -/

namespace Audr.VercelAi

open JsRecord (Value)

variable {s t : Telemetry} {event : Event} {toLowerCase : String → String}

namespace Telemetry

structure Kept (s : Telemetry) : Prop where
  lineage : s.Lineage
  stepped : s.Stepped
  spanned : ∃ spans, s.Spanned spans

theorem create_kept (defaults : Option Attribution) : (create defaults).Kept :=
  ⟨create_lineage _, create_stepped _, [], create_spanned _⟩

/-- A tracked call is an object under its own id. -/
theorem Kept.withCall (kept : s.Kept) {callId : String} {body : Nat → TrackedCall → Telemetry}
    (keeps : ∀ call tracked, s.objects[call]? = some tracked → tracked.callId = callId → (body call tracked).Kept) :
    (s.withCall callId body).Kept := by
  unfold Telemetry.withCall
  split
  next => exact kept
  next call found =>
    split
    next => exact kept
    next tracked object =>
      obtain ⟨info, same, named⟩ := kept.lineage.calls _ (OrderedMap.mem_of_get? found)
      rw [infos_of_object object] at same
      cases same
      exact keeps call tracked object named

theorem Kept.end_ (kept : s.Kept) (callId : String) : (s.end_ callId).Kept := by
  obtain ⟨lineage, stepped, spans, spanned⟩ := kept
  refine ⟨lineage.keep rfl rfl ?_ (fun _ => Or.inl) (List.Subset.refl _) (fun _ => Or.inl) (fun _ => Or.inl),
    stepped.keep rfl (List.Subset.refl _) rfl rfl, spans,
    spanned.keep rfl rfl (List.Subset.refl _) (List.Subset.refl _) (fun _ => Or.inl) spanned.pending spanned.ended⟩
  intro entry inside
  exact (OrderedMap.mem_erase.mp inside).1

/-- A context that an own span was added to, or none. -/
theorem Kept.enterContext (kept : s.Kept) {active : List ActiveToolSpan}
    (known : ∀ span, .own span ∈ active → span ∈ s.toolSpans) :
    ({ s with contexts := s.contexts ++ [active] } : Telemetry).Kept := by
  obtain ⟨lineage, stepped, spans, spanned⟩ := kept
  refine ⟨lineage.keep rfl rfl (List.Subset.refl _) (fun _ => Or.inl) (List.Subset.refl _) (fun _ => Or.inl) ?_,
    stepped.keep rfl (List.Subset.refl _) rfl rfl, spans,
    spanned.keep rfl rfl (List.Subset.refl _) (List.Subset.refl _) (fun _ => Or.inl) spanned.pending spanned.ended⟩
  exact forall_mem_concat (fun _ => Or.inl) (Or.inr known)

theorem Kept.modify (kept : s.Kept) {call : Nat} {change : TrackedCall → TrackedCall}
    (infos : ∀ tracked, (change tracked).toCallInfo = tracked.toCallInfo)
    (grown : ∀ tracked, s.objects[call]? = some tracked → Grown tracked (change tracked))
    (opened : ∀ tracked, s.objects[call]? = some tracked → Opened call s.toolSpans tracked →
      Opened call s.toolSpans (change tracked)) : (s.modify call change).Kept := by
  obtain ⟨lineage, stepped, spans, spanned⟩ := kept
  exact ⟨lineage.modify infos, stepped.modify infos, spans,
    spanned.modify grown fun tracked object => opened tracked object (spanned.opened call tracked object)⟩

/-- A change of a call's start times. -/
theorem Kept.modify_times (kept : s.Kept) {call : Nat} (times : TrackedCall → List (String × ℚ))
    (rerank : TrackedCall → Option ℚ) :
    (s.modify call fun tracked =>
      { tracked with embedStartTimes := times tracked, rerankStartedAt := rerank tracked }).Kept := by
  refine kept.modify (fun _ => rfl) ?_ ?_
  · intro tracked _
    exact ⟨rfl, le_rfl, le_rfl, le_rfl, fun _ _ _ open_ => open_⟩
  · intro tracked _ opened
    exact ⟨opened.keys, opened.ids, opened.indexed, opened.known⟩

theorem Kept.openToolSpan (kept : s.Kept) {call : Nat} {tracked : TrackedCall} (object : s.objects[call]? = some tracked)
    (toolCallId : String) : (s.openToolSpan call tracked toolCallId).2.Kept := by
  obtain ⟨lineage, stepped, spans, spanned⟩ := kept
  refine ⟨lineage.keep ?_ rfl (List.Subset.refl _) (fun _ => Or.inl) (List.subset_append_left _ _) ?_ (fun _ => Or.inl),
    stepped.keep ?_ (List.Subset.refl _) rfl rfl, spans, spanned.openToolSpan stepped object toolCallId⟩
  · exact infos_modify fun _ => rfl
  · refine forall_mem_concat (fun _ => Or.inl) (Or.inr ?_)
    exact (List.getElem?_eq_some_iff.mp (infos_of_object object)).1
  · exact infos_modify fun _ => rfl

/-- The span of a tool that runs is one the call has open. -/
theorem Kept.toolSpanFor (kept : s.Kept) {call : Nat} {tracked : TrackedCall} (object : s.objects[call]? = some tracked)
    (toolCallId : String) :
    let result := s.toolSpanFor call tracked toolCallId
    result.2.Kept ∧ result.2.infos = s.infos ∧ result.2.contexts = s.contexts ∧ s.toolSpans ⊆ result.2.toolSpans ∧
      ∃ after, result.2.objects[call]? = some after ∧ (toolCallId, result.1) ∈ after.openToolSpans := by
  unfold Telemetry.toolSpanFor
  split
  next spanId found =>
    exact ⟨kept, rfl, rfl, List.Subset.refl _, tracked, object, OrderedMap.mem_of_get? found⟩
  next =>
    exact ⟨kept.openToolSpan object toolCallId, infos_modify fun _ => rfl, rfl, List.subset_append_left _ _,
      openToolSpan_object object toolCallId⟩

theorem Kept.record {spans : List Span} (lineage : s.Lineage) (stepped : s.Stepped) (spanned : s.Spanned spans)
    {call : Nat} {info : CallInfo} (found : s.infos[call]? = some info) {parts : RecordParts} {span : Span}
    (named : parts.spanId = span.id) (fresh : span ∉ spans) (used : s.Used span) : (s.record call info parts).Kept :=
  ⟨lineage.keep rfl rfl (List.Subset.refl _) (fun _ => Or.inl) (List.Subset.refl _) (fun _ => Or.inl) (fun _ => Or.inl),
    stepped.record found parts, _, spanned.record call info named fresh used⟩

theorem Kept.onToolExecutionEnd (kept : s.Kept) {call : Nat} {tracked : TrackedCall}
    (object : s.objects[call]? = some tracked) (toolCallId toolName : String) (failed : Bool) (toolExecutionMs : Value) :
    (s.onToolExecutionEnd call tracked toolCallId toolName failed toolExecutionMs).Kept := by
  obtain ⟨found, infos, _, _, after, current, open_⟩ := kept.toolSpanFor object toolCallId
  obtain ⟨lineage, stepped, spans, spanned⟩ := found
  obtain ⟨closed, span, named, fresh, used⟩ := spanned.closed stepped current open_
  have info : (s.toolSpanFor call tracked toolCallId).2.infos[call]? = some tracked.toCallInfo := by
    rw [infos, infos_of_object object]
  refine Kept.record ?_ ?_ closed ?_ named.symm fresh used
  · exact lineage.modify fun _ => rfl
  · exact stepped.modify fun _ => rfl
  · exact info_modify (fun _ => rfl) info

/-- A hook that comes back records the next span of its kind. -/
theorem Kept.resume {spans : List Span} (lineage : s.Lineage) (stepped : s.Stepped) (spanned : s.Spanned spans)
    {call : Nat} {tracked : TrackedCall} (object : s.objects[call]? = some tracked) {event : EndEvent}
    (named : ∀ callId ∈ event.callId?, tracked.callId = callId)
    (embed : ∀ embedCallId startedAt tokens, event = .embed embedCallId startedAt tokens →
      Span.embed embedCallId ∉ spans ∧ s.Used (.embed embedCallId)) (resource : Resource) (now : ℚ) :
    (s.resume call tracked event resource now).Kept := by
  have inside := List.mem_of_getElem? object
  have info := infos_of_object object
  have opened := spanned.opened call tracked object
  cases event with
  | model callId responseTimeMs usage =>
    cases named callId rfl
    have counted : ∀ found, s.objects[call]? = some found →
        Grown found { found with modelCalls := found.modelCalls + 1 } :=
      fun found _ => ⟨rfl, Nat.le_succ _, le_rfl, le_rfl, fun _ _ _ open_ => open_⟩
    have kept := spanned.modify counted fun found at_ => by
      cases (object.symm.trans at_)
      exact ⟨opened.keys, opened.ids, opened.indexed, opened.known⟩
    refine Kept.record ?_ ?_ kept ?_ ?_ (spanned.model_fresh stepped inside) ?_
    · exact lineage.modify fun _ => rfl
    · exact stepped.modify fun _ => rfl
    · exact info_modify (fun _ => rfl) info
    · rfl
    · exact ⟨_, List.mem_of_getElem? (object_modify_self object _), rfl, Nat.lt_succ_self _⟩
  | embed embedCallId startedAt tokens =>
    obtain ⟨fresh, used⟩ := embed embedCallId startedAt tokens rfl
    exact Kept.record lineage stepped spanned info rfl fresh used
  | rerank callId startedAt =>
    cases named callId rfl
    have counted : ∀ found, s.objects[call]? = some found →
        Grown found { found with rerankCalls := found.rerankCalls + 1 } :=
      fun found _ => ⟨rfl, le_rfl, Nat.le_succ _, le_rfl, fun _ _ _ open_ => open_⟩
    have kept := spanned.modify counted fun found at_ => by
      cases (object.symm.trans at_)
      exact ⟨opened.keys, opened.ids, opened.indexed, opened.known⟩
    refine Kept.record ?_ ?_ kept ?_ ?_ (spanned.rerank_fresh stepped inside) ?_
    · exact lineage.modify fun _ => rfl
    · exact stepped.modify fun _ => rfl
    · exact info_modify (fun _ => rfl) info
    · rfl
    · exact ⟨_, List.mem_of_getElem? (object_modify_self object _), rfl, Nat.lt_succ_self _⟩

theorem Lineage.leave (lineage : s.Lineage) (place : Nat) :
    ({ s with hooks := s.hooks.eraseIdx place } : Telemetry).Lineage :=
  lineage.keep rfl rfl (List.Subset.refl _) (fun _ inside => Or.inl (List.mem_of_mem_eraseIdx inside))
    (List.Subset.refl _) (fun _ => Or.inl) fun _ => Or.inl

theorem Stepped.leave (stepped : s.Stepped) (place : Nat) :
    ({ s with hooks := s.hooks.eraseIdx place } : Telemetry).Stepped :=
  stepped.keep rfl (List.Subset.refl _) rfl rfl

theorem Kept.leave (kept : s.Kept) (place : Nat) : ({ s with hooks := s.hooks.eraseIdx place } : Telemetry).Kept := by
  obtain ⟨lineage, stepped, spans, spanned⟩ := kept
  exact ⟨lineage.leave place, stepped.leave place, spans, spanned.leave place⟩

theorem Kept.resumes (kept : s.Kept) {place : Nat} {hook : Hook} (at_ : s.hooks[place]? = some hook)
    {tracked : TrackedCall} (object : s.objects[hook.call]? = some tracked) (resource : Resource) (now : ℚ) :
    (({ s with hooks := s.hooks.eraseIdx place } : Telemetry).resume hook.call tracked hook.event resource now).Kept := by
  obtain ⟨lineage, stepped, spans, spanned⟩ := kept
  obtain ⟨info, same, named⟩ := lineage.hooks hook (List.mem_of_getElem? at_)
  rw [infos_of_object object] at same
  cases same
  refine Kept.resume (lineage.leave place) (stepped.leave place) (spanned.leave place) object named ?_ resource now
  intro embedCallId startedAt tokens same
  have embed : hook.embedCallId? = some embedCallId := by simp [Hook.embedCallId?, same]
  obtain ⟨waits, used⟩ := spanned.embed_used at_ embed
  exact ⟨spanned.embed_fresh waits, used⟩

/-- A hook of a model or rerank call goes into `mapResource`. -/
theorem Kept.enter (kept : s.Kept) {hook : Hook} {tracked : TrackedCall} (object : s.objects[hook.call]? = some tracked)
    (named : ∀ callId ∈ hook.event.callId?, tracked.callId = callId) (plain : hook.embedCallId? = none) :
    (s.enter hook).Kept := by
  obtain ⟨lineage, stepped, spans, spanned⟩ := kept
  have same : (s.enter hook).pendingEmbeds = s.pendingEmbeds := by
    simp [Telemetry.enter, pendingEmbeds, List.filterMap_append, plain]
  refine ⟨lineage.keep rfl rfl (List.Subset.refl _) ?_ (List.Subset.refl _) (fun _ => Or.inl) fun _ => Or.inl,
    stepped.keep rfl (List.Subset.refl _) rfl rfl, spans, spanned.keep rfl rfl (List.Subset.refl _) (List.Subset.refl _)
      (by rw [same]; exact fun _ => Or.inl) (by rw [same]; exact spanned.pending) (by rw [same]; exact spanned.ended)⟩
  exact forall_mem_concat (fun _ => Or.inl) (Or.inr ⟨_, infos_of_object object, named⟩)

/-- An embedding ends whose call is not tracked. -/
theorem Kept.embedEnd (kept : s.Kept) (embedCallId : String) :
    ({ s with embedEnds := s.embedEnds ++ [embedCallId] } : Telemetry).Kept := by
  obtain ⟨lineage, stepped, spans, spanned⟩ := kept
  refine ⟨lineage.keep rfl rfl (List.Subset.refl _) (fun _ => Or.inl) (List.Subset.refl _) (fun _ => Or.inl) fun _ => Or.inl,
    stepped.keep rfl (List.Subset.refl _) rfl rfl, spans,
    spanned.keep rfl rfl (List.Subset.refl _) (List.subset_append_left _ _) (fun _ => Or.inl) spanned.pending ?_⟩
  intro other_ waits
  exact List.mem_append_left _ (spanned.ended waits)

/-- The first end of an embedding goes into `mapResource`. -/
theorem Kept.enterEmbed (kept : s.Kept) {call : Nat} {tracked : TrackedCall} (object : s.objects[call]? = some tracked)
    {embedCallId : String} (once : embedCallId ∉ s.embedEnds) (source : ResourceSource) (startedAt : Option ℚ)
    (tokens : Value) :
    (({ s with embedEnds := s.embedEnds ++ [embedCallId] } : Telemetry).enter
      ⟨call, source, .embed embedCallId startedAt tokens⟩).Kept := by
  obtain ⟨lineage, stepped, spans, spanned⟩ := kept
  have pending : s.pendingEmbeds ++ [embedCallId] = (({ s with embedEnds := s.embedEnds ++ [embedCallId] } :
      Telemetry).enter ⟨call, source, .embed embedCallId startedAt tokens⟩).pendingEmbeds := by
    simp [pendingEmbeds, Telemetry.enter, List.filterMap_append, Hook.embedCallId?]
  refine ⟨lineage.keep rfl rfl (List.Subset.refl _) ?_ (List.Subset.refl _) (fun _ => Or.inl) fun _ => Or.inl,
    stepped.keep rfl (List.Subset.refl _) rfl rfl, spans,
    spanned.keep rfl rfl (List.Subset.refl _) (List.subset_append_left _ _) ?_ ?_ ?_⟩
  · exact forall_mem_concat (fun _ => Or.inl) (Or.inr ⟨_, infos_of_object object, fun _ stated => by cases stated⟩)
  · rw [← pending]
    exact forall_mem_concat (fun _ => Or.inl) (Or.inr once)
  · rw [← pending]
    refine List.nodup_append'.mpr ⟨spanned.pending, List.nodup_singleton _, List.disjoint_singleton.mpr ?_⟩
    exact fun waits => once (spanned.ended waits)
  · rw [← pending]
    exact forall_mem_concat (fun other_ waits => List.mem_append_left _ (spanned.ended waits))
      (List.mem_append_right _ (List.mem_singleton_self _))

/-- A tool runs inside one of its call's spans. -/
theorem Kept.executeTool (kept : s.Kept) {active : List ActiveToolSpan} (known : active ∈ s.contexts) {call : Nat}
    {tracked : TrackedCall} (object : s.objects[call]? = some tracked) (toolCallId : String) :
    (s.executeTool active call tracked toolCallId).Kept := by
  obtain ⟨found, _, _, grown, after, current, open_⟩ := kept.toolSpanFor object toolCallId
  refine Kept.enterContext found ?_
  obtain ⟨_, _, spans, spanned⟩ := found
  intro span own
  obtain outer | new := List.mem_append.mp own
  · exact grown (kept.lineage.contexts active known span outer)
  · cases List.mem_singleton.mp new
    exact (spanned.opened call after current).known _ open_

theorem currentToolSpan_mem {active : List ActiveToolSpan} {span : ToolSpan} (current : currentToolSpan active = some span) :
    .own span ∈ active := by
  obtain ⟨entry, inside, own⟩ := List.mem_filterMap.mp (List.mem_of_getLast? current)
  cases entry with
  | own => cases own; exact inside
  | foreign => cases own

theorem Kept.starts (kept : s.Kept) (callId : String) : ({ s with starts := s.starts ++ [callId] } : Telemetry).Kept := by
  obtain ⟨lineage, stepped, spans, spanned⟩ := kept
  exact ⟨lineage.keep rfl rfl (List.Subset.refl _) (fun _ => Or.inl) (List.Subset.refl _) (fun _ => Or.inl) fun _ => Or.inl,
    stepped.keep rfl (List.subset_append_left _ _) rfl rfl, spans,
    spanned.keep rfl rfl (List.Subset.refl _) (List.Subset.refl _) (fun _ => Or.inl) spanned.pending spanned.ended⟩

/-- A call of a new id is a child of the tool's call it runs in, or the root of a run of its own. -/
theorem Kept.onStart (kept : s.Kept) {active : List ActiveToolSpan} (known : active ∈ s.contexts) {event : StartEvent}
    (once : event.callId ∉ s.starts) (plain : colonFree event.callId) : (s.onStart active event).Kept := by
  have fresh : event.callId ∉ s.infos.map CallInfo.callId := by
    intro taken
    obtain ⟨info, inside, named⟩ := List.mem_map.mp taken
    exact once (named ▸ kept.stepped.started info inside)
  obtain ⟨lineage, stepped, spans, spanned⟩ := kept.starts event.callId
  have started : event.callId ∈ s.starts ++ [event.callId] := by simp
  simp only [Telemetry.onStart]
  split
  next => exact ⟨lineage, stepped, spans, spanned⟩
  next =>
    split
    next span current =>
      have opened := kept.lineage.contexts active known span (currentToolSpan_mem current)
      simp only [Telemetry.startChild]
      split
      next parent object =>
        have above := infos_of_object object
        refine ⟨lineage.add (by simp) ?_, stepped.add fresh started plain ?_ ?_, spans, spanned.add _ _⟩
        · rintro _ ⟨⟩
          exact ⟨_, above, rfl, rfl, rfl, span.spanId, rfl, opened⟩
        · exact stepped.cells parent.toCallInfo (List.mem_of_getElem? above)
        · exact Or.inr ⟨_, List.mem_of_getElem? above, rfl, rfl⟩
      next => exact ⟨lineage, stepped, spans, spanned⟩
    next =>
      split
      next => exact ⟨lineage, stepped, spans, spanned⟩
      next attribution _ =>
        refine ⟨Lineage.add ?_ (fun _ => ⟨rfl, rfl⟩) nofun, stepped.counter.add fresh started plain ?_ (Or.inl rfl),
          spans, Spanned.add ?_ _ _⟩
        · exact lineage.keep rfl rfl (List.Subset.refl _) (fun _ => Or.inl) (List.Subset.refl _) (fun _ => Or.inl)
            fun _ => Or.inl
        · simp
        · exact spanned.keep rfl rfl (List.Subset.refl _) (List.Subset.refl _) (fun _ => Or.inl) spanned.pending
            spanned.ended

theorem Kept.step (kept : s.Kept) (permitted : s.wellBehaved event) (taken : step toLowerCase s event = some t) :
    t.Kept := by
  cases event with
  | onStart context event =>
    obtain ⟨active, known, rfl⟩ := Option.map_eq_some_iff.mp taken
    exact kept.onStart (List.mem_of_getElem? known) permitted.1 permitted.2
  | onLanguageModelCallEnd callId source responseTimeMs usage =>
    cases taken
    exact kept.withCall fun call tracked object named => kept.enter object (by rintro _ ⟨⟩; exact named) rfl
  | onToolExecutionStart callId toolCallId =>
    cases taken
    exact kept.withCall fun call tracked object _ => kept.openToolSpan object toolCallId
  | onToolExecutionEnd callId toolCallId toolName failed toolExecutionMs =>
    cases taken
    exact kept.withCall fun call tracked object _ =>
      kept.onToolExecutionEnd object toolCallId toolName failed toolExecutionMs
  | onEmbedStart callId embedCallId now =>
    cases taken
    exact kept.withCall fun call tracked _ _ => kept.modify_times _ TrackedCall.rerankStartedAt
  | onEmbedEnd callId embedCallId source tokens =>
    cases taken
    refine (kept.embedEnd embedCallId).withCall fun call tracked object named => ?_
    have times := @Kept.modify_times s kept call
      (fun tracked => OrderedMap.erase tracked.embedStartTimes embedCallId) TrackedCall.rerankStartedAt
    exact times.enterEmbed (object_modify_self object _) permitted source _ tokens
  | onRerankStart callId now =>
    cases taken
    exact kept.withCall fun call tracked _ _ => kept.modify_times TrackedCall.embedStartTimes _
  | onRerankEnd callId source =>
    cases taken
    refine kept.withCall fun call tracked object named => ?_
    have times := @Kept.modify_times s kept call TrackedCall.embedStartTimes fun _ => none
    exact times.enter (object_modify_self object _) (by rintro _ ⟨⟩; exact named) rfl
  | onEnd callId =>
    cases taken
    exact kept.end_ callId
  | onAbort callId =>
    cases taken
    exact kept.end_ callId
  | onError callId =>
    cases callId with
    | none =>
      cases taken
      exact kept
    | some callId =>
      cases taken
      exact kept.end_ callId
  | executeTool context callId toolCallId =>
    obtain ⟨active, known, rfl⟩ := Option.map_eq_some_iff.mp taken
    exact kept.withCall fun call tracked object _ => kept.executeTool (List.mem_of_getElem? known) object toolCallId
  | executeForeignTool context =>
    obtain ⟨active, known, rfl⟩ := Option.map_eq_some_iff.mp taken
    refine kept.enterContext fun span own => ?_
    exact kept.lineage.contexts active (List.mem_of_getElem? known) span (by simpa using own)
  | resourceMapped place answer now =>
    simp only [Telemetry.step] at taken
    split at taken
    · cases taken
    next hook at_ =>
      split at taken
      next resource tracked _ object =>
        cases taken
        exact kept.resumes at_ object resource now
      next =>
        cases taken
        exact kept.leave place

/-- A call and the calls it was started in, from the inside out. -/
def Descends (s : Telemetry) : Nat → Nat → Prop :=
  Relation.ReflTransGen fun call parent => s.parents[call]? = some (some parent)

/-- Every call has the run and the attribution of its root. -/
theorem Lineage.rooted (lineage : s.Lineage) (call : Nat) (info : CallInfo) (found : s.infos[call]? = some info) :
    ∃ root above, s.Descends call root ∧ s.parents[root]? = some none ∧ s.infos[root]? = some above ∧
      info.runId = above.callId ∧ info.attribution = above.attribution := by
  induction call using Nat.strong_induction_on generalizing info with
  | _ call ih =>
    have inside : call < s.parents.length := by
      rw [lineage.parents]
      exact (List.getElem?_eq_some_iff.mp found).1
    have started : s.parents[call]? = some s.parents[call] := List.getElem?_eq_getElem inside
    cases given : s.parents[call] with
    | none =>
      rw [given] at started
      exact ⟨call, info, Relation.ReflTransGen.refl, started, found, (lineage.root call info found started).1, rfl⟩
    | some parent =>
      rw [given] at started
      obtain ⟨earlier, above, object, inherits⟩ := lineage.child call info parent found started
      obtain ⟨root, top, chain, first, known, run, attribution⟩ := ih parent earlier above object
      exact ⟨root, top, chain.head started, first, known, inherits.run.trans run,
        inherits.attribution.trans attribution⟩

/-- What holds of the records of an integration. -/
structure Sound (s : Telemetry) : Prop where
  unique : (s.records.map fun produced => (produced.record.run.runId, produced.record.run.spanId)).Nodup
  increasing : s.records.Pairwise fun a b =>
    a.record.run.runId = b.record.run.runId → a.record.run.step < b.record.run.step
  rooted : ∀ produced ∈ s.records, ∃ root above, s.Descends produced.call root ∧ s.parents[root]? = some none ∧
    s.objects[root]? = some above ∧ produced.record.run.runId = above.callId ∧
    produced.record.attribution = above.attribution
  root : ∀ produced ∈ s.records, s.parents[produced.call]? = some none → produced.record.run.parentSpanId = none
  child : ∀ produced ∈ s.records, ∀ parent, s.parents[produced.call]? = some (some parent) →
    ∃ spanId above, produced.record.run.parentSpanId = some spanId ∧ ⟨parent, spanId⟩ ∈ s.toolSpans ∧
      s.objects[parent]? = some above ∧ above.runId = produced.record.run.runId

theorem object_of_info {call : Nat} {info : CallInfo} (found : s.infos[call]? = some info) :
    ∃ tracked, s.objects[call]? = some tracked ∧ tracked.toCallInfo = info := by
  simpa [infos] using found

theorem Kept.sound (kept : s.Kept) : s.Sound := by
  obtain ⟨lineage, stepped, spans, spanned⟩ := kept
  refine ⟨?_, stepped.increasing, ?_, ?_, ?_⟩
  · have distinct := spanned.nodup stepped
    refine List.Nodup.of_map Prod.snd ?_
    rwa [List.map_map]
  · intro produced inside
    obtain ⟨info, found, of, _⟩ := stepped.recorded produced inside
    obtain ⟨root, above, chain, first, known, run, attribution⟩ := lineage.rooted produced.call info found
    obtain ⟨tracked, object, rfl⟩ := object_of_info known
    exact ⟨root, tracked, chain, first, object, of.run.trans run, of.attribution.trans attribution⟩
  · intro produced inside started
    obtain ⟨info, found, of, _⟩ := stepped.recorded produced inside
    exact of.parent.trans (lineage.root produced.call info found started).2
  · intro produced inside parent started
    obtain ⟨info, found, of, _⟩ := stepped.recorded produced inside
    obtain ⟨_, above, known, inherits⟩ := lineage.child produced.call info parent found started
    obtain ⟨spanId, named, opened⟩ := inherits.span
    obtain ⟨tracked, object, rfl⟩ := object_of_info known
    exact ⟨spanId, tracked, of.parent.trans named, opened, object, inherits.run.symm.trans of.run.symm⟩

/-- Whatever the order of the hooks, each record has a span of its own, the steps of a run go
up, and children are recorded under their root. -/
theorem run_sound {defaults : Option Attribution} {events : List Event}
    (run : Transition.Run (step toLowerCase) wellBehaved (create defaults) events s) : s.Sound :=
  Kept.sound (run.invariant Kept (create_kept defaults) fun _ _ _ => Kept.step)

/-- A tool of one call embeds a text. -/
def embeddingEvents : List Event :=
  [.onStart 0 ⟨"a", "ai.generateText", none, .object true [("audr", .object true [("environment", .string "test")])]⟩,
    .onToolExecutionStart "a" "t", .executeTool 0 "a" "t", .onStart 1 ⟨"b", "ai.embed", none, .undefined⟩,
    .onEmbedStart "b" "e" 0, .onEmbedEnd "b" "e" ⟨"openai", "small"⟩ .undefined,
    .onToolExecutionEnd "a" "t" "search" false .undefined, .onEnd "a", .resourceMapped 0 .keeps 0]

def embedding : Telemetry :=
  (Transition.executeWithin (step id) wellBehaved (create none) embeddingEvents).getD (create none)

theorem run_sound_embedding :
    (embedding.records.map fun produced =>
        (produced.record.run.runId, produced.record.run.spanId, produced.record.run.step, produced.record.run.parentSpanId)) =
      [("a", "tool:a:0:t", 0, none), ("a", "embed:e", 1, some "tool:a:0:t")] ∧ embedding.Sound := by
  have run : Transition.Run (step id) wellBehaved (create none) embeddingEvents embedding :=
    Transition.Run.of_executeWithin rfl
  exact ⟨rfl, run_sound run⟩

end Telemetry

end Audr.VercelAi
