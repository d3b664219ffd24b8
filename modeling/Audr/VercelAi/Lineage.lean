import Audr.VercelAi.Telemetry
import Mathlib.Tactic

/-! What never changes about a call: where it was started, its run, its attribution and the
counter of its steps. A child has these from its parent, so a whole tree shares those of its
root, and the records of a run number their steps with one counter. -/

namespace Audr.VercelAi

variable {s t : Telemetry}

/-- The call a hook reads its span id from; an embedding has an id of its own. -/
def EndEvent.callId? : EndEvent → Option String
  | .model callId _ _ => some callId
  | .embed _ _ _ => none
  | .rerank callId _ => some callId

/-- What a child has of the call it was started in. -/
structure Inherits (toolSpans : List ToolSpan) (parent : Nat) (above info : CallInfo) : Prop where
  run : info.runId = above.runId
  attribution : info.attribution = above.attribution
  steps : info.steps = above.steps
  span : ∃ spanId, info.parentSpanId = some spanId ∧ ⟨parent, spanId⟩ ∈ toolSpans

/-- What a record has of its call. -/
structure RecordOf (info : CallInfo) (record : AudrRecord) : Prop where
  run : record.run.runId = info.runId
  parent : record.run.parentSpanId = info.parentSpanId
  attribution : record.attribution = info.attribution

namespace Telemetry

def infos (s : Telemetry) : List CallInfo := s.objects.map TrackedCall.toCallInfo

theorem infos_modify {call : Nat} {change : TrackedCall → TrackedCall}
    (same : ∀ tracked, (change tracked).toCallInfo = tracked.toCallInfo) : (s.modify call change).infos = s.infos := by
  apply List.ext_getElem?
  intro place
  simp only [infos, modify, List.getElem?_map, List.getElem?_modify]
  cases s.objects[place]? with
  | none => rfl
  | some tracked =>
    by_cases here_ : call = place <;> simp [here_, same]

theorem info_modify {call place : Nat} {change : TrackedCall → TrackedCall} {info : CallInfo}
    (same : ∀ tracked, (change tracked).toCallInfo = tracked.toCallInfo) (found : s.infos[place]? = some info) :
    (s.modify call change).infos[place]? = some info := by
  rw [infos_modify same, found]

theorem infos_of_object {call : Nat} {tracked : TrackedCall} (object : s.objects[call]? = some tracked) :
    s.infos[call]? = some tracked.toCallInfo := by
  simp [infos, object]

/-- Where calls were started, and what refers to them. -/
structure Lineage (s : Telemetry) : Prop where
  parents : s.parents.length = s.infos.length
  calls : ∀ entry ∈ s.calls, ∃ info, s.infos[entry.2]? = some info ∧ info.callId = entry.1
  hooks : ∀ hook ∈ s.hooks, ∃ info, s.infos[hook.call]? = some info ∧ ∀ callId ∈ hook.event.callId?, info.callId = callId
  spans : ∀ span ∈ s.toolSpans, span.call < s.infos.length
  contexts : ∀ active ∈ s.contexts, ∀ span, .own span ∈ active → span ∈ s.toolSpans
  root : ∀ (call : Nat) (info : CallInfo), s.infos[call]? = some info → s.parents[call]? = some none →
    info.runId = info.callId ∧ info.parentSpanId = none
  child : ∀ (call : Nat) (info : CallInfo) (parent : Nat), s.infos[call]? = some info → s.parents[call]? = some (some parent) →
    parent < call ∧ ∃ above, s.infos[parent]? = some above ∧ Inherits s.toolSpans parent above info

theorem create_lineage (defaults : Option Attribution) : (create defaults).Lineage := by
  constructor <;> simp [create, infos]

theorem Inherits.mono {spans more : List ToolSpan} {parent : Nat} {above info : CallInfo}
    (inherits : Inherits spans parent above info) (grown : spans ⊆ more) : Inherits more parent above info := by
  obtain ⟨spanId, named, inside⟩ := inherits.span
  exact ⟨inherits.run, inherits.attribution, inherits.steps, spanId, named, grown inside⟩

/-- A step that starts no call keeps the lineage, as long as what it adds refers to calls and
spans there are. -/
theorem Lineage.keep (lineage : s.Lineage) (infos : t.infos = s.infos) (parents : t.parents = s.parents)
    (calls : t.calls ⊆ s.calls)
    (hooks : ∀ hook ∈ t.hooks, hook ∈ s.hooks ∨
      ∃ info, s.infos[hook.call]? = some info ∧ ∀ callId ∈ hook.event.callId?, info.callId = callId)
    (grown : s.toolSpans ⊆ t.toolSpans)
    (spans : ∀ span ∈ t.toolSpans, span ∈ s.toolSpans ∨ span.call < s.infos.length)
    (contexts : ∀ active ∈ t.contexts, active ∈ s.contexts ∨ ∀ span, .own span ∈ active → span ∈ t.toolSpans) :
    t.Lineage where
  parents := by rw [infos, parents, lineage.parents]
  calls entry inside := by
    rw [infos]
    exact lineage.calls entry (calls inside)
  hooks hook inside := by
    rw [infos]
    exact (hooks hook inside).elim (lineage.hooks hook) id
  spans span inside := by
    rw [infos]
    exact (spans span inside).elim (lineage.spans span) id
  contexts active inside span own := by
    obtain before | new := contexts active inside
    · exact grown (lineage.contexts active before span own)
    · exact new span own
  root call info := by
    rw [infos, parents]
    exact lineage.root call info
  child call info parent := by
    rw [infos, parents]
    intro found started
    obtain ⟨earlier, above, object, inherits⟩ := lineage.child call info parent found started
    exact ⟨earlier, above, object, Inherits.mono inherits grown⟩

theorem Lineage.modify (lineage : s.Lineage) {call : Nat} {change : TrackedCall → TrackedCall}
    (same : ∀ tracked, (change tracked).toCallInfo = tracked.toCallInfo) : (s.modify call change).Lineage :=
  lineage.keep (infos_modify same) rfl (List.Subset.refl _) (fun _ => Or.inl) (List.Subset.refl _) (fun _ => Or.inl)
    fun _ => Or.inl

@[simp] theorem infos_add (info : CallInfo) (parent : Option Nat) : (s.add info parent).infos = s.infos ++ [info] := by
  simp [infos, add, TrackedCall.fresh]

theorem length_infos : s.infos.length = s.objects.length := by simp [infos]

/-- An entry of an extended list is an old one or the new one. -/
theorem getElem?_append_singleton {α : Type} {items : List α} {item found : α} {place : Nat}
    (at_ : (items ++ [item])[place]? = some found) :
    items[place]? = some found ∨ place = items.length ∧ found = item := by
  obtain inside | outside := lt_or_ge place items.length
  · rw [List.getElem?_append_left inside] at at_
    exact Or.inl at_
  · rw [List.getElem?_append_right outside] at at_
    obtain ⟨bound, same⟩ := List.getElem?_eq_some_iff.mp at_
    rw [List.length_singleton] at bound
    exact Or.inr ⟨by omega, by simpa using same.symm⟩

theorem Lineage.add (lineage : s.Lineage) {info : CallInfo} {parent : Option Nat}
    (root : parent = none → info.runId = info.callId ∧ info.parentSpanId = none)
    (child : ∀ above, parent = some above →
      ∃ known, s.infos[above]? = some known ∧ Inherits s.toolSpans above known info) :
    (s.add info parent).Lineage := by
  have older : ∀ {place : Nat} {known : CallInfo}, s.infos[place]? = some known →
      (s.infos ++ [info])[place]? = some known := by
    intro place known found
    rw [List.getElem?_append_left (List.getElem?_eq_some_iff.mp found).1, found]
  -- A call that is not new has the parent it had.
  have started : ∀ {place : Nat} {known : CallInfo} {above : Option Nat},
      (s.infos ++ [info])[place]? = some known → (s.parents ++ [parent])[place]? = some above →
        s.infos[place]? = some known ∧ s.parents[place]? = some above ∨
          place = s.infos.length ∧ known = info ∧ above = parent := by
    intro place known above found given
    obtain before | ⟨rfl, rfl⟩ := getElem?_append_singleton found
    · have inside : place < s.parents.length := by
        rw [lineage.parents]
        exact (List.getElem?_eq_some_iff.mp before).1
      rw [List.getElem?_append_left inside] at given
      exact Or.inl ⟨before, given⟩
    · rw [← lineage.parents, List.getElem?_concat_length] at given
      exact Or.inr ⟨rfl, rfl, (Option.some.inj given).symm⟩
  refine ⟨?_, ?_, ?_, ?_, lineage.contexts, ?_, ?_⟩
  · rw [infos_add, List.length_append, ← lineage.parents]
    exact List.length_append
  · intro entry inside
    rw [infos_add]
    obtain ⟨before, _⟩ | rfl := OrderedMap.mem_set.mp inside
    · obtain ⟨known, found, named⟩ := lineage.calls entry before
      exact ⟨known, older found, named⟩
    · refine ⟨info, ?_, rfl⟩
      rw [← length_infos, List.getElem?_concat_length]
  · intro hook inside
    rw [infos_add]
    obtain ⟨known, found, named⟩ := lineage.hooks hook inside
    exact ⟨known, older found, named⟩
  · intro span inside
    rw [infos_add, List.length_append]
    exact Nat.lt_add_right _ (lineage.spans span inside)
  · intro call known found given
    rw [infos_add] at found
    obtain ⟨before, at_⟩ | ⟨_, rfl, top⟩ := started found given
    · exact lineage.root call known before at_
    · exact root top.symm
  · intro call known above found given
    rw [infos_add] at found ⊢
    obtain ⟨before, at_⟩ | ⟨rfl, rfl, inner⟩ := started found given
    · obtain ⟨earlier, parentInfo, object, inherits⟩ := lineage.child call known above before at_
      exact ⟨earlier, parentInfo, older object, inherits⟩
    · obtain ⟨parentInfo, object, inherits⟩ := child above inner.symm
      exact ⟨(List.getElem?_eq_some_iff.mp object).1, parentInfo, older object, inherits⟩

/-! The counter of a run. -/

/-- The calls of a run share one counter, which is above the steps of its records. -/
structure Stepped (s : Telemetry) : Prop where
  distinct : (s.infos.map CallInfo.callId).Nodup
  started : ∀ info ∈ s.infos, info.callId ∈ s.starts
  plain : ∀ info ∈ s.infos, colonFree info.callId
  rooted : ∀ info ∈ s.infos, ∃ root ∈ s.infos, root.callId = info.runId
  cells : ∀ info ∈ s.infos, info.steps < s.counters.length
  shared : ∀ a ∈ s.infos, ∀ b ∈ s.infos, a.runId = b.runId → a.steps = b.steps
  recorded : ∀ produced ∈ s.records, ∃ info, s.infos[produced.call]? = some info ∧ RecordOf info produced.record ∧
    produced.record.run.step < s.counters.getD info.steps 0
  increasing : s.records.Pairwise fun a b =>
    a.record.run.runId = b.record.run.runId → a.record.run.step < b.record.run.step

theorem create_stepped (defaults : Option Attribution) : (create defaults).Stepped := by
  constructor <;> simp [create, infos]

theorem Stepped.keep (stepped : s.Stepped) (infos : t.infos = s.infos) (starts : s.starts ⊆ t.starts)
    (counters : t.counters = s.counters) (records : t.records = s.records) : t.Stepped := by
  obtain ⟨distinct, started, plain, rooted, cells, shared, recorded, increasing⟩ := stepped
  refine ⟨?_, ?_, ?_, ?_, ?_, ?_, ?_, ?_⟩ <;> simp only [infos, counters, records]
  · exact distinct
  · exact fun info inside => starts (started info inside)
  · exact plain
  · exact rooted
  · exact cells
  · exact shared
  · exact recorded
  · exact increasing

theorem Stepped.modify (stepped : s.Stepped) {call : Nat} {change : TrackedCall → TrackedCall}
    (same : ∀ tracked, (change tracked).toCallInfo = tracked.toCallInfo) : (s.modify call change).Stepped :=
  stepped.keep (infos_modify same) (List.Subset.refl _) rfl rfl

theorem forall_mem_concat {α : Type} {items : List α} {item : α} {P : α → Prop} (olds : ∀ x ∈ items, P x)
    (new : P item) : ∀ x ∈ items ++ [item], P x := by
  intro x inside
  obtain before | rfl := List.mem_append.mp inside |>.imp_right List.mem_singleton.mp
  · exact olds x before
  · exact new

/-- A call of a new id joins a run with the run's counter, or opens one with a counter of its own. -/
theorem Stepped.add (stepped : s.Stepped) {info : CallInfo} {parent : Option Nat} (fresh : info.callId ∉ s.infos.map CallInfo.callId)
    (started : info.callId ∈ s.starts) (plain : colonFree info.callId) (cell : info.steps < s.counters.length)
    (run : info.runId = info.callId ∨ ∃ above ∈ s.infos, info.runId = above.runId ∧ info.steps = above.steps) :
    (s.add info parent).Stepped := by
  -- A run of the same id as the new call's is the one it joined.
  have joins : ∀ other_ ∈ s.infos, other_.runId = info.runId → other_.steps = info.steps := by
    intro other_ inside same
    obtain own | ⟨above, known, joined, counter⟩ := run
    · obtain ⟨root, there, named⟩ := stepped.rooted other_ inside
      have taken : root.callId = info.callId := by rw [named, same, own]
      exact absurd (taken ▸ List.mem_map_of_mem there) fresh
    · rw [counter]
      exact stepped.shared other_ inside above known (same.trans joined)
  constructor
  · rw [infos_add, List.map_append, List.nodup_append']
    exact ⟨stepped.distinct, List.nodup_singleton _, by simpa using fresh⟩
  · rw [infos_add]
    exact forall_mem_concat stepped.started started
  · rw [infos_add]
    exact forall_mem_concat stepped.plain plain
  · rw [infos_add]
    refine forall_mem_concat ?_ ?_
    · intro known inside
      obtain ⟨root, there, named⟩ := stepped.rooted known inside
      exact ⟨root, List.mem_append_left _ there, named⟩
    · obtain own | ⟨above, known, joined, _⟩ := run
      · exact ⟨info, by simp, own.symm⟩
      · obtain ⟨root, there, named⟩ := stepped.rooted above known
        exact ⟨root, List.mem_append_left _ there, named.trans joined.symm⟩
  · rw [infos_add]
    exact forall_mem_concat stepped.cells cell
  · rw [infos_add]
    refine forall_mem_concat ?_ ?_
    · intro a known
      exact forall_mem_concat (stepped.shared a known) (joins a known)
    · exact forall_mem_concat (fun b known same => (joins b known same.symm).symm) fun _ => rfl
  · intro produced inside
    obtain ⟨known, found, of, below⟩ := stepped.recorded produced inside
    refine ⟨known, ?_, of, below⟩
    rw [infos_add, List.getElem?_append_left (List.getElem?_eq_some_iff.mp found).1, found]
  · exact stepped.increasing

/-- A counter for a run to come. -/
theorem Stepped.counter (stepped : s.Stepped) : ({ s with counters := s.counters ++ [0] } : Telemetry).Stepped := by
  refine ⟨stepped.distinct, stepped.started, stepped.plain, stepped.rooted, ?_, stepped.shared, ?_, stepped.increasing⟩
  · intro info inside
    simp only [List.length_append]
    exact Nat.lt_add_right _ (stepped.cells info inside)
  · intro produced inside
    obtain ⟨info, found, of, below⟩ := stepped.recorded produced inside
    have cell := stepped.cells info (List.mem_of_getElem? found)
    refine ⟨info, found, of, ?_⟩
    simpa only [List.getD_eq_getElem?_getD, List.getElem?_append_left cell] using below

/-- A counter after one step was taken from it. -/
theorem getD_set_succ {counters : List Nat} {cell : Nat} (inside : cell < counters.length) (place : Nat) :
    (counters.set cell (counters.getD cell 0 + 1)).getD place 0 =
      counters.getD place 0 + if cell = place then 1 else 0 := by
  simp only [List.getD_eq_getElem?_getD, List.getElem?_set]
  by_cases same : cell = place
  · subst same
    simp [inside]
  · simp [same]

/-- A record takes the next step of its run. -/
theorem Stepped.record (stepped : s.Stepped) {call : Nat} {info : CallInfo} (found : s.infos[call]? = some info)
    (parts : RecordParts) : (s.record call info parts).Stepped := by
  have inside : info ∈ s.infos := List.mem_of_getElem? found
  have cell := stepped.cells info inside
  refine ⟨stepped.distinct, stepped.started, stepped.plain, stepped.rooted, ?_, stepped.shared, ?_, ?_⟩
  · intro known there
    simp only [Telemetry.record, List.length_set]
    exact stepped.cells known there
  · refine forall_mem_concat ?_ ?_
    · intro produced before
      obtain ⟨known, there, of, below⟩ := stepped.recorded produced before
      refine ⟨known, there, of, ?_⟩
      rw [Telemetry.record, getD_set_succ cell]
      exact Nat.lt_add_right _ below
    · refine ⟨info, found, ⟨rfl, rfl, rfl⟩, ?_⟩
      simp only [Telemetry.record, getD_set_succ cell, if_true]
      exact Nat.lt_succ_self _
  · simp only [Telemetry.record]
    rw [List.pairwise_append]
    refine ⟨stepped.increasing, List.pairwise_singleton _ _, ?_⟩
    intro produced before new latest run
    cases List.mem_singleton.mp latest
    obtain ⟨known, there, of, below⟩ := stepped.recorded produced before
    have counter : known.steps = info.steps :=
      stepped.shared known (List.mem_of_getElem? there) info inside (of.run.symm.trans run)
    rwa [counter] at below

end Telemetry

end Audr.VercelAi
