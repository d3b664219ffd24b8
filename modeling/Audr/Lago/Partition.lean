import Audr.Lago.Preflight

/-! What preflight makes of a batch, id by id, whatever the order of its records. -/

namespace Audr.Lago

open OrderedMap

variable {R : Type} [AudrRecord R] {encoder : Encoder R} {found : Preflight} {batch before : List R} {record : R}
  {id body detail : String}

def idsOfBatch (batch : List R) : List String := batch.map AudrRecord.recordId

/-- Every record of an id encodes, and all to the same text. -/
def Agreed (encoder : Encoder R) (batch : List R) (id body : String) : Prop :=
  ∀ record ∈ batch, AudrRecord.recordId record = id →
    ∃ event, encoder.encode record = .ok event ∧ encoder.stringify event = body

theorem agreed_append {more : List R} :
    Agreed encoder (before ++ more) id body ↔ Agreed encoder before id body ∧ Agreed encoder more id body :=
  List.forall_mem_append

theorem agreed_singleton : Agreed encoder [record] id body ↔
    (AudrRecord.recordId record = id → ∃ event, encoder.encode record = .ok event ∧ encoder.stringify event = body) := by
  simp [Agreed]

theorem agreed_of_fresh (fresh : id ∉ idsOfBatch batch) : Agreed encoder batch id body :=
  fun record member same => absurd (List.mem_map.mpr ⟨record, member, same⟩) fresh

theorem Agreed.perm {other : List R} (agreed : Agreed encoder batch id body) (same : batch.Perm other) :
    Agreed encoder other id body :=
  fun record member => agreed record (same.mem_iff.mpr member)

theorem Agreed.unique {other : String} (one : Agreed encoder batch id body) (two : Agreed encoder batch id other)
    (named : id ∈ idsOfBatch batch) : body = other := by
  obtain ⟨record, member, same⟩ := List.mem_map.mp named
  obtain ⟨event, encoded, rfl⟩ := one record member same
  obtain ⟨again, twice, rfl⟩ := two record member same
  cases encoded.symm.trans twice
  rfl

/-- What one turn of the loop does. -/
theorem read_cases (encoder : Encoder R) (found : Preflight) (record : R) :
    (∃ detail, encoder.encode record = .error detail ∧
      found.read encoder record = found.reject (AudrRecord.recordId record) detail) ∨
    ∃ event, encoder.encode record = .ok event ∧
      ((AudrRecord.recordId record ∈ keys found.rejected ∧ found.read encoder record = found) ∨
      (AudrRecord.recordId record ∉ keys found.rejected ∧ AudrRecord.recordId record ∉ keys found.events ∧
        found.read encoder record = { found with events := found.events ++ [(AudrRecord.recordId record, event)] }) ∨
      ∃ earlier, (AudrRecord.recordId record, earlier) ∈ found.events ∧
        ((encoder.stringify earlier = encoder.stringify event ∧ found.read encoder record = found) ∨
        (encoder.stringify earlier ≠ encoder.stringify event ∧
          found.read encoder record = found.reject (AudrRecord.recordId record) "duplicate_record_id"))) := by
  unfold Preflight.read
  cases encoded : encoder.encode record with
  | error detail => exact .inl ⟨detail, rfl, rfl⟩
  | ok event =>
    refine .inr ⟨event, rfl, ?_⟩
    by_cases refused : AudrRecord.recordId record ∈ keys found.rejected
    · exact .inl ⟨refused, by simp [refused]⟩
    · cases held : get? found.events (AudrRecord.recordId record) with
      | none =>
        refine .inr (.inl ⟨refused, fun member => ?_, by simp [refused, held]⟩)
        have present := get?_isSome.mpr member
        rw [held] at present
        cases present
      | some earlier =>
        refine .inr (.inr ⟨earlier, mem_of_get? held, ?_⟩)
        by_cases same : encoder.stringify earlier = encoder.stringify event
        · exact .inl ⟨same, by simp [refused, held, same]⟩
        · exact .inr ⟨same, by simp [refused, held, same]⟩

theorem reject_knows_iff (found : Preflight) (id detail other : String) :
    (found.reject id detail).Knows other ↔ found.Knows other ∨ other = id := by
  constructor
  · rintro (event | refused)
    · exact .inl (.inl ((keys_erase_sublist _ _).subset event))
    · simp only [Preflight.reject] at refused
      split at refused
      · exact .inl (.inr refused)
      · rw [keys_append, List.mem_append] at refused
        exact refused.imp .inr List.mem_singleton.mp
  · rintro (known | rfl)
    · exact known.reject _ _
    · exact reject_knows _ _ _

/-- The maps of `preflight` after a part of the batch. -/
structure Partition (encoder : Encoder R) (before : List R) (found : Preflight) : Prop where
  named : ∀ id, found.Knows id ↔ id ∈ idsOfBatch before
  kept : ∀ entry ∈ found.events, Agreed encoder before entry.1 (encoder.stringify entry.2)
  refused : ∀ id ∈ keys found.rejected, ∀ body, ¬Agreed encoder before id body

theorem mem_idsOfBatch_append : id ∈ idsOfBatch (before ++ [record]) ↔
    id ∈ idsOfBatch before ∨ id = AudrRecord.recordId record := by
  simp [idsOfBatch, eq_comm]

theorem Partition.reject (partition : Partition encoder before found)
    (apart : ∀ body, ¬Agreed encoder (before ++ [record]) (AudrRecord.recordId record) body) :
    Partition encoder (before ++ [record]) (found.reject (AudrRecord.recordId record) detail) := by
  constructor
  · intro id
    rw [reject_knows_iff, partition.named, mem_idsOfBatch_append]
  · intro entry member
    obtain ⟨held, other⟩ := mem_erase.mp member
    exact agreed_append.mpr ⟨partition.kept entry held, agreed_singleton.mpr fun same => absurd same.symm other⟩
  · intro id refused body agreed
    simp only [Preflight.reject] at refused
    split at refused
    · exact partition.refused id refused body (agreed_append.mp agreed).1
    · rw [keys_append, List.mem_append] at refused
      rcases refused with before | new
      · exact partition.refused id before body (agreed_append.mp agreed).1
      · rw [List.mem_singleton.mp new] at agreed
        exact apart body agreed

/-- An id in one of the maps stays there where the record says nothing new. -/
theorem Partition.keep (partition : Partition encoder before found)
    (known : found.Knows (AudrRecord.recordId record))
    (agreed : ∀ event, (AudrRecord.recordId record, event) ∈ found.events →
      Agreed encoder [record] (AudrRecord.recordId record) (encoder.stringify event)) :
    Partition encoder (before ++ [record]) found := by
  constructor
  · intro id
    rw [partition.named, mem_idsOfBatch_append]
    constructor
    · exact .inl
    · rintro (named | rfl)
      · exact named
      · exact (partition.named _).mp known
  · intro entry member
    refine agreed_append.mpr ⟨partition.kept entry member, agreed_singleton.mpr fun same => ?_⟩
    have held : (AudrRecord.recordId record, entry.2) ∈ found.events := same ▸ member
    exact agreed_singleton.mp (agreed entry.2 held) rfl
  · intro id refused body agreed
    exact partition.refused id refused body (agreed_append.mp agreed).1

theorem Partition.read (partition : Partition encoder before found) (valid : found.Valid) (record : R) :
    Partition encoder (before ++ [record]) (found.read encoder record) := by
  rcases read_cases encoder found record with ⟨detail, encoded, same⟩ | ⟨event, encoded, step⟩
  · rw [same]
    refine partition.reject fun body agreed => ?_
    obtain ⟨event, encodes, -⟩ := agreed_singleton.mp (agreed_append.mp agreed).2 rfl
    cases encoded.symm.trans encodes
  · have mine : ∀ body, Agreed encoder [record] (AudrRecord.recordId record) body ↔ encoder.stringify event = body := by
      intro body
      rw [agreed_singleton, encoded]
      simp
    rcases step with ⟨refused, same⟩ | ⟨unrefused, fresh, same⟩ | ⟨earlier, held, ⟨equal, same⟩ | ⟨differ, same⟩⟩
    · rw [same]
      refine partition.keep (.inr refused) fun event held => ?_
      exact absurd refused (valid.apart _ (List.mem_map_of_mem held))
    · rw [same]
      have unknown : AudrRecord.recordId record ∉ idsOfBatch before := by
        rw [← partition.named]
        exact not_or.mpr ⟨fresh, unrefused⟩
      constructor
      · intro id
        rw [mem_idsOfBatch_append, ← partition.named]
        simp only [Preflight.Knows, keys_append, List.mem_append]
        simp only [keys, List.map_cons, List.map_nil, List.mem_singleton]
        tauto
      · intro entry member
        rcases List.mem_append.mp member with old | new
        · refine agreed_append.mpr ⟨partition.kept entry old, agreed_singleton.mpr fun same => ?_⟩
          exact absurd (same ▸ List.mem_map_of_mem old) fresh
        · rw [List.mem_singleton.mp new]
          exact agreed_append.mpr ⟨agreed_of_fresh unknown, (mine _).mpr rfl⟩
      · intro id refused body agreed
        exact partition.refused id refused body (agreed_append.mp agreed).1
    · rw [same]
      refine partition.keep (.inl (List.mem_map_of_mem held)) fun other member => ?_
      have unique : other = earlier :=
        congrArg Prod.snd (List.inj_on_of_nodup_map valid.events member held rfl)
      rw [unique, mine, equal]
    · rw [same]
      refine partition.reject fun body agreed => differ ?_
      obtain ⟨old, new⟩ := agreed_append.mp agreed
      have named := (partition.named _).mp (.inl (List.mem_map_of_mem held))
      rw [(partition.kept _ held).unique old named, (mine body).mp new]

/-- What `preflight` has made of a batch. -/
theorem preflight_partition (encoder : Encoder R) (batch : List R) : Partition encoder batch (preflight encoder batch) := by
  suffices ∀ (before : List R) (found : Preflight), found.Valid → Partition encoder before found →
      Partition encoder (before ++ batch) (batch.foldl (Preflight.read encoder) found) by
    refine this [] {} ?_ ?_
    · constructor <;> simp [keys]
    · constructor <;> simp [Preflight.Knows, keys, idsOfBatch]
  induction batch with
  | nil =>
    intro before found _ partition
    simpa using partition
  | cons record rest ih =>
    intro before found valid partition
    have later := ih _ _ (valid.read encoder record) (partition.read valid record)
    rwa [List.append_assoc] at later

/-- The ids that end with an event. -/
theorem mem_events_iff (encoder : Encoder R) (batch : List R) (id : String) :
    id ∈ keys (preflight encoder batch).events ↔ id ∈ idsOfBatch batch ∧ ∃ body, Agreed encoder batch id body := by
  have partition := preflight_partition encoder batch
  constructor
  · intro event
    obtain ⟨entry, member, rfl⟩ := List.mem_map.mp event
    exact ⟨(partition.named _).mp (.inl event), _, partition.kept entry member⟩
  · rintro ⟨named, body, agreed⟩
    rcases (partition.named id).mpr named with event | refused
    · exact event
    · exact absurd agreed (partition.refused id refused body)

theorem mem_rejected_iff (encoder : Encoder R) (batch : List R) (id : String) :
    id ∈ keys (preflight encoder batch).rejected ↔ id ∈ idsOfBatch batch ∧ ¬∃ body, Agreed encoder batch id body := by
  have partition := preflight_partition encoder batch
  constructor
  · exact fun refused => ⟨(partition.named _).mp (.inr refused), fun ⟨body, agreed⟩ => partition.refused id refused body agreed⟩
  · rintro ⟨named, apart⟩
    rcases (partition.named id).mpr named with event | refused
    · exact absurd ((mem_events_iff encoder batch id).mp event).2 apart
    · exact refused

/-- The ids of a batch are shared out between events and rejections, by what its records encode
to and not by their order. -/
theorem preflight_partitions (encoder : Encoder R) (batch : List R) :
    ((preflight encoder batch).events.map fun entry => entry.2.transactionId) = keys (preflight encoder batch).events ∧
    (keys (preflight encoder batch).events ++ keys (preflight encoder batch).rejected).Nodup ∧
    (∀ id, id ∈ keys (preflight encoder batch).events ++ keys (preflight encoder batch).rejected ↔ id ∈ idsOfBatch batch) ∧
    (∀ id, id ∈ keys (preflight encoder batch).events ↔
      id ∈ idsOfBatch batch ∧ ∃ body, Agreed encoder batch id body) ∧
    ∀ other, batch.Perm other →
      (keys (preflight encoder batch).events).Perm (keys (preflight encoder other).events) ∧
      (keys (preflight encoder batch).rejected).Perm (keys (preflight encoder other).rejected) ∧
      ∀ id event again, (id, event) ∈ (preflight encoder batch).events → (id, again) ∈ (preflight encoder other).events →
        encoder.stringify event = encoder.stringify again := by
  have partition := preflight_partition encoder batch
  have valid := preflight_valid encoder batch
  refine ⟨List.map_congr_left valid.identified, ?_, fun id => ?_, mem_events_iff encoder batch, fun other same => ?_⟩
  · exact List.nodup_append.mpr ⟨valid.events, valid.rejected, fun id event other refused equal =>
      valid.apart id event (equal ▸ refused)⟩
  · rw [List.mem_append, ← partition.named id]
    rfl
  · have moved := preflight_valid encoder other
    have ids : ∀ id, id ∈ idsOfBatch batch ↔ id ∈ idsOfBatch other := fun id => (same.map _).mem_iff
    have agreed : ∀ id, (∃ body, Agreed encoder batch id body) ↔ ∃ body, Agreed encoder other id body :=
      fun id => exists_congr fun body => ⟨fun agreed => agreed.perm same, fun agreed => agreed.perm same.symm⟩
    refine ⟨?_, ?_, fun id event again one two => ?_⟩
    · refine (List.perm_ext_iff_of_nodup valid.events moved.events).mpr fun id => ?_
      rw [mem_events_iff, mem_events_iff, ids, agreed]
    · refine (List.perm_ext_iff_of_nodup valid.rejected moved.rejected).mpr fun id => ?_
      rw [mem_rejected_iff, mem_rejected_iff, ids, agreed]
    · have first := partition.kept _ one
      have second := ((preflight_partition encoder other).kept _ two).perm same.symm
      exact first.unique second ((partition.named id).mp (.inl (List.mem_map_of_mem one)))

end Audr.Lago
