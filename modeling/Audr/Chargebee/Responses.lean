import Audr.Json
import Audr.Records

/-! What both Chargebee sinks have in common: events, the answers of the transport, and what
a `207` says about the ids of a request. -/

namespace Audr.Chargebee

inductive FailureClass where
  | transient
  | credential
  | permanent
  deriving DecidableEq, Repr

/-- The class of a failed status, given those that are transient. -/
def classifyBy (transient : List Nat) (status : Nat) : FailureClass :=
  if status ∈ transient then .transient else if status = 401 then .credential else .permanent

/-- One event in the body of a batch ingest request. -/
structure UsageEvent (N : Type) where
  subscriptionId : String
  usageTimestamp : Int
  deduplicationId : String
  properties : List (String × Json N)
  deriving DecidableEq

def idsOf {N : Type} (events : List (UsageEvent N)) : List String := events.map UsageEvent.deduplicationId

/-- How one request ends. A body is read only where the status asks for it. -/
inductive Answer (Body : Type) where
  | closed
  | transportError (name : String)
  | response (status : Nat) (retryAfter : Option String) (body : Body)

def transientStatuses : List Nat := [408, 429, 500, 502, 503, 504]

section Attempts

variable {Body : Type}

/-- Whether another attempt may follow an answer. -/
def Answer.retried : Answer Body → Bool
  | .closed => false
  | .transportError _ => true
  | .response status _ _ => status ∈ transientStatuses

/-- The attempt that settles a batch: the first whose answer is not retried, or the last. -/
def settling (answers : Nat → Answer Body) (attempt : Nat) : Nat → Nat
  | 0 => attempt
  | left + 1 => if (answers attempt).retried then settling answers (attempt + 1) left else attempt

end Attempts

/-- What a sink makes of an answer: the result of the batch, or another attempt. -/
inductive Reaction where
  | settled (result : BatchResult)
  | again (detail : String)
  deriving DecidableEq, Repr

/-- The result once no attempt is left. -/
def Reaction.result : Reaction → BatchResult
  | .settled result => result
  | .again detail => .failed true (some detail)

/-- The `failed_events` list of a `207` body. -/
def failedEvents {N : Type} : Json N → Option (List (Json N))
  | .obj members =>
      match Json.get? "failed_events" members with
      | some (.arr failed) => some failed
      | _ => none
  | _ => none

/-- The `deduplication_id` of an entry of `failed_events`, with the entry's members. -/
def identified {N : Type} : Json N → Option (String × List (String × Json N))
  | .obj members =>
      match Json.get? "deduplication_id" members with
      | some (.str id) => some (id, members)
      | _ => none
  | _ => none

/-- What the loop over `failed_events` has found so far. -/
structure Matched where
  rejected : List (String × Option String) := []
  rejectedIds : List String := []
  unattributed : Nat := 0
  deriving DecidableEq, Repr

def Matched.miss (found : Matched) : Matched := { found with unattributed := found.unattributed + 1 }

/-- An id is rejected once for each event that carries it. -/
def Matched.reject (found : Matched) (ids : List String) (id : String) (detail : Option String) : Matched :=
  { found with
    rejected := found.rejected ++ List.replicate (ids.count id) (id, detail)
    rejectedIds := found.rejectedIds ++ [id] }

/-- What the loop leaves to report: an entry that could not be attributed makes every event
that is not rejected an unknown one. -/
def Matched.result (found : Matched) (ids : List String) : BatchResult :=
  if found.unattributed = 0 then .accepted found.rejected []
  else .accepted found.rejected (ids.filter (· ∉ found.rejectedIds))

/-- The ids that entries of `failed_events` name. -/
def namedIds {N : Type} (failed : List (Json N)) : List String :=
  failed.filterMap fun entry => (identified entry).map Prod.fst

/-- Every entry names exactly one id of the request, and no two the same one. -/
structure Attributed {N : Type} (ids : List String) (failed : List (Json N)) : Prop where
  each : ∀ entry ∈ failed, ∃ id members, identified entry = some (id, members) ∧ id ∈ ids
  once : (namedIds failed).Nodup

/-- The loop over `failed_events`, given what is reported of a rejected entry. -/
def matchEntries {N : Type} (detail : List (String × Json N) → Option String) (ids : List String) :
    List (Json N) → Matched → Matched
  | [], found => found
  | entry :: rest, found =>
      match identified entry with
      | some (id, members) =>
          if id ∈ ids ∧ id ∉ found.rejectedIds then
            matchEntries detail ids rest (found.reject ids id (detail members))
          else matchEntries detail ids rest found.miss
      | none => matchEntries detail ids rest found.miss

section Matching

variable {N : Type} {detail : List (String × Json N) → Option String} {ids : List String}

theorem namedIds_cons (entry : Json N) (rest : List (Json N)) :
    namedIds (entry :: rest) =
      match identified entry with
      | some (id, _) => id :: namedIds rest
      | none => namedIds rest := by
  unfold namedIds
  rw [List.filterMap_cons]
  cases identified entry <;> rfl

theorem matchEntries_rejectedIds (failed : List (Json N)) (found : Matched) (id : String) :
    id ∈ (matchEntries detail ids failed found).rejectedIds ↔
      id ∈ found.rejectedIds ∨ (id ∈ ids ∧ id ∈ namedIds failed) := by
  induction failed generalizing found with
  | nil => simp [matchEntries, namedIds]
  | cons entry rest ih =>
    rw [matchEntries, namedIds_cons]
    cases named : identified entry with
    | none => simp only [ih, Matched.miss]
    | some pair =>
      obtain ⟨other, members⟩ := pair
      simp only
      split
      next fresh =>
        rw [ih]
        simp only [Matched.reject, List.mem_append, List.mem_cons]
        by_cases same : id = other
        · subst same
          simp [fresh.1]
        · simp [same]
      next known =>
        rw [ih]
        simp only [Matched.miss, List.mem_cons]
        by_cases same : id = other
        · subst same
          by_cases present : id ∈ ids
          · have before : id ∈ found.rejectedIds := by
              by_contra absent
              exact known ⟨present, absent⟩
            simp [before]
          · simp [present]
        · simp [same]

/-- Ids are listed as rejected exactly when they are in the set of rejected ids. -/
theorem matchEntries_rejected (failed : List (Json N)) (found : Matched)
    (before : ∀ id, id ∈ found.rejected.map Prod.fst ↔ id ∈ found.rejectedIds) (id : String) :
    id ∈ (matchEntries detail ids failed found).rejected.map Prod.fst ↔
      id ∈ (matchEntries detail ids failed found).rejectedIds := by
  induction failed generalizing found with
  | nil => exact before id
  | cons entry rest ih =>
    rw [matchEntries]
    cases named : identified entry with
    | none => exact ih _ before
    | some pair =>
      obtain ⟨other, members⟩ := pair
      simp only
      split
      next fresh =>
        apply ih
        intro known
        have occurs : 0 < ids.count other := List.count_pos_iff.mpr fresh.1
        simp only [Matched.reject, List.map_append, List.mem_append, before, List.map_replicate,
          List.mem_replicate, List.mem_singleton]
        constructor
        · rintro (old | ⟨-, new⟩)
          · exact .inl old
          · exact .inr new
        · rintro (old | new)
          · exact .inl old
          · exact .inr ⟨by omega, new⟩
      · exact ih _ before

theorem matchEntries_unattributed (failed : List (Json N)) (found : Matched) :
    (matchEntries detail ids failed found).unattributed = 0 ↔
      found.unattributed = 0 ∧ (∀ entry ∈ failed, ∃ id members, identified entry = some (id, members) ∧ id ∈ ids) ∧
        (namedIds failed).Nodup ∧ ∀ id ∈ namedIds failed, id ∉ found.rejectedIds := by
  induction failed generalizing found with
  | nil => simp [matchEntries, namedIds]
  | cons entry rest ih =>
    rw [matchEntries, namedIds_cons]
    cases named : identified entry with
    | none =>
      simp only [ih, Matched.miss, List.forall_mem_cons, named]
      simp
    | some pair =>
      obtain ⟨other, members⟩ := pair
      simp only
      split
      next fresh =>
        rw [ih]
        simp only [Matched.reject, List.mem_append, List.mem_singleton, List.forall_mem_cons, named,
          List.nodup_cons, not_or, Option.some.injEq, Prod.mk.injEq]
        constructor
        · rintro ⟨none, each, once, apart⟩
          refine ⟨none, ⟨⟨other, members, ⟨rfl, rfl⟩, fresh.1⟩, each⟩, ⟨?_, once⟩, fresh.2, ?_⟩
          · intro again
            exact (apart other again).2 rfl
          · intro id later
            exact (apart id later).1
        · rintro ⟨none, ⟨-, each⟩, ⟨first, once⟩, -, apart⟩
          refine ⟨none, each, once, ?_⟩
          intro id later
          exact ⟨apart id later, fun same => first (same ▸ later)⟩
      next known =>
        simp only [ih, Matched.miss, List.forall_mem_cons, named]
        constructor
        · rintro ⟨impossible, -⟩
          omega
        · rintro ⟨-, ⟨⟨id, members', same, present⟩, -⟩, -, apart, -⟩
          cases same
          exact absurd ⟨present, apart⟩ known

/-- Nothing is left unattributed exactly when every entry can be attributed. -/
theorem attributed_iff (failed : List (Json N)) :
    (matchEntries detail ids failed {}).unattributed = 0 ↔ Attributed ids failed := by
  rw [matchEntries_unattributed]
  constructor
  · rintro ⟨-, each, once, -⟩
    exact ⟨each, once⟩
  · rintro ⟨each, once⟩
    exact ⟨rfl, each, once, fun _ _ => List.not_mem_nil⟩

end Matching

/-- What the answer that settles a batch says about the ids of the request. -/
inductive Reply (N : Type) where
  | all
  | listed (failed : List (Json N))
  | unreadable

/-- What an answer says, where the batch result is an accepted one. -/
def Answer.reply {Body N : Type} (parsed : Body → Option (Json N)) : Answer Body → Option (Reply N)
  | .response status _ body =>
      if status = 207 then
        match (parsed body).bind failedEvents with
        | some failed => some (.listed failed)
        | none => some .unreadable
      else if status = 202 then some .all
      else none
  | _ => none

/-- The `207` names the id. -/
def Reply.names {N : Type} : Reply N → String → Prop
  | .listed failed, id => id ∈ namedIds failed
  | _, _ => False

/-- The request was answered `202`, or a `207` whose every entry can be attributed. -/
def Reply.conclusive {N : Type} (ids : List String) : Reply N → Prop
  | .all => True
  | .listed failed => Attributed ids failed
  | .unreadable => False

/-- A result that reports the ids refused before the request, and those of the request the
way its answer says. -/
structure Reports {N : Type} (refused sent : List String) (reply : Reply N)
    (rejected : List (String × Option String)) (unknown : List String) : Prop where
  rejected : ∀ id, id ∈ rejected.map Prod.fst ↔ id ∈ refused ∨ (id ∈ sent ∧ reply.names id)
  unknown : ∀ id, id ∈ unknown ↔ id ∈ sent ∧ ¬ reply.names id ∧ ¬ reply.conclusive sent

/-- What the loop over `failed_events` found, as a result. -/
theorem reports_matched {N : Type} {detail : List (String × Json N) → Option String} {ids : List String}
    {failed : List (Json N)} {rejected : List (String × Option String)} {unknown : List String}
    (accepted : (matchEntries detail ids failed {}).result ids = .accepted rejected unknown) :
    Reports [] ids (.listed failed) rejected unknown := by
  have listed : ∀ id, id ∈ (matchEntries detail ids failed {}).rejectedIds ↔ id ∈ ids ∧ id ∈ namedIds failed := by
    intro id
    simp [matchEntries_rejectedIds]
  have details : ∀ id, id ∈ (matchEntries detail ids failed {}).rejected.map Prod.fst ↔
      id ∈ ids ∧ id ∈ namedIds failed := by
    intro id
    rw [matchEntries_rejected _ _ (by simp), listed]
  unfold Matched.result at accepted
  by_cases attributed : Attributed ids failed
  · rw [if_pos ((attributed_iff failed).mpr attributed)] at accepted
    cases accepted
    constructor
    · intro id
      simp [details, Reply.names]
    · intro id
      simp [Reply.conclusive, attributed]
  · rw [if_neg fun none => attributed ((attributed_iff failed).mp none)] at accepted
    cases accepted
    constructor
    · intro id
      simp [details, Reply.names]
    · intro id
      simp only [List.mem_filter, listed, decide_eq_true_eq, Reply.names, Reply.conclusive, attributed,
        not_false_eq_true, and_true]
      constructor
      · rintro ⟨present, apart⟩
        exact ⟨present, fun names => apart ⟨present, names⟩⟩
      · rintro ⟨present, unnamed⟩
        exact ⟨present, fun both => unnamed both.2⟩

/-- Refusals made before the request are reported beside what the request's answer says. -/
theorem Reports.with_refusals {N : Type} {refused ids : List String} {reply : Reply N}
    {early rejected : List (String × Option String)} {unknown : List String}
    (reports : Reports [] ids reply rejected unknown) (same : ∀ id, id ∈ early.map Prod.fst ↔ id ∈ refused) :
    Reports refused ids reply (early ++ rejected) unknown := by
  constructor
  · intro id
    rw [List.map_append, List.mem_append, same, reports.rejected]
    simp
  · exact reports.unknown

/-- What an accepted result has to mean once a pipeline has applied it: `refused` are the
records no event was made of, `ids` those of the request, and `counted` the terminal states
of the batch. -/
structure Sound {R N : Type} [AudrRecord R] (refused : R → Prop) (ids : List String) (reply : Reply N)
    (rejected : List (String × Option String)) (unknown : List String) (counted : List (R × Terminal)) :
    Prop where
  dropped : ∀ record, (record, .dropped) ∈ counted → refused record ∨ reply.names (AudrRecord.recordId record)
  sent : ∀ record, (record, .sent) ∈ counted →
    ¬ refused record ∧ ¬ reply.names (AudrRecord.recordId record) ∧ reply.conclusive ids
  disjoint : ∀ id ∈ rejected.map Prod.fst, id ∉ unknown
  inconclusive : ¬ reply.conclusive ids → ∀ record, (record, .sent) ∈ counted →
    reply.names (AudrRecord.recordId record)

/-- Every id that a refused record shares with an event is one the `207` named. -/
def SharedNamed {R N : Type} [AudrRecord R] (refused : R → Prop) (batch : List R) (reply : Reply N) : Prop :=
  ∀ record ∈ batch, ∀ other ∈ batch, refused record → ¬ refused other →
    AudrRecord.recordId record = AudrRecord.recordId other → reply.names (AudrRecord.recordId other)

section Soundness

variable {R N : Type} [AudrRecord R] {refused : R → Prop} {batch : List R} {reply : Reply N}
  {refusedIds ids unknown : List String} {rejected : List (String × Option String)}

/-- How the ids of a batch divide over the refusals and the request. -/
structure Divided (refused : R → Prop) (batch : List R) (refusedIds ids : List String) : Prop where
  refusals : ∀ id, id ∈ refusedIds ↔ ∃ record ∈ batch, refused record ∧ AudrRecord.recordId record = id
  events : ∀ id, id ∈ ids ↔ ∃ record ∈ batch, ¬ refused record ∧ AudrRecord.recordId record = id

theorem sent_covered (reports : Reports refusedIds ids reply rejected unknown)
    (divided : Divided refused batch refusedIds ids) {record : R} (member : record ∈ batch)
    (counted : acceptedAs rejected unknown (AudrRecord.recordId record) = .sent) :
    ¬ refused record ∧ ¬ reply.names (AudrRecord.recordId record) ∧ reply.conclusive ids := by
  obtain ⟨unlisted, known⟩ := acceptedAs_sent.mp counted
  rw [reports.rejected, not_or] at unlisted
  have event : ¬ refused record := fun here => unlisted.1 ((divided.refusals _).mpr ⟨record, member, here, rfl⟩)
  have carried := (divided.events _).mpr ⟨record, member, event, rfl⟩
  have unnamed : ¬ reply.names (AudrRecord.recordId record) := fun names => unlisted.2 ⟨carried, names⟩
  refine ⟨event, unnamed, ?_⟩
  by_contra inconclusive
  exact known ((reports.unknown _).mpr ⟨carried, unnamed, inconclusive⟩)

theorem dropped_covered (reports : Reports refusedIds ids reply rejected unknown)
    (divided : Divided refused batch refusedIds ids) (shared : SharedNamed refused batch reply) {record : R}
    (member : record ∈ batch)
    (counted : acceptedAs rejected unknown (AudrRecord.recordId record) = .dropped) :
    refused record ∨ reply.names (AudrRecord.recordId record) := by
  by_cases here : refused record
  · exact .inl here
  · rcases (reports.rejected _).mp (acceptedAs_dropped.mp counted) with listed | ⟨-, names⟩
    · obtain ⟨first, present, refusedFirst, same⟩ := (divided.refusals _).mp listed
      exact .inr (shared first present record member refusedFirst here same)
    · exact .inr names

theorem lists_disjoint (reports : Reports refusedIds ids reply rejected unknown)
    (divided : Divided refused batch refusedIds ids) (shared : SharedNamed refused batch reply) {id : String}
    (listed : id ∈ rejected.map Prod.fst) : id ∉ unknown := by
  intro inconclusive
  obtain ⟨carried, unnamed, -⟩ := (reports.unknown id).mp inconclusive
  rcases (reports.rejected id).mp listed with here | ⟨-, names⟩
  · obtain ⟨first, present, refusedFirst, same⟩ := (divided.refusals _).mp here
    obtain ⟨other, member, event, other_id⟩ := (divided.events _).mp carried
    have names := shared first present other member refusedFirst event (same.trans other_id.symm)
    exact unnamed (other_id ▸ names)
  · exact unnamed names

/-- The result is sound exactly when every shared id is one the `207` named. -/
theorem sound_iff (reports : Reports refusedIds ids reply rejected unknown)
    (divided : Divided refused batch refusedIds ids) :
    Sound refused ids reply rejected unknown
        (batch.map fun record => (record, acceptedAs rejected unknown (AudrRecord.recordId record))) ↔
      SharedNamed refused batch reply := by
  have entry : ∀ record terminal, (record, terminal) ∈ batch.map (fun record =>
      (record, acceptedAs rejected unknown (AudrRecord.recordId record))) ↔
      record ∈ batch ∧ acceptedAs rejected unknown (AudrRecord.recordId record) = terminal := by
    intro record terminal
    constructor
    · intro counted
      obtain ⟨other, member, same⟩ := List.mem_map.mp counted
      cases same
      exact ⟨member, rfl⟩
    · rintro ⟨member, rfl⟩
      exact List.mem_map.mpr ⟨record, member, rfl⟩
  constructor
  · intro sound record member other present here event same
    have listed : AudrRecord.recordId other ∈ refusedIds := (divided.refusals _).mpr ⟨record, member, here, same⟩
    have counted : acceptedAs rejected unknown (AudrRecord.recordId other) = .dropped :=
      acceptedAs_dropped.mpr ((reports.rejected _).mpr (.inl listed))
    exact (sound.dropped other ((entry _ _).mpr ⟨present, counted⟩)).resolve_left event
  · intro shared
    constructor
    · intro record counted
      obtain ⟨member, dropped⟩ := (entry _ _).mp counted
      exact dropped_covered reports divided shared member dropped
    · intro record counted
      obtain ⟨member, sent⟩ := (entry _ _).mp counted
      exact sent_covered reports divided member sent
    · intro id listed
      exact lists_disjoint reports divided shared listed
    · intro inconclusive record counted
      obtain ⟨member, sent⟩ := (entry _ _).mp counted
      exact absurd (sent_covered reports divided member sent).2.2 inconclusive

end Soundness

end Audr.Chargebee
