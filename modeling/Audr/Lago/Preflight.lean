import Audr.Records
import Audr.Lib.Double
import Audr.Lib.OrderedMap

/-! Local processing of a batch before anything is sent: each record becomes one event or a
rejection, and the ids of the two are apart. -/

namespace Audr.Lago

inductive PropertyValue where
  | str (value : String)
  | num (value : Double)
  deriving DecidableEq

/-- One event in the body of a batch request. -/
structure LagoEvent where
  transactionId : String
  externalSubscriptionId : String
  code : String
  timestamp : String
  properties : List (String × PropertyValue)
  deriving DecidableEq

/-- How a record becomes an event, or the detail it is rejected with, and the text of an event. -/
structure Encoder (R : Type) [AudrRecord R] where
  encode : R → Except String LagoEvent
  stringify : LagoEvent → String
  identified : ∀ {record event}, encode record = .ok event → event.transactionId = AudrRecord.recordId record

/-- The two maps of `preflight`. -/
structure Preflight where
  events : List (String × LagoEvent) := []
  rejected : List (String × String) := []
  deriving DecidableEq

open OrderedMap

/-- `reject`: the first detail of an id stands. -/
def Preflight.reject (found : Preflight) (id detail : String) : Preflight :=
  { events := erase found.events id
    rejected := if id ∈ keys found.rejected then found.rejected else found.rejected ++ [(id, detail)] }

section Preflights

variable {R : Type} [AudrRecord R]

/-- One turn of the loop of `preflight`. -/
def Preflight.read (encoder : Encoder R) (found : Preflight) (record : R) : Preflight :=
  let id := AudrRecord.recordId record
  match encoder.encode record with
  | .error detail => found.reject id detail
  | .ok event =>
      if id ∈ keys found.rejected then found
      else
        match get? found.events id with
        | none => { found with events := found.events ++ [(id, event)] }
        | some earlier =>
            if encoder.stringify earlier = encoder.stringify event then found
            else found.reject id "duplicate_record_id"

/-- `preflight`. -/
def preflight (encoder : Encoder R) (batch : List R) : Preflight := batch.foldl (Preflight.read encoder) {}

/-- What the two maps hold after any part of a batch. -/
structure Preflight.Valid (found : Preflight) : Prop where
  events : (keys found.events).Nodup
  rejected : (keys found.rejected).Nodup
  apart : ∀ id ∈ keys found.events, id ∉ keys found.rejected
  identified : ∀ entry ∈ found.events, entry.2.transactionId = entry.1

theorem keys_append {V : Type} (entries more : List (String × V)) : keys (entries ++ more) = keys entries ++ keys more :=
  List.map_append

theorem Preflight.Valid.reject {found : Preflight} (valid : found.Valid) (id detail : String) :
    (found.reject id detail).Valid := by
  constructor
  · exact erase_nodup valid.events
  · simp only [Preflight.reject]
    split
    · exact valid.rejected
    next fresh =>
      rw [keys_append]
      exact List.nodup_append.mpr ⟨valid.rejected, List.nodup_singleton _,
        fun a member b new same => fresh (by
          have last : b = id := List.mem_singleton.mp new
          rw [← last, ← same]
          exact member)⟩
  · intro other member refused
    simp only [Preflight.reject, keys_erase, List.mem_filter, decide_eq_true_eq] at member
    simp only [Preflight.reject] at refused
    split at refused
    · exact valid.apart other member.1 refused
    · rw [keys_append, List.mem_append] at refused
      rcases refused with before | new
      · exact valid.apart other member.1 before
      · exact member.2 (List.mem_singleton.mp new)
  · intro entry member
    exact valid.identified entry (mem_erase.mp member).1

theorem Preflight.Valid.read {found : Preflight} (valid : found.Valid) (encoder : Encoder R) (record : R) :
    (found.read encoder record).Valid := by
  unfold Preflight.read
  cases encoded : encoder.encode record with
  | error detail => exact valid.reject _ _
  | ok event =>
    simp only
    split
    · exact valid
    next unrejected =>
      split
      next absent =>
        have fresh : AudrRecord.recordId record ∉ keys found.events := by
          intro member
          have present := get?_isSome.mpr member
          rw [absent] at present
          cases present
        refine ⟨?_, valid.rejected, ?_, ?_⟩
        · rw [keys_append]
          exact List.nodup_append.mpr ⟨valid.events, List.nodup_singleton _,
            fun a member b new same => fresh (by
              have last : b = AudrRecord.recordId record := List.mem_singleton.mp new
              rw [← last, ← same]
              exact member)⟩
        · intro id member
          rw [keys_append, List.mem_append] at member
          rcases member with before | new
          · exact valid.apart id before
          · rw [List.mem_singleton.mp new]
            exact unrejected
        · intro entry member
          rcases List.mem_append.mp member with before | new
          · exact valid.identified entry before
          · rw [List.mem_singleton.mp new]
            exact encoder.identified encoded
      · split
        · exact valid
        · exact valid.reject _ _

theorem preflight_valid (encoder : Encoder R) (batch : List R) : (preflight encoder batch).Valid := by
  have initial : ({} : Preflight).Valid := by
    constructor <;> simp [keys]
  suffices ∀ found : Preflight, found.Valid → (batch.foldl (Preflight.read encoder) found).Valid from
    this {} initial
  induction batch with
  | nil => exact fun found valid => valid
  | cons record rest ih => exact fun found valid => ih _ (valid.read encoder record)

theorem keys_erase_sublist {V : Type} (entries : List (String × V)) (id : String) :
    (keys (erase entries id)).Sublist (keys entries) := List.filter_sublist.map _

/-- Events keep the order in which the batch names their ids first. -/
theorem read_ordered (encoder : Encoder R) {found : Preflight} {ids : List String}
    (before : (keys found.events).Sublist ids) (record : R) :
    (keys (found.read encoder record).events).Sublist (ids ++ [AudrRecord.recordId record]) := by
  have kept := before.trans (List.sublist_append_left ids [AudrRecord.recordId record])
  unfold Preflight.read
  simp only
  split
  · exact (keys_erase_sublist _ _).trans kept
  · split
    · exact kept
    · split
      · rw [keys_append]
        exact before.append (List.Sublist.refl _)
      · split
        · exact kept
        · exact (keys_erase_sublist _ _).trans kept

theorem preflight_ordered (encoder : Encoder R) (batch : List R) :
    (keys (preflight encoder batch).events).Sublist (batch.map AudrRecord.recordId) := by
  suffices ∀ (found : Preflight) (ids : List String), (keys found.events).Sublist ids →
      (keys (batch.foldl (Preflight.read encoder) found).events).Sublist (ids ++ batch.map AudrRecord.recordId) from
    this {} [] (List.Sublist.refl _)
  induction batch with
  | nil =>
    intro found ids before
    simpa using before
  | cons record rest ih =>
    intro found ids before
    have later := ih _ _ (read_ordered encoder before record)
    rwa [List.append_assoc] at later

/-- An id that one of the two maps knows. -/
def Preflight.Knows (found : Preflight) (id : String) : Prop := id ∈ keys found.events ∨ id ∈ keys found.rejected

theorem Preflight.Knows.reject {found : Preflight} {id : String} (known : found.Knows id) (other detail : String) :
    (found.reject other detail).Knows id := by
  unfold Preflight.Knows Preflight.reject
  by_cases same : id = other
  · right
    subst same
    split
    · assumption
    · simp [keys]
  · rcases known with event | refused
    · left
      rw [keys_erase, List.mem_filter]
      exact ⟨event, by simpa using same⟩
    · right
      split
      · exact refused
      · rw [keys_append]
        exact List.mem_append_left _ refused

theorem reject_knows (found : Preflight) (id detail : String) : (found.reject id detail).Knows id := by
  right
  unfold Preflight.reject
  split
  · assumption
  · simp [keys]

theorem Preflight.Knows.read {found : Preflight} {id : String} (known : found.Knows id) (encoder : Encoder R)
    (record : R) : (found.read encoder record).Knows id := by
  unfold Preflight.read
  simp only
  split
  · exact known.reject _ _
  · split
    · exact known
    · split
      · rcases known with event | refused
        · left
          rw [keys_append]
          exact List.mem_append_left _ event
        · exact .inr refused
      · split
        · exact known
        · exact known.reject _ _

theorem read_knows (encoder : Encoder R) (found : Preflight) (record : R) :
    (found.read encoder record).Knows (AudrRecord.recordId record) := by
  unfold Preflight.read
  simp only
  split
  · exact reject_knows _ _ _
  · split
    next refused => exact .inr refused
    · split
      · left
        simp [keys]
      next earlier present =>
        split
        · left
          rw [← get?_isSome, present]
          rfl
        · exact reject_knows _ _ _

theorem foldl_knows {found : Preflight} {id : String} (known : found.Knows id) (encoder : Encoder R)
    (batch : List R) : (batch.foldl (Preflight.read encoder) found).Knows id := by
  induction batch generalizing found with
  | nil => exact known
  | cons record rest ih => exact ih (known.read encoder record)

/-- Every id of the batch has an event or a rejection. -/
theorem preflight_knows (encoder : Encoder R) {batch : List R} {record : R} (member : record ∈ batch) :
    (preflight encoder batch).Knows (AudrRecord.recordId record) := by
  suffices ∀ found : Preflight, (batch.foldl (Preflight.read encoder) found).Knows (AudrRecord.recordId record) from
    this {}
  induction batch with
  | nil => cases member
  | cons first rest ih =>
    intro found
    rcases List.mem_cons.mp member with rfl | later
    · exact foldl_knows (read_knows encoder found record) encoder rest
    · exact ih later _

end Preflights

end Audr.Lago
