import Audr.Pipeline.Machine
import Audr.PyPipeline.Machine

/-! The terminal states the pipelines count an accepted batch under. -/

namespace Audr

/-- Looking an id up among the rejections, as a map built from them does. -/
theorem mem_of_rejection {rejected : List (String × Option String)} {id : String} {entry : String × Option String}
    (found : (rejected.reverse.find? fun entry => entry.1 = id) = some entry) : id ∈ rejected.map Prod.fst := by
  have same := List.find?_some found
  have member := List.mem_reverse.mp (List.mem_of_find?_eq_some found)
  simp only [decide_eq_true_eq] at same
  exact List.mem_map.mpr ⟨entry, member, same⟩

theorem not_mem_of_no_rejection {rejected : List (String × Option String)} {id : String}
    (absent : (rejected.reverse.find? fun entry => entry.1 = id) = none) : id ∉ rejected.map Prod.fst := by
  intro listed
  obtain ⟨entry, member, same⟩ := List.mem_map.mp listed
  have other := List.find?_eq_none.mp absent entry (List.mem_reverse.mpr member)
  simp [same] at other

theorem filterMap_map_some {α β γ : Type} {items : List α} {f : α → β} {g : β → Option γ} {h : α → γ}
    (each : ∀ item ∈ items, g (f item) = some (h item)) : (items.map f).filterMap g = items.map h := by
  induction items with
  | nil => rfl
  | cons item rest ih =>
    rw [List.map_cons, List.filterMap_cons, each item (List.mem_cons_self ..)]
    simp only [List.map_cons]
    rw [ih fun later member => each later (List.mem_cons_of_mem _ member)]

end Audr

namespace Audr.Pipeline

open State (applyResult)

variable {R : Type}

/-- The terminal state a call gives its item. -/
def Op.verdict : Op R → Option Terminal
  | .fail _ disposition _ _ _ => some disposition.terminal
  | .markSent _ => some .sent
  | _ => none

variable [AudrRecord R]

/-- The records of a batch, each with the state `#apply` gives it. -/
def counted (batch : List (InFlight R)) (result : BatchResult) : List (R × Terminal) :=
  (batch.map InFlight.record).zip ((applyResult batch result).filterMap Op.verdict)

/-- A failure counts every record of the batch dropped. -/
theorem counted_failed (batch : List (InFlight R)) (result : BatchResult)
    (whole : ∀ rejected unknown, result ≠ .accepted rejected unknown) :
    counted batch result = (batch.map InFlight.record).map fun record => (record, .dropped) := by
  have verdicts : (applyResult batch result).filterMap Op.verdict = batch.map fun _ => .dropped := by
    cases result with
    | accepted rejected unknown => exact absurd rfl (whole rejected unknown)
    | failed retryable detail =>
      simp only [applyResult, List.filterMap_cons, Op.verdict]
      exact filterMap_map_some fun _ _ => rfl
    | closed =>
      simp only [applyResult, List.filterMap_cons, Op.verdict]
      exact filterMap_map_some fun _ _ => rfl
  unfold counted
  rw [verdicts, List.map_map, List.zip_map']
  rfl

theorem counted_accepted (batch : List (InFlight R)) (rejected : List (String × Option String))
    (unknown : List String) :
    counted batch (.accepted rejected unknown) =
      (batch.map InFlight.record).map fun record =>
        (record, acceptedAs rejected unknown (AudrRecord.recordId record)) := by
  have verdicts : (applyResult batch (.accepted rejected unknown)).filterMap Op.verdict =
      batch.map fun item => acceptedAs rejected unknown (AudrRecord.recordId item.record) := by
    simp only [applyResult, List.filterMap_append]
    rw [filterMap_map_some (h := fun item => acceptedAs rejected unknown (AudrRecord.recordId item.record))]
    · simp [Op.verdict]
    · intro item _
      split
      next entry found =>
        have listed := mem_of_rejection found
        rw [acceptedAs, if_pos listed]
        rfl
      next absent =>
        rw [acceptedAs, if_neg (not_mem_of_no_rejection absent)]
        split <;> rfl
  unfold counted
  rw [verdicts, List.map_map, List.zip_map']
  rfl

end Audr.Pipeline

namespace Audr.PyPipeline

open State (applyResult)

variable {R : Type}

/-- The terminal state a call gives its item. -/
def Op.verdict : Op R → Option Terminal
  | .fail _ disposition _ _ _ => some disposition.terminal
  | .markSent _ => some .sent
  | _ => none

variable [AudrRecord R]

/-- The records of a batch, each with the state the `match` of `_deliver` gives it. -/
def counted (batch : List (InFlight R)) (result : BatchResult) : List (R × Terminal) :=
  (batch.map InFlight.record).zip ((applyResult batch result).filterMap Op.verdict)

theorem counted_accepted (batch : List (InFlight R)) (rejected : List (String × Option String))
    (unknown : List String) :
    counted batch (.accepted rejected unknown) =
      (batch.map InFlight.record).map fun record =>
        (record, acceptedAs rejected unknown (AudrRecord.recordId record)) := by
  have verdicts : (applyResult batch (.accepted rejected unknown)).filterMap Op.verdict =
      batch.map fun item => acceptedAs rejected unknown (AudrRecord.recordId item.record) := by
    simp only [applyResult, State.applyAccepted, List.filterMap_append]
    rw [filterMap_map_some (h := fun item => acceptedAs rejected unknown (AudrRecord.recordId item.record))]
    · simp [Op.verdict]
    · intro item _
      split
      next entry found =>
        have listed := mem_of_rejection found
        rw [acceptedAs, if_pos listed]
        rfl
      next absent =>
        rw [acceptedAs, if_neg (not_mem_of_no_rejection absent)]
        split <;> rfl
  unfold counted
  rw [verdicts, List.map_map, List.zip_map']
  rfl

end Audr.PyPipeline
