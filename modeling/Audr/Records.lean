import Mathlib.Data.List.Nodup

/-! What the pipelines of both languages and the sinks share: submitted records, the
states they end in, and a sink's answer for a batch. -/

namespace Audr

/-- A submitted record's identity. The pipelines tell the objects they were handed apart,
so a record submitted twice is two records; each is known by the number of its submission. -/
abbrev Ref := Nat

/-- Records are read by the pipeline through their `record_id` only. -/
class AudrRecord (R : Type) where
  recordId : R → String

/-- A record that is its own identifier, for runs on fixed inputs. -/
instance textRecord : AudrRecord String := ⟨id⟩

/-- A terminal state other than `sent`. -/
inductive Disposition where
  | dropped
  | unknown
  deriving DecidableEq, Repr

inductive Terminal where
  | sent
  | dropped
  | unknown
  deriving DecidableEq, Repr

def Disposition.terminal : Disposition → Terminal
  | .dropped => .dropped
  | .unknown => .unknown

/-- A sink's answer for one batch. -/
inductive BatchResult where
  | accepted (rejected : List (String × Option String)) (unknown : List String)
  | failed (retryable : Bool) (detail : Option String)
  | closed
  deriving DecidableEq, Repr

/-- What a pipeline makes of an accepted result, for a record of the batch. -/
def acceptedAs (rejected : List (String × Option String)) (unknown : List String) (id : String) : Terminal :=
  if id ∈ rejected.map Prod.fst then .dropped else if id ∈ unknown then .unknown else .sent

theorem acceptedAs_dropped {rejected : List (String × Option String)} {unknown : List String} {id : String} :
    acceptedAs rejected unknown id = .dropped ↔ id ∈ rejected.map Prod.fst := by
  unfold acceptedAs
  by_cases listed : id ∈ rejected.map Prod.fst
  · simp [listed]
  · rw [if_neg listed]
    split <;> simp [listed]

theorem acceptedAs_sent {rejected : List (String × Option String)} {unknown : List String} {id : String} :
    acceptedAs rejected unknown id = .sent ↔ id ∉ rejected.map Prod.fst ∧ id ∉ unknown := by
  unfold acceptedAs
  by_cases listed : id ∈ rejected.map Prod.fst
  · simp [listed]
  · rw [if_neg listed]
    split <;> simp_all

structure Queued (R : Type) where
  ref : Ref
  record : R
  deriving DecidableEq, Repr

/-- A record taken off the queue; `none` is the state `in_flight`. -/
structure InFlight (R : Type) where
  ref : Ref
  record : R
  state : Option Terminal
  deriving DecidableEq, Repr

variable {R : Type}

def InFlight.live (item : InFlight R) : Bool := item.state.isNone

def itemRefs (items : List (InFlight R)) : List Ref := items.map InFlight.ref

/-- The references of the items whose state is still `in_flight`. -/
def liveRefs (items : List (InFlight R)) : List Ref := itemRefs (items.filter InFlight.live)

theorem liveRefs_sublist (items : List (InFlight R)) : (liveRefs items).Sublist (itemRefs items) :=
  List.filter_sublist.map _

/-- The in-flight items with one of them in a terminal state. -/
def marked (ref : Ref) (terminal : Terminal) (items : List (InFlight R)) : List (InFlight R) :=
  items.map fun item => if item.ref = ref then { item with state := some terminal } else item

theorem itemRefs_marked (ref : Ref) (terminal : Terminal) (items : List (InFlight R)) :
    itemRefs (marked ref terminal items) = itemRefs items := by
  simp only [itemRefs, marked, List.map_map]
  apply List.map_congr_left
  intro item _
  by_cases same : item.ref = ref <;> simp [same]

theorem liveRefs_cons (item : InFlight R) (items : List (InFlight R)) :
    liveRefs (item :: items) = (if item.live then [item.ref] else []) ++ liveRefs items := by
  cases live : item.live <;> simp [liveRefs, itemRefs, live]

/-- Marking one item takes its reference, and no other, out of the live ones. -/
theorem liveRefs_marked (ref : Ref) (terminal : Terminal) (items : List (InFlight R)) :
    liveRefs (marked ref terminal items) = (liveRefs items).filter (· ≠ ref) := by
  induction items with
  | nil => rfl
  | cons item rest ih =>
    change liveRefs ((if item.ref = ref then _ else item) :: marked ref terminal rest) = _
    rw [liveRefs_cons, liveRefs_cons, ih, List.filter_append]
    by_cases same : item.ref = ref
    · cases live : item.live <;> simp [same, InFlight.live]
    · cases live : item.live <;> simp [same, live]

theorem liveRefs_append (items more : List (InFlight R)) :
    liveRefs (items ++ more) = liveRefs items ++ liveRefs more := by
  simp [liveRefs, itemRefs]

theorem itemRefs_append (items more : List (InFlight R)) :
    itemRefs (items ++ more) = itemRefs items ++ itemRefs more :=
  List.map_append

theorem itemRefs_fresh (batch : List (Queued R)) :
    itemRefs (batch.map fun q => (⟨q.ref, q.record, none⟩ : InFlight R)) = batch.map Queued.ref := by
  simp [itemRefs, Function.comp_def]

theorem liveRefs_fresh (batch : List (Queued R)) :
    liveRefs (batch.map fun q => (⟨q.ref, q.record, none⟩ : InFlight R)) = batch.map Queued.ref := by
  induction batch with
  | nil => rfl
  | cons q rest ih =>
    rw [List.map_cons, liveRefs_cons, ih]
    rfl

/-- The item a reference names, if its state is still `in_flight`. -/
def findLive (items : List (InFlight R)) (ref : Ref) : Option (InFlight R) :=
  items.find? fun item => item.ref = ref && item.live

theorem mem_of_findLive {items : List (InFlight R)} {item : InFlight R} {ref : Ref}
    (found : findLive items ref = some item) : item ∈ items ∧ item.ref = ref ∧ ref ∈ liveRefs items := by
  have member := List.mem_of_find?_eq_some found
  have holds := List.find?_some found
  simp only [Bool.and_eq_true, decide_eq_true_eq] at holds
  refine ⟨member, holds.1, ?_⟩
  exact List.mem_map.mpr ⟨item, List.mem_filter.mpr ⟨member, holds.2⟩, holds.1⟩

theorem not_mem_of_findLive {items : List (InFlight R)} {ref : Ref} (absent : findLive items ref = none) :
    ref ∉ liveRefs items := by
  intro member
  obtain ⟨item, kept, same⟩ := List.mem_map.mp member
  obtain ⟨present, live⟩ := List.mem_filter.mp kept
  have not := List.find?_eq_none.mp absent item present
  simp [same, live] at not

theorem liveRefs_marked_erase {items : List (InFlight R)} (ref : Ref) (terminal : Terminal)
    (distinct : (itemRefs items).Nodup) : liveRefs (marked ref terminal items) = (liveRefs items).erase ref := by
  have single : (liveRefs items).Nodup := distinct.sublist (liveRefs_sublist _)
  rw [liveRefs_marked, single.erase_eq_filter]
  exact List.filter_congr fun other _ => by rw [bne, beq_eq_decide, decide_not]

/-- How many records ended in one terminal state. -/
def endedAs (terminal : Terminal) (settled : List (Ref × Terminal)) : Nat :=
  settled.countP fun entry => entry.2 = terminal

/-- Each of three counters is the number of records that ended in its terminal state. -/
structure Tallied (settled : List (Ref × Terminal)) (sent dropped unknown : Nat) : Prop where
  sent : sent = endedAs .sent settled
  dropped : dropped = endedAs .dropped settled
  unknown : unknown = endedAs .unknown settled

theorem Tallied.total {settled : List (Ref × Terminal)} {sent dropped unknown : Nat}
    (tallied : Tallied settled sent dropped unknown) : sent + dropped + unknown = settled.length := by
  obtain ⟨rfl, rfl, rfl⟩ := tallied
  simp only [endedAs]
  induction settled with
  | nil => rfl
  | cons entry rest ih =>
    obtain ⟨ref, terminal⟩ := entry
    cases terminal <;> simp <;> omega

/-- Counting one record keeps the three counters right. -/
theorem Tallied.count {settled : List (Ref × Terminal)} {sent dropped unknown : Nat}
    (tallied : Tallied settled sent dropped unknown) (ref : Ref) (terminal : Terminal) :
    Tallied (settled ++ [(ref, terminal)]) (if terminal = .sent then sent + 1 else sent)
      (if terminal = .dropped then dropped + 1 else dropped)
      (if terminal = .unknown then unknown + 1 else unknown) := by
  refine ⟨?_, ?_, ?_⟩
  · cases terminal <;> simp [endedAs, tallied.sent]
  · cases terminal <;> simp [endedAs, tallied.dropped]
  · cases terminal <;> simp [endedAs, tallied.unknown]

end Audr
