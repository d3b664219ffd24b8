import Audr.JsRecord.Encoding
import Audr.Lib.Rounding
import Audr.Record.Encode

/-! What `JSON.parse` makes of the text of a record written in Python. -/

namespace Audr.Record

open Fields (present)
open JsRecord (Text parse finiteValue)
open JsRecord.Value (DeepEqual)
open Properties (mapValues fromEntries fromEntries_perm)

variable {library : Library} {numerals : Numerals}

/-- The double a Python number is read back as. -/
def jsNumber : Python.Number → Double
  | .int n => (Literal.int (decide (n < 0)) n.natAbs).double
  | .float value => value

mutual

/-- A dumped value as JavaScript reads it. -/
def view (library : Library) : Dump → JsRecord.Value
  | .number number => .number (jsNumber number)
  | .datetime moment => .string (clockText library moment.utc.toNat)
  | .text text => .string text
  | .dict members => .object true (viewMembers library members)

def viewMembers (library : Library) : List (String × Dump) → List (String × JsRecord.Value)
  | [] => []
  | (name, value) :: rest => (name, view library value) :: viewMembers library rest

end

theorem viewMembers_eq (members : List (String × Dump)) : viewMembers library members = mapValues (view library) members := by
  induction members with
  | nil => rfl
  | cons entry rest ih =>
    obtain ⟨name, value⟩ := entry
    rw [viewMembers, ih]
    rfl

/-- A number of a record: not below zero, and a double where it is a finite `float`. -/
def Sensible : Python.Number → Prop
  | .int n => 0 ≤ n
  | .float value => ∀ q, value = .finite q → 0 ≤ q ∧ Double.Representable q

/-- Each name once, and sensible numbers. -/
inductive Dump.Formed : Dump → Prop
  | number {number : Python.Number} (sensible : Sensible number) : Formed (.number number)
  | datetime (moment : Moment) : Formed (.datetime moment)
  | text (text : String) : Formed (.text text)
  | dict {members : List (String × Dump)} (distinct : (members.map Prod.fst).Nodup)
      (each : ∀ entry ∈ members, Formed entry.2) : Formed (.dict members)

/-- JavaScript data that is made of strings, numbers and plain objects. -/
inductive Solid : JsRecord.Value → Prop
  | string (text : String) : Solid (.string text)
  | number {number : Double} (formed : (JsRecord.Value.number number).WellFormed) : Solid (.number number)
  | object {members : List (String × JsRecord.Value)} (distinct : (members.map Prod.fst).Nodup)
      (each : ∀ entry ∈ members, Solid entry.2) : Solid (.object true members)

namespace Solid

variable {value : JsRecord.Value}

theorem wellFormed (solid : Solid value) : value.WellFormed := by
  induction solid with
  | string text => exact .string text
  | number formed => exact formed
  | object distinct _ ih => exact .object distinct ih

theorem isDefined (solid : Solid value) : value.isDefined = true := by
  cases solid <;> rfl

theorem clone (solid : Solid value) : JsRecord.cloneable value = true ∧ JsRecord.clone value = value := by
  induction solid with
  | string text => exact ⟨rfl, rfl⟩
  | number formed => exact ⟨rfl, rfl⟩
  | object distinct each ih =>
    rename_i members
    constructor
    · rw [JsRecord.cloneable, JsRecord.cloneableMembers_eq]
      exact List.all_eq_true.mpr fun entry member => (ih entry member).1
    · rw [JsRecord.clone, JsRecord.cloneMembers_eq, mapValues]
      congr 1
      calc members.map (fun entry => (entry.1, JsRecord.clone entry.2)) = members.map id :=
            List.map_congr_left fun entry member => Prod.ext rfl (ih entry member).2
        _ = members := List.map_id members

end Solid

/-! Numbers. -/

/-- A number is read back as it was written. -/
theorem writeNumber_double {number : Python.Number} {literal : Literal} (sensible : Sensible number)
    (written : writeNumber numerals number = .ok literal) : literal.double = jsNumber number := by
  cases number with
  | int n =>
    rw [writeNumber] at written
    split at written
    next =>
      cases written
      rfl
    next => cases written
  | float value =>
    cases value with
    | finite q =>
      cases written
      obtain ⟨nonneg, representable⟩ := sensible q rfl
      exact pyLiteral_double nonneg representable
    | negativeZero =>
      cases written
      have zero : Double.ofRat 0 = .finite 0 := Double.representable_zero
      simp [Literal.double, Literal.value, Literal.negative, Literal.magnitude, zero, jsNumber]
    | _ => cases written

/-! Members. -/

theorem cleanMembers_eq (members : List (String × Dump)) :
    cleanMembers library members = JsRecord.sequence (mapValues (clean library) members) := by
  induction members with
  | nil => rfl
  | cons entry rest ih =>
    obtain ⟨name, value⟩ := entry
    rw [cleanMembers, ih]
    rfl

theorem writeMembers_eq (members : List (String × Python.Value)) :
    writeMembers numerals members = JsRecord.sequence (mapValues (write numerals) members) := by
  induction members with
  | nil => rfl
  | cons entry rest ih =>
    obtain ⟨name, value⟩ := entry
    rw [writeMembers, ih]
    rfl

theorem map_eq_ok {E A B : Type} {f : A → B} {result : Except E A} {value : B} :
    result.map f = .ok value ↔ ∃ x, result = .ok x ∧ f x = value := by
  cases result <;> simp [Except.map]

/-- A sequence succeeds where each of its members does. -/
theorem sequence_eq_ok {E A B : Type} {f : A → Except E B} {entries : List (String × A)} {values : List (String × B)} :
    JsRecord.sequence (mapValues f entries) = .ok values ↔
      List.Forall₂ (fun entry value => entry.1 = value.1 ∧ f entry.2 = .ok value.2) entries values := by
  induction entries generalizing values with
  | nil =>
    cases values with
    | nil => simp [mapValues, JsRecord.sequence]
    | cons value rest => simp [mapValues, JsRecord.sequence]
  | cons entry rest ih =>
    rw [Properties.mapValues_cons, JsRecord.sequence]
    cases first : f entry.2 with
    | error problem => cases values <;> simp [bind, Except.bind, first]
    | ok value =>
      cases others : JsRecord.sequence (mapValues f rest) with
      | error problem =>
        cases values with
        | nil => simp [bind, Except.bind]
        | cons head tail =>
          have failed := (@ih tail).not.mp (by simp [others])
          simp [bind, Except.bind, failed]
      | ok found =>
        cases values with
        | nil => simp [bind, Except.bind, pure, Except.pure]
        | cons head tail =>
          have same := @ih tail
          rw [others, Except.ok.injEq] at same
          simp only [bind, Except.bind, pure, Except.pure, Except.ok.injEq, List.cons.injEq, List.forall₂_cons, first, same]
          rw [Prod.ext_iff]

theorem sortPoints_perm {V : Type} (entries : List (String × V)) : (sortPoints entries).Perm entries :=
  List.perm_insertionSort pointsBefore entries

theorem names_of_forall₂ {A B : Type} {relation : A → B → Prop} {entries : List (String × A)} {values : List (String × B)}
    (each : List.Forall₂ (fun entry value => entry.1 = value.1 ∧ relation entry.2 value.2) entries values) :
    entries.map Prod.fst = values.map Prod.fst := by
  induction each with
  | nil => rfl
  | cons pair _ ih => rw [List.map_cons, List.map_cons, pair.1, ih]

/-- Related lists hold related values under each name. -/
theorem related_of_mem {A B : Type} {relation : A → B → Prop} {entries : List (String × A)} {values : List (String × B)}
    (each : List.Forall₂ (fun entry value => entry.1 = value.1 ∧ relation entry.2 value.2) entries values)
    {name : String} {value : B} (member : (name, value) ∈ values) : ∃ source, (name, source) ∈ entries ∧ relation source value := by
  induction each with
  | nil => cases member
  | cons pair rest ih =>
    rename_i entry found entries values
    rcases List.mem_cons.mp member with rfl | later
    · obtain ⟨key, held⟩ := entry
      obtain ⟨rfl, related⟩ := pair
      exact ⟨held, List.mem_cons_self, related⟩
    · obtain ⟨source, listed, related⟩ := ih later
      exact ⟨source, List.mem_cons_of_mem _ listed, related⟩

/-! Texts. -/

end Audr.Record
