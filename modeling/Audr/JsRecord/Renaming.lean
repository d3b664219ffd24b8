import Audr.JsRecord.Built

/-! Values that differ only in the names beneath `labels`, and what the validator can see of the
difference. -/

namespace Audr.JsRecord

open Properties

/-- Where in a record a value stands. -/
inductive Place where
  | record
  | attribution
  | elsewhere
  deriving DecidableEq

/-- Where the member of a name stands. -/
def Place.enter (place : Place) (name : String) : Place :=
  if place = .record ∧ name = "attribution" then .attribution else .elsewhere

/-- A relation between a name and its new name. -/
abbrev NameRule := String → String → Prop

/-- Both names break the same rules for the names of labels. -/
def SameRules : NameRule := fun name renamed =>
  labelPattern name = labelPattern renamed ∧ (name.toList.length ≤ 64 ↔ renamed.toList.length ≤ 64)

def AnyName : NameRule := fun _ _ => True

/-- The rule for the names of the labels at a place: names are checked in `attribution` only. -/
def Place.rule (place : Place) (rule : NameRule) : NameRule := if place = .attribution then rule else AnyName

/-- A member of an object, and what has become of it. -/
structure Pair where
  name : String
  renamed : String
  value : Value
  other : Value

def Pair.before (pair : Pair) : String × Value := (pair.name, pair.value)

def Pair.after (pair : Pair) : String × Value := (pair.renamed, pair.other)

/-- Values with other names at every level; the rule is about the names of the value itself. The
members may come in another order, since their names decide it. -/
inductive Beneath : NameRule → Value → Value → Prop
  | refl (rule : NameRule) (value : Value) : Beneath rule value value
  | array (rule : NameRule) (items : List (Value × Value)) (each : ∀ item ∈ items, Beneath AnyName item.1 item.2) :
      Beneath rule (.array (items.map Prod.fst)) (.array (items.map Prod.snd))
  | object (rule : NameRule) (plain : Bool) (pairs : List Pair) {listed : List (String × Value)}
      (names : ∀ pair ∈ pairs, rule pair.name pair.renamed) (each : ∀ pair ∈ pairs, Beneath AnyName pair.value pair.other)
      (distinct : (pairs.map Pair.name).Nodup) (fresh : (pairs.map Pair.renamed).Nodup)
      (order : listed.Perm (pairs.map Pair.after)) :
      Beneath rule (.object plain (pairs.map Pair.before)) (.object plain listed)

/-- Values that are the same but for the names beneath `labels`. -/
inductive Renamed (rule : NameRule) : Place → Value → Value → Prop
  | refl (place : Place) (value : Value) : Renamed rule place value value
  | array (place : Place) (items : List (Value × Value)) (each : ∀ item ∈ items, Renamed rule .elsewhere item.1 item.2) :
      Renamed rule place (.array (items.map Prod.fst)) (.array (items.map Prod.snd))
  | object (place : Place) (plain : Bool) (members : List (String × (Value × Value)))
      (each : ∀ member ∈ members, member.1 ≠ "labels" → Renamed rule (place.enter member.1) member.2.1 member.2.2)
      (labels : ∀ member ∈ members, member.1 = "labels" → Beneath (place.rule rule) member.2.1 member.2.2) :
      Renamed rule place (.object plain (mapValues Prod.fst members)) (.object plain (mapValues Prod.snd members))

/-! What the schema sees. -/

/-- A name the schema admits for a label. -/
def labelName (name : String) : Bool := name.toList.length ≤ 64 && labelPattern name

/-- What is wrong with the value of a label. -/
def labelFault : Value → Option ErrorCode
  | .string text => if text.toList.length ≤ 256 then none else some .stringTooLong
  | _ => some .invalidType

/-- Labels with the same faults. -/
inductive SameLabels : Value → Value → Prop
  | refl (labels : Value) : SameLabels labels labels
  | array (a b : List Value) : SameLabels (.array a) (.array b)
  | object (p q : Bool) {a b : List (String × Value)} (length : a.length = b.length) (left : (a.map Prod.fst).Nodup)
      (right : (b.map Prod.fst).Nodup)
      (names : (∀ entry ∈ a, labelName entry.1 = true) ↔ ∀ entry ∈ b, labelName entry.1 = true)
      (faults : ∀ code, (∀ entry ∈ a, labelFault entry.2 ≠ some code) ↔ ∀ entry ∈ b, labelFault entry.2 ≠ some code) :
      SameLabels (.object p a) (.object q b)

/-- Values no schema tells apart: of what stands beneath `labels` only the faults of a record's
labels count. -/
inductive Veiled : Place → Value → Value → Prop
  | refl (place : Place) (value : Value) : Veiled place value value
  | array (place : Place) (a b : List Value) : Veiled place (.array a) (.array b)
  | object (place : Place) (p q : Bool) (members : List (String × (Value × Value)))
      (each : ∀ member ∈ members, member.1 ≠ "labels" → Veiled (place.enter member.1) member.2.1 member.2.2)
      (defined : ∀ member ∈ members, member.2.1.isDefined = member.2.2.isDefined)
      (labels : place = .attribution → ∀ member ∈ members, member.1 = "labels" → SameLabels member.2.1 member.2.2) :
      Veiled place (.object p (mapValues Prod.fst members)) (.object q (mapValues Prod.snd members))

variable {rule : NameRule} {place : Place} {x y : Value} {a b : List (String × Value)}

theorem Beneath.isDefined (beneath : Beneath rule x y) : x.isDefined = y.isDefined := by
  cases beneath <;> rfl

theorem Beneath.labelFault (beneath : Beneath rule x y) : labelFault x = labelFault y := by
  cases beneath <;> rfl

theorem labelName_congr {name renamed : String} (same : SameRules name renamed) : labelName name = labelName renamed := by
  rw [labelName, labelName, same.1, decide_eq_decide.mpr same.2]

/-- Labels keep their faults when they are renamed. -/
theorem Beneath.sameLabels (beneath : Beneath SameRules x y) : SameLabels x y := by
  cases beneath with
  | refl => exact .refl _
  | array => exact .array _ _
  | object _ plain pairs names each distinct fresh order =>
    apply SameLabels.object
    · rw [order.length_eq, List.length_map, List.length_map]
    · rwa [List.map_map]
    · rw [(order.map Prod.fst).nodup_iff, List.map_map]
      exact fresh
    · calc (∀ entry ∈ pairs.map Pair.before, labelName entry.1 = true)
          ↔ ∀ pair ∈ pairs, labelName pair.name = true := List.forall_mem_map
        _ ↔ ∀ pair ∈ pairs, labelName pair.renamed = true := by
          apply forall₂_congr
          intro pair member
          rw [labelName_congr (names pair member)]
        _ ↔ ∀ entry ∈ pairs.map Pair.after, labelName entry.1 = true := by
          rw [List.forall_mem_map]
          rfl
        _ ↔ _ := by simp only [order.mem_iff]
    · intro code
      calc (∀ entry ∈ pairs.map Pair.before, JsRecord.labelFault entry.2 ≠ some code)
          ↔ ∀ pair ∈ pairs, JsRecord.labelFault pair.value ≠ some code := List.forall_mem_map
        _ ↔ ∀ pair ∈ pairs, JsRecord.labelFault pair.other ≠ some code := by
          apply forall₂_congr
          intro pair member
          rw [(each pair member).labelFault]
        _ ↔ ∀ entry ∈ pairs.map Pair.after, JsRecord.labelFault entry.2 ≠ some code := by
          rw [List.forall_mem_map]
          rfl
        _ ↔ _ := by simp only [order.mem_iff]

theorem Veiled.isDefined (veiled : Veiled place x y) : x.isDefined = y.isDefined := by
  cases veiled <;> rfl

theorem Renamed.isDefined (renamed : Renamed rule place x y) : x.isDefined = y.isDefined := by
  cases renamed <;> rfl

/-- No schema tells renamed values apart. -/
theorem Renamed.veiled (renamed : Renamed SameRules place x y) : Veiled place x y := by
  induction renamed with
  | refl place value => exact .refl place value
  | array place items => exact .array place _ _
  | object place plain members each labels ih =>
    apply Veiled.object place plain plain members ih
    · intro member listed
      by_cases named : member.1 = "labels"
      · exact (labels member listed named).isDefined
      · exact (each member listed named).isDefined
    · intro inside member listed named
      have beneath := labels member listed named
      rw [Place.rule, if_pos inside] at beneath
      exact beneath.sameLabels

/-! `asJson` keeps what is seen. -/

theorem labelFault_asJson (key : Option String) (value : Value) : labelFault (asJson key value) = labelFault value := by
  cases value <;> rfl

theorem asJson_labels (distinct : (a.map Prod.fst).Nodup) :
    (fromEntries (asJsonMembers true a)).Perm (a.map fun entry => (entry.1, asJson (some entry.1) entry.2)) := by
  apply (fromEntries_perm (asJsonMembers_nodup distinct)).trans
  rw [asJsonMembers_eq, List.filter_eq_self.mpr fun entry _ => Bool.true_or _]

theorem SameLabels.asJson (same : SameLabels x y) :
    SameLabels (asJson (some "labels") x) (asJson (some "labels") y) := by
  cases same with
  | refl => exact .refl _
  | array => exact .array _ _
  | @object p q a b same left right names faults =>
    have spread : ∀ {list : List (String × Value)} (property : String × Value → Prop), (list.map Prod.fst).Nodup →
        ((∀ entry ∈ fromEntries (asJsonMembers true list), property entry) ↔
          ∀ entry ∈ list, property (entry.1, JsRecord.asJson (some entry.1) entry.2)) := by
      intro list property distinct
      simp only [(asJson_labels distinct).mem_iff]
      exact List.forall_mem_map
    have named := fun {list : List (String × Value)} => @spread list fun entry => labelName entry.1 = true
    have faulty : ∀ {list : List (String × Value)} (code : ErrorCode), (list.map Prod.fst).Nodup →
        ((∀ entry ∈ fromEntries (asJsonMembers true list), labelFault entry.2 ≠ some code) ↔
          ∀ entry ∈ list, labelFault entry.2 ≠ some code) := by
      intro list code distinct
      have found := spread (fun entry => labelFault entry.2 ≠ some code) distinct
      simpa only [labelFault_asJson] using found
    have length : ∀ {list : List (String × Value)}, (list.map Prod.fst).Nodup →
        (fromEntries (asJsonMembers true list)).length = list.length := by
      intro list distinct
      rw [(asJson_labels distinct).length_eq, List.length_map]
    apply SameLabels.object true true
    · exact (length left).trans (same.trans (length right).symm)
    · exact asJson_names left
    · exact asJson_names right
    · exact (named left).trans (names.trans (named right).symm)
    · intro code
      exact (faulty code left).trans ((faults code).trans (faulty code right).symm)

/-- The two sides of pairs of members, as `asJson` sees them. -/
theorem asJsonMembers_pairs {all : Bool} {side : Value × Value → Value} {members : List (String × (Value × Value))}
    (defined : ∀ member ∈ members, (side member.2).isDefined = member.2.1.isDefined) :
    asJsonMembers all (mapValues side members) =
      (members.filter fun member => all || member.2.1.isDefined).map fun member =>
        (member.1, asJson (some member.1) (side member.2)) := by
  rw [asJsonMembers_eq, mapValues, List.filter_map, List.map_map]
  have same : (members.filter fun member => all || (side member.2).isDefined) =
      members.filter fun member => all || member.2.1.isDefined := by
    apply List.filter_congr
    intro member listed
    rw [defined member listed]
  exact congrArg _ same

theorem Veiled.asJson (veiled : Veiled place x y) : ∀ key, Veiled place (asJson key x) (asJson key y) := by
  induction veiled with
  | refl place value => exact fun key => .refl place _
  | array place a b => exact fun key => .array place a b
  | object place p q members each defined labels ih =>
    intro key
    let seen (member : String × (Value × Value)) : String × (Value × Value) :=
      (member.1, (JsRecord.asJson (some member.1) member.2.1, JsRecord.asJson (some member.1) member.2.2))
    let kept := (members.filter fun member => decide (key = some "labels") || member.2.1.isDefined).map seen
    have source : ∀ member ∈ fromEntries kept, ∃ origin ∈ members, member = seen origin := by
      intro member listed
      obtain ⟨origin, held, rfl⟩ := List.mem_map.mp (mem_fromEntries listed)
      exact ⟨origin, (List.mem_filter.mp held).1, rfl⟩
    have left : JsRecord.asJson key (.object p (mapValues Prod.fst members)) =
        .object true (mapValues Prod.fst (fromEntries kept)) := by
      rw [JsRecord.asJson, asJsonMembers_pairs fun _ _ => rfl, ← fromEntries_mapValues, mapValues, List.map_map]
      rfl
    have right : JsRecord.asJson key (.object q (mapValues Prod.snd members)) =
        .object true (mapValues Prod.snd (fromEntries kept)) := by
      rw [JsRecord.asJson, asJsonMembers_pairs fun member listed => (defined member listed).symm,
        ← fromEntries_mapValues, mapValues, List.map_map]
      rfl
    rw [left, right]
    apply Veiled.object
    · intro member listed named
      obtain ⟨origin, held, rfl⟩ := source member listed
      exact ih origin held named _
    · intro member listed
      obtain ⟨origin, held, rfl⟩ := source member listed
      rw [asJson_isDefined, asJson_isDefined]
      exact defined origin held
    · intro inside member listed named
      obtain ⟨origin, held, rfl⟩ := source member listed
      have named : origin.1 = "labels" := named
      have same := (labels inside origin held named).asJson
      rw [← named] at same
      exact same

/-! `structuredClone` renames what its input renames. -/

theorem cloneableItems_eq (items : List Value) : cloneableItems items = items.all cloneable := by
  induction items with
  | nil => rfl
  | cons item rest ih => rw [cloneableItems, ih, List.all_cons]

theorem all_congr {A : Type} {items : List A} {p q : A → Bool} (same : ∀ item ∈ items, p item = q item) :
    items.all p = items.all q := by
  rw [Bool.eq_iff_iff, List.all_eq_true, List.all_eq_true]
  exact forall₂_congr fun item member => by rw [same item member]

theorem Beneath.cloneable (beneath : Beneath rule x y) : cloneable x = cloneable y := by
  induction beneath with
  | refl => rfl
  | array rule items each ih =>
    rw [JsRecord.cloneable, JsRecord.cloneable, cloneableItems_eq, cloneableItems_eq, List.all_map, List.all_map]
    exact all_congr ih
  | object rule plain pairs names each distinct fresh order ih =>
    rw [JsRecord.cloneable, JsRecord.cloneable, cloneableMembers_eq, cloneableMembers_eq, order.all_eq, List.all_map,
      List.all_map]
    exact all_congr ih

theorem Renamed.cloneable (renamed : Renamed rule place x y) : cloneable x = cloneable y := by
  induction renamed with
  | refl => rfl
  | array place items each ih =>
    rw [JsRecord.cloneable, JsRecord.cloneable, cloneableItems_eq, cloneableItems_eq, List.all_map, List.all_map]
    exact all_congr ih
  | object place plain members each labels ih =>
    rw [JsRecord.cloneable, JsRecord.cloneable, cloneableMembers_eq, cloneableMembers_eq, mapValues, mapValues,
      List.all_map, List.all_map]
    apply all_congr
    intro member listed
    by_cases named : member.1 = "labels"
    · exact (labels member listed named).cloneable
    · exact ih member listed named

theorem clone_isDefined (value : Value) : (clone value).isDefined = value.isDefined := by
  cases value <;> rfl

theorem labelFault_clone (value : Value) : labelFault (clone value) = labelFault value := by
  cases value <;> rfl

theorem SameLabels.clone (same : SameLabels x y) : SameLabels (clone x) (clone y) := by
  cases same with
  | refl => exact .refl _
  | array => exact .array _ _
  | object p q same left right names faults =>
    rw [JsRecord.clone, JsRecord.clone, cloneMembers_eq, cloneMembers_eq]
    apply SameLabels.object true true
    · rw [mapValues, mapValues, List.length_map, List.length_map, same]
    · rwa [map_fst_mapValues]
    · rwa [map_fst_mapValues]
    · rw [mapValues, mapValues, List.forall_mem_map, List.forall_mem_map]
      exact names
    · intro code
      rw [mapValues, mapValues, List.forall_mem_map, List.forall_mem_map]
      simpa only [labelFault_clone] using faults code

theorem Veiled.clone (veiled : Veiled place x y) : Veiled place (clone x) (clone y) := by
  induction veiled with
  | refl place value => exact .refl place _
  | array place a b => exact .array place _ _
  | object place p q members each defined labels ih =>
    let copied (pair : Value × Value) : Value × Value := (JsRecord.clone pair.1, JsRecord.clone pair.2)
    have source : ∀ member ∈ mapValues copied members, ∃ origin ∈ members, member = (origin.1, copied origin.2) :=
      fun member => mem_mapValues.mp
    have sides : JsRecord.clone (.object p (mapValues Prod.fst members)) =
          .object true (mapValues Prod.fst (mapValues copied members)) ∧
        JsRecord.clone (.object q (mapValues Prod.snd members)) =
          .object true (mapValues Prod.snd (mapValues copied members)) := by
      simp only [JsRecord.clone, cloneMembers_eq, mapValues_mapValues, copied, and_self]
    rw [sides.1, sides.2]
    apply Veiled.object
    · intro member listed named
      obtain ⟨origin, held, rfl⟩ := source member listed
      exact ih origin held named
    · intro member listed
      obtain ⟨origin, held, rfl⟩ := source member listed
      exact (clone_isDefined _).trans ((defined origin held).trans (clone_isDefined _).symm)
    · intro inside member listed named
      obtain ⟨origin, held, rfl⟩ := source member listed
      exact (labels inside origin held named).clone

end Audr.JsRecord
