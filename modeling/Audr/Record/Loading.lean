import Audr.Record.Blocks
import Audr.Record.Decode

/-! What `json.loads` makes of the text of a record written in Python. -/

namespace Audr.Record

open Fields (present)
open JsRecord (Text)
open Properties (mapValues assign)

variable {library : Library} {numerals : Numerals}

/-- A value that has all that was dumped, up to the order of members, with datetimes as texts. -/
inductive Loaded (library : Library) : Dump → Python.Value → Prop
  | number (number : Python.Number) : Loaded library (.number number) (.num number)
  | datetime {moment : Moment} (inside : 0 ≤ moment.utc ∧ moment.utc < momentsEnd) :
      Loaded library (.datetime moment) (.str (clockText library moment.utc.toNat))
  | text (text : String) : Loaded library (.text text) (.str text)
  | dict {members : List (String × Dump)} {values : List (String × Python.Value)}
      (names : (values.map Prod.fst).Perm (members.map Prod.fst)) (distinct : (members.map Prod.fst).Nodup)
      (each : ∀ {name dump value}, (name, dump) ∈ members → (name, value) ∈ values → Loaded library dump value) :
      Loaded library (.dict members) (.obj values)

theorem loadsMembers_eq (members : List (String × Text)) : loadsMembers members = JsRecord.sequence (mapValues loads members) := by
  induction members with
  | nil => rfl
  | cons entry rest ih =>
    obtain ⟨name, value⟩ := entry
    rw [loadsMembers, ih]
    rfl

/-- A sequence of successes succeeds. -/
theorem sequence_some {E A B : Type} {f : A → Except E B} {entries : List (String × A)}
    (each : ∀ entry ∈ entries, ∃ value, f entry.2 = .ok value) : ∃ values, JsRecord.sequence (mapValues f entries) = .ok values := by
  induction entries with
  | nil => exact ⟨[], rfl⟩
  | cons entry rest ih =>
    obtain ⟨value, first⟩ := each entry List.mem_cons_self
    obtain ⟨values, others⟩ := ih fun entry member => each entry (List.mem_cons_of_mem _ member)
    apply Exists.intro ((entry.1, value) :: values)
    rw [Properties.mapValues_cons, JsRecord.sequence, first, others]
    rfl

/-- A number is read back as it was. -/
theorem readNumber_written {number : Python.Number} {literal : Literal} (sensible : Sensible number)
    (written : writeNumber numerals number = .ok literal) : readNumber literal = .ok number := by
  cases number with
  | int n =>
    rw [writeNumber] at written
    split at written
    next small =>
      cases written
      have nonneg : 0 ≤ n := sensible
      have sign : decide (n < 0) = false := by simpa using nonneg
      have value : (n.natAbs : Int) = n := Int.natAbs_of_nonneg nonneg
      rw [readNumber, if_pos small, sign, if_neg Bool.false_ne_true, value]
    next => cases written
  | float value =>
    have double := writeNumber_double sensible written
    cases value with
    | finite q =>
      cases written
      exact congrArg (fun double => Except.ok (Python.Number.float double)) double
    | negativeZero =>
      cases written
      exact congrArg (fun double => Except.ok (Python.Number.float double)) double
    | _ => cases written

/-- What was written is loaded again. -/
theorem loads_written {dump : Dump} (formed : dump.Formed) : ∀ {plain : Python.Value} {text : Text},
    clean library dump = .ok plain → write numerals plain = .ok text →
      ∃ value, loads text = .ok value ∧ Loaded library dump value := by
  induction formed with
  | number sensible =>
    rename_i number
    intro plain text cleaned written
    have kept : plain = .num number := by
      cases number with
      | int n =>
        cases cleaned
        rfl
      | float value =>
        unfold clean at cleaned
        split at cleaned
        next =>
          cases cleaned
          rfl
        next => cases cleaned
    subst kept
    obtain ⟨literal, one, rfl⟩ := map_eq_ok.mp written
    rw [loads, readNumber_written sensible one]
    exact ⟨.num number, rfl, .number number⟩
  | datetime moment =>
    intro plain text cleaned written
    obtain ⟨shown, one, rfl⟩ := map_eq_ok.mp cleaned
    unfold toRfc3339Ms at one
    split at one
    next inside =>
      cases one
      cases written
      exact ⟨_, rfl, .datetime inside⟩
    next => cases one
  | text text =>
    intro plain text cleaned written
    cases cleaned
    cases written
    exact ⟨_, rfl, .text _⟩
  | dict distinct each ih =>
    rename_i members
    intro plain text cleaned written
    obtain ⟨values, each', rfl⟩ := map_eq_ok.mp cleaned
    obtain ⟨texts, each'', rfl⟩ := map_eq_ok.mp written
    rw [cleanMembers_eq, sequence_eq_ok] at each'
    rw [writeMembers_eq, sequence_eq_ok] at each''
    let Cleaned (source : Dump) (value : Python.Value) : Prop := clean library source = .ok value
    let Written (value : Python.Value) (text : Text) : Prop := write numerals value = .ok text
    have names : members.map Prod.fst = texts.map Prod.fst :=
      (@names_of_forall₂ _ _ Cleaned _ _ each').trans (@names_of_forall₂ _ _ Written _ _ each'')
    have sorted := sortPoints_perm texts
    have loaded : ∀ {name text}, (name, text) ∈ sortPoints texts →
        ∃ source, (name, source) ∈ members ∧ ∃ value, loads text = .ok value ∧ Loaded library source value := by
      intro name text member
      obtain ⟨middle, kept, one⟩ := @related_of_mem _ _ Written _ _ each'' _ _ (sorted.mem_iff.mp member)
      obtain ⟨source, first, two⟩ := @related_of_mem _ _ Cleaned _ _ each' _ _ kept
      exact ⟨source, first, ih _ first two one⟩
    have all : ∃ found, JsRecord.sequence (mapValues loads (sortPoints texts)) = .ok found := by
      apply sequence_some
      intro entry member
      obtain ⟨-, -, value, one, -⟩ := loaded member
      exact ⟨value, one⟩
    obtain ⟨found, all⟩ := all
    let Read (text : Text) (value : Python.Value) : Prop := loads text = .ok value
    have pairs : List.Forall₂ (fun entry value => entry.1 = value.1 ∧ Read entry.2 value.2) (sortPoints texts) found :=
      sequence_eq_ok.mp all
    have listed : (found.map Prod.fst).Perm (members.map Prod.fst) := by
      rw [← names_of_forall₂ pairs, names]
      exact sorted.map Prod.fst
    have once : found.foldl (fun object entry => assign object entry.1 entry.2) [] = found :=
      Properties.foldl_assign [] (listed.nodup_iff.mpr distinct)
    apply Exists.intro (.obj found)
    constructor
    · rw [loads, loadsMembers_eq, all]
      exact congrArg (fun found => Except.ok (Json.obj found)) once
    · apply Loaded.dict listed distinct
      intro name dump value first second
      obtain ⟨text, member, read⟩ := related_of_mem pairs second
      obtain ⟨source, inside, other, one, same⟩ := loaded member
      have value' : other = value := Except.ok.inj (one.symm.trans read)
      have dump' := List.inj_on_of_nodup_map distinct inside first rfl
      rw [← value', ← (Prod.mk.inj dump').2]
      exact same

/-! The fields of a block that was loaded. -/

variable {fields : List (String × Option Dump)} {extra : List (String × Python.Number)} {value : Python.Value}
  {values : List (String × Python.Value)}

/-- What a mapping has of the fields and the extras of a block. -/
structure Holds (library : Library) (fields : List (String × Option Dump)) (extra : List (String × Python.Number))
    (values : List (String × Python.Value)) : Prop where
  distinct : (values.map Prod.fst).Nodup
  field : ∀ field ∈ fields, Option.Rel (Loaded library) field.2 (Json.get? field.1 values)
  only : ∀ entry ∈ values, entry.1 ∈ fields.map Prod.fst ∨ entry.1 ∈ extra.map Prod.fst
  added : ∀ entry ∈ extra, (entry.1, .num entry.2) ∈ values

theorem get?_of_notMem {name : String} (absent : name ∉ values.map Prod.fst) : Json.get? name values = none := by
  rw [Json.get?, List.find?_eq_none.mpr]
  · rfl
  · intro entry member same
    apply absent
    have same : entry.1 = name := by simpa using same
    rw [← same]
    exact List.mem_map_of_mem member

theorem dict_holds {members : List (String × Dump)} (loaded : Loaded library (.dict members) value) :
    ∃ values, value = .obj values ∧ (values.map Prod.fst).Perm (members.map Prod.fst) ∧ (values.map Prod.fst).Nodup ∧
      ∀ {name dump}, (name, dump) ∈ members → ∃ value, (name, value) ∈ values ∧ Loaded library dump value := by
  cases loaded with
  | dict names distinct each =>
    rename_i values
    apply Exists.intro values
    refine ⟨rfl, names, names.nodup_iff.mpr distinct, ?_⟩
    intro name dump member
    have listed : name ∈ values.map Prod.fst := names.mem_iff.mpr (List.mem_map_of_mem member)
    obtain ⟨⟨_, value⟩, inside, rfl⟩ := List.mem_map.mp listed
    exact ⟨value, inside, each member inside⟩

theorem block_holds (separate : Separate fields extra) (loaded : Loaded library (.block fields extra) value) :
    ∃ values, value = .obj values ∧ Holds library fields extra values := by
  obtain ⟨values, rfl, names, distinct, each⟩ := dict_holds loaded
  have among : ∀ {name}, name ∈ values.map Prod.fst ↔
      name ∈ (present fields).map Prod.fst ∨ name ∈ extra.map Prod.fst := by
    intro name
    rw [names.mem_iff, List.map_append, List.mem_append, List.map_map]
    rfl
  refine ⟨values, rfl, distinct, ?_, ?_, ?_⟩
  · intro field member
    obtain ⟨name, held⟩ := field
    cases held with
    | some dump =>
      obtain ⟨value, inside, same⟩ := each (List.mem_append_left _ (Fields.mem_present.mpr member))
      rw [(Json.get?_eq_some distinct).mpr inside]
      exact .some same
    | none =>
      have absent : name ∉ values.map Prod.fst := by
        rw [among, Fields.mem_names]
        intro found
        rcases found with ⟨dump, inside⟩ | outside
        · have same := List.inj_on_of_nodup_map separate.named member inside rfl
          cases same
        · obtain ⟨entry, other, rfl⟩ := List.mem_map.mp outside
          exact separate.apart entry other (List.mem_map.mpr ⟨_, member, rfl⟩)
      rw [get?_of_notMem absent]
      exact .none
  · intro entry member
    exact (among.mp (List.mem_map_of_mem member)).imp_left fun inside => (Fields.names_sublist fields).mem inside
  · intro entry member
    obtain ⟨value, inside, same⟩ := each (List.mem_append_right _ (List.mem_map.mpr ⟨entry, member, rfl⟩))
    cases same
    exact inside

end Audr.Record
