import Audr.JsRecord.Conformance
import Audr.Record.View

/-! What the schema finds in the view of a block that was dumped in Python. -/

namespace Audr.Record

open Fields (present)
open JsRecord (Rule objectRule textRule enumRule amountRule integerRule finiteValue extensionPattern)
open Properties (mapValues)
open Vocabulary (word words)

variable {library : Library} {fields : List (String × Option Dump)} {extra : List (String × Python.Number)}
  {rules : List (String × Rule)} {name : String} {dump : Dump}

/-! Fields of a block. -/

theorem view_isDefined (dump : Dump) : (view library dump).isDefined = true := by
  cases dump <;> rfl

/-- A field as JavaScript reads it. -/
def shown (library : Library) (held : Option Dump) : JsRecord.Value := (held.map (view library)).getD .undefined

@[simp] theorem shown_some : shown library (some dump) = view library dump := rfl

@[simp] theorem shown_none : shown library none = .undefined := rfl

@[simp] theorem shown_isDefined (held : Option Dump) : (shown library held).isDefined = held.isSome := by
  cases held with
  | none => rfl
  | some dump => exact view_isDefined dump

/-- The members of the view of a block. -/
def blockMembers (library : Library) (fields : List (String × Option Dump)) (extra : List (String × Python.Number)) :
    List (String × JsRecord.Value) :=
  mapValues (view library) (present fields) ++ extra.map fun entry => (entry.1, .number (jsNumber entry.2))

theorem view_block : view library (.block fields extra) = .object true (blockMembers library fields extra) := by
  rw [Dump.block, view, viewMembers_eq, blockMembers, mapValues, List.map_append, List.map_map]
  rfl

theorem blockMembers_names : (blockMembers library fields extra).map Prod.fst =
    (present fields).map Prod.fst ++ extra.map Prod.fst := by
  rw [blockMembers, List.map_append, Properties.map_fst_mapValues, List.map_map]
  rfl

/-- Fields and extras of distinct names. -/
structure Separate (fields : List (String × Option Dump)) (extra : List (String × Python.Number)) : Prop where
  named : (fields.map Prod.fst).Nodup
  added : (extra.map Prod.fst).Nodup
  apart : ∀ entry ∈ extra, entry.1 ∉ fields.map Prod.fst

theorem separate_nil (distinct : (fields.map Prod.fst).Nodup) : Separate fields [] :=
  ⟨distinct, List.nodup_nil, by simp⟩

theorem Separate.nodup (separate : Separate fields extra) :
    ((present fields).map Prod.fst ++ extra.map Prod.fst).Nodup := by
  apply List.nodup_append.mpr
  refine ⟨Fields.present_nodup separate.named, separate.added, ?_⟩
  intro first inside second listed same
  obtain ⟨entry, member, rfl⟩ := List.mem_map.mp listed
  exact separate.apart entry member (same ▸ (Fields.names_sublist fields).mem inside)

theorem Separate.members (separate : Separate fields extra) :
    ((blockMembers library fields extra).map Prod.fst).Nodup := by
  rw [blockMembers_names]
  exact separate.nodup

theorem field_block {held : Option Dump} (separate : Separate fields extra) (listed : (name, held) ∈ fields) :
    JsRecord.Value.field name (blockMembers library fields extra) = shown library held := by
  cases held with
  | some dump =>
    apply JsRecord.field_of_mem separate.members
    rw [blockMembers, List.mem_append]
    exact .inl (Properties.mem_mapValues.mpr ⟨(name, dump), Fields.mem_present.mpr listed, rfl⟩)
  | none =>
    apply JsRecord.field_of_notMem
    rw [blockMembers_names, List.mem_append, Fields.mem_names]
    intro found
    rcases found with ⟨dump, inside⟩ | outside
    · have same := List.inj_on_of_nodup_map separate.named listed inside rfl
      cases same
    · obtain ⟨entry, member, rfl⟩ := List.mem_map.mp outside
      exact separate.apart entry member (List.mem_map.mpr ⟨_, listed, rfl⟩)

/-- The value a path leads to. -/
theorem valueAt_block {held : Option Dump} {rest : List String} (separate : Separate fields extra)
    (listed : (name, held) ∈ fields) :
    JsRecord.valueAt (view library (.block fields extra)) (name :: rest) = JsRecord.valueAt (shown library held) rest := by
  rw [view_block, JsRecord.valueAt, field_block separate listed]

end Audr.Record
