import Audr.Chargebee.Flatten
import Audr.PyChargebee.Sink
import Audr.Record.Mirror

/-! `flatten_audr`: the plain JSON types of a record, flattened. -/

namespace Audr.PyChargebee

open Chargebee JsRecord
open Properties (mapValues)
open Record (AUDR Dump view viewMembers jsNumber toPlain Cleans Placed timeTexts)

mutual

/-- Plain JSON types as flattening reads them; a number is the double it equals. -/
def data : Python.Value → Value
  | .null => .null
  | .bool value => .bool value
  | .num number => .number (jsNumber number)
  | .str text => .string text
  | .arr items => .array (dataItems items)
  | .obj members => .object true (dataMembers members)

def dataItems : List Python.Value → List Value
  | [] => []
  | item :: rest => data item :: dataItems rest

def dataMembers : List (String × Python.Value) → List (String × Value)
  | [] => []
  | (name, value) :: rest => (name, data value) :: dataMembers rest

end

/-- `flatten_audr`. -/
def flattenAudr (library : Record.Library) (dumps : Value → Option String) (separator : String) (record : AUDR) :
    Except Refusal Output :=
  match toPlain library record with
  | .error exception => .error (.raised exception)
  | .ok plain => (flatten dumps separator (data plain)).mapError .invalid

variable {library : Record.Library} {dumps : Value → Option String} {separator : String}

/-- What is cleaned is read as its view. -/
theorem data_clean {reads : Record.Moment → String → Prop} {dump : Dump} {value : Value}
    (mirrors : Record.Mirrors reads dump value) :
    ∀ {plain : Python.Value}, Record.clean library dump = .ok plain → data plain = view library dump := by
  induction mirrors with
  | number equals =>
    rename_i number double
    intro plain cleaned
    cases number with
    | int n =>
      cases cleaned
      rfl
    | float value =>
      unfold Record.clean at cleaned
      rw [if_pos equals.2] at cleaned
      cases cleaned
      rfl
  | datetime read =>
    intro plain cleaned
    obtain ⟨text, written, rfl⟩ := Record.map_eq_ok.mp cleaned
    unfold Record.toRfc3339Ms at written
    split at written
    next =>
      cases written
      rfl
    next => cases written
  | text text =>
    intro plain cleaned
    cases cleaned
    rfl
  | dict distinct names each ih =>
    rename_i members _ _
    intro plain cleaned
    obtain ⟨values, cleans, rfl⟩ := Record.map_eq_ok.mp cleaned
    have all : ∀ entry ∈ members, ∀ {plain : Python.Value}, Record.clean library entry.2 = .ok plain →
        data plain = view library entry.2 := by
      intro entry listed plain cleaned
      obtain ⟨value, held⟩ := Record.exists_member names listed
      exact ih listed held cleaned
    rw [Record.cleanMembers_eq, Record.sequence_eq_ok] at cleans
    rw [data, view]
    congr 1
    clear cleaned distinct names each ih
    induction cleans with
    | nil => rfl
    | cons pair rest ih =>
      rename_i entry plain entries plains
      obtain ⟨name, dump⟩ := entry
      obtain ⟨name', plain⟩ := plain
      obtain ⟨rfl, cleaned⟩ := pair
      obtain ⟨first, others⟩ := List.forall_mem_cons.mp all
      rw [dataMembers, viewMembers, first cleaned, ih others]

variable {audr : AUDR} {record : Value}

/-- What is flattened of a record whose times have a place in UTC. -/
theorem flattenAudr_placed (mirrors : audr.Mirrors record) (formed : record.WellFormed)
    (placed : ∀ text ∈ timeTexts record, Placed text) :
    flattenAudr library dumps separator audr = (flatten dumps separator (view library audr.dump)).mapError .invalid := by
  obtain ⟨plain, cleaned⟩ := (@Record.AUDR.Mirrors.cleans_iff library _ _ mirrors formed).mpr placed
  rw [flattenAudr, toPlain, cleaned]
  exact congrArg (fun value => (flatten dumps separator value).mapError _) (data_clean mirrors cleaned)

/-- `to_dict` raises where a time has none. -/
theorem flattenAudr_raises (mirrors : audr.Mirrors record) (formed : record.WellFormed)
    (placed : ¬∀ text ∈ timeTexts record, Placed text) :
    ∃ exception, flattenAudr library dumps separator audr = .error (.raised exception) := by
  rw [← @Record.AUDR.Mirrors.cleans_iff library _ _ mirrors formed] at placed
  cases cleaned : toPlain library audr with
  | ok plain => exact absurd ⟨plain, cleaned⟩ placed
  | error exception => exact ⟨exception, by rw [flattenAudr, cleaned]⟩

end Audr.PyChargebee
