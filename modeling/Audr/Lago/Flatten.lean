import Audr.Issues
import Audr.JsRecord.Codec
import Audr.JsRecord.Pruning
import Audr.Lago.Preflight

/-! Conversion of records into Lago event properties. -/

namespace Audr.Lago

open JsRecord Paths Properties

def separator : String := "__"

def jsonSuffix : String := "json"

/-- `pointer`: a JSON pointer for segments. -/
def pointer (segments : List String) : String := String.join (segments.map fun segment => "/" ++ escapeSegment segment)

/-- `notEncodable`: the message of the error. -/
def notEncodable (path : List String) : String := "unencodable_field:" ++ pointer path

/-- `canonicalJson`; `stringify` is `JSON.stringify`. -/
def canonicalJson (stringify : Value → String) (value : Value) (path : List String) : Except String String :=
  (canonical (notEncodable path) value).map stringify

mutual

/-- One turn of the loop of `flattenInto`. -/
def flattenItem (stringify : Value → String) (path : List String) (output : List (String × PropertyValue)) :
    Value → Except String (List (String × PropertyValue))
  | .undefined => .ok output
  | .array items => do
      let text ← canonicalJson stringify (.array items) path
      return put output (joined separator (path ++ [jsonSuffix])) (.str text)
  | .object plain members =>
      if plain then flattenInto stringify path output members else .error (notEncodable path)
  | .string text => .ok (put output (joined separator path) (.str text))
  | .number number =>
      if number.isFinite then .ok (put output (joined separator path) (.num number)) else .error (notEncodable path)
  | _ => .error (notEncodable path)

/-- `flattenInto`. -/
def flattenInto (stringify : Value → String) (path : List String) (output : List (String × PropertyValue)) :
    List (String × Value) → Except String (List (String × PropertyValue))
  | [] => .ok output
  | (key, item) :: rest => do
      let output ← flattenItem stringify (path ++ [key]) output item
      flattenInto stringify path output rest

end

/-- `flatten`. -/
def flatten (stringify : Value → String) : Value → Except String (List (String × PropertyValue))
  | .object true members => (flattenInto stringify [] [] members).map enumerate
  | _ => .error "unencodable_record"

/-- `flattenRecord`. -/
def flattenRecord (stringify : Value → String) (record : Value) : Except String (List (String × PropertyValue)) :=
  flatten stringify record

/-- A property value among the values. -/
def PropertyValue.value : PropertyValue → Value
  | .str text => .string text
  | .num number => .number number

variable {stringify : Value → String} {value : Value} {members : List (String × Value)}
  {output : List (String × PropertyValue)} {path : List String}

/-- The leaves of a value set as properties, one after the other. -/
def setLeaves (path : List String) (object : List (String × Value)) (found : List (List String × Value)) :
    List (String × Value) :=
  found.foldl (fun object leaf => put object (joined separator (path ++ leaf.1)) leaf.2) object

theorem setLeaves_inside (name : String) (object : List (String × Value)) (found : List (List String × Value)) :
    setLeaves path object (found.map (inside name)) = setLeaves (path ++ [name]) object found := by
  simp [setLeaves, List.foldl_map, inside]

/-- A value that can be encoded is flattened to its leaves. -/
theorem flattenItem_ok (encodable : Encodable value) : ∀ path output,
    ∃ found, flattenItem stringify path output value = .ok found ∧
      mapValues PropertyValue.value found = setLeaves path (mapValues PropertyValue.value output) (leaves value) := by
  induction encodable with
  | undefined => exact fun path output => ⟨output, rfl, rfl⟩
  | string text =>
    intro path output
    refine ⟨_, rfl, ?_⟩
    simp [put_mapValues, setLeaves, leaves, PropertyValue.value]
  | number finite =>
    intro path output
    refine ⟨_, if_pos finite, ?_⟩
    simp [put_mapValues, setLeaves, leaves, PropertyValue.value]
  | @object members each ih =>
    intro path output
    clear each
    rw [flattenItem, if_pos rfl, leaves]
    induction members generalizing output with
    | nil => exact ⟨output, rfl, rfl⟩
    | cons entry rest more =>
      obtain ⟨name, item⟩ := entry
      obtain ⟨first, others⟩ := List.forall_mem_cons.mp ih
      obtain ⟨set, flat, spelled⟩ := first (path ++ [name]) output
      obtain ⟨found, later, ends⟩ := more others set
      refine ⟨found, ?_, ?_⟩
      · rw [flattenInto, flat]
        exact later
      · rw [ends, spelled, leavesOf, ← setLeaves_inside, setLeaves, setLeaves, setLeaves, List.foldl_append]

/-- What a record is flattened to. -/
theorem flattenRecord_ok {record : Value} (valid : SchemaValid record) :
    ∃ output, flattenRecord stringify record = .ok output ∧
      (mapValues PropertyValue.value output).Perm ((leaves record).map fun leaf => (joined separator leaf.1, leaf.2)) := by
  have object := valid.isObject
  have encodable := valid.encodable
  cases encodable with
  | @object members each => ?_
  | _ => cases object
  obtain ⟨found, flat, spelled⟩ := @flattenItem_ok stringify _ (.object each) [] []
  refine ⟨enumerate found, ?_, ?_⟩
  · have same : flattenInto stringify [] [] members = .ok found := flat
    rw [flattenRecord, flatten, same, Except.map]
  · have set : mapValues PropertyValue.value found = (leaves (.object true members)).map fun leaf => (joined separator leaf.1, leaf.2) := by
      have properties := @foldl_put _ ((leaves (.object true members)).map fun leaf => (joined separator leaf.1, leaf.2))
        (by simpa [Function.comp_def] using @SchemaValid.nodup separator _ valid (by decide))
        (List.forall_mem_map.mpr fun leaf member => joined_ordinary (valid.admits leaf member) separator)
      rw [spelled, ← properties, setLeaves, List.foldl_map]
      rfl
    rw [← set]
    exact (enumerate_perm found).map _

/-- A record that the schema accepts is flattened without loss: each of its fields becomes one
property with its value, under a name no other field has, and the record can be told from its
properties, but for empty objects. -/
theorem flatten_lossless (stringify : Value → String) (record : Value) (valid : SchemaValid record) :
    ∃ output, flattenRecord stringify record = .ok output ∧
      ((leaves record).map fun leaf => joined separator leaf.1).Nodup ∧
      (mapValues PropertyValue.value output).Perm ((leaves record).map fun leaf => (joined separator leaf.1, leaf.2)) ∧
      ∀ record' output', SchemaValid record' → flattenRecord stringify record' = .ok output' → output.Perm output' →
        Value.DeepEqual (prune record) (prune record') := by
  obtain ⟨output, flat, spelled⟩ := @flattenRecord_ok stringify _ valid
  refine ⟨output, flat, valid.nodup (by decide), spelled, fun record' output' valid' flat' same => ?_⟩
  obtain ⟨again, flattened, spelled'⟩ := @flattenRecord_ok stringify _ valid'
  cases flat'.symm.trans flattened
  have properties := (spelled.symm.trans (same.map _)).trans spelled'
  have leaves_eq : (leaves record).Perm (leaves record') := by
    refine (List.perm_ext_iff_of_nodup (leaves_nodup valid.formed) (leaves_nodup valid'.formed)).mpr fun leaf => ?_
    constructor
    · intro member
      obtain ⟨found, listed, same⟩ := List.mem_map.mp (properties.mem_iff.mp (List.mem_map_of_mem member))
      obtain ⟨name, value⟩ := Prod.mk.inj same
      have path := valid'.injective valid (by decide) found listed leaf member name
      exact (Prod.ext path value : found = leaf) ▸ listed
    · intro member
      obtain ⟨found, listed, same⟩ := List.mem_map.mp (properties.mem_iff.mpr (List.mem_map_of_mem member))
      obtain ⟨name, value⟩ := Prod.mk.inj same
      have path := valid.injective valid' (by decide) found listed leaf member name
      exact (Prod.ext path value : found = leaf) ▸ listed
  exact deepEqual_of_leaves valid.formed valid'.formed valid.encodable valid'.encodable leaves_eq
    (.inr ⟨valid.isObject, valid'.isObject⟩)

/-- A record with a separator in one of its labels. -/
theorem flatten_lossless_labelled :
    ∃ output, flattenRecord (fun _ => "") (labelledRecord ["team__a", "team"]) = .ok output ∧ output.length = 17 := by
  have valid : SchemaValid (labelledRecord ["team__a", "team"]) :=
    ⟨(labelledRecord_formed (by decide)).1, (labelledRecord_formed (by decide)).2, by decide +kernel⟩
  obtain ⟨output, flat, -, spelled, -⟩ := flatten_lossless (fun _ => "") _ valid
  refine ⟨output, flat, ?_⟩
  have length := spelled.length_eq
  rw [mapValues, List.length_map, List.length_map] at length
  exact length.trans (by decide +kernel)

end Audr.Lago
