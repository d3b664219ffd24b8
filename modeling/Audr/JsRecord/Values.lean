import Audr.Json
import Audr.Lib.Numerals
import Audr.Lib.Properties

/-! JavaScript values as the record functions of the TypeScript package see them, and the
JSON texts they are written to and read from. A text is given by the values it spells, each
object with its members as they stand there. -/

namespace Audr.JsRecord

open Properties (fromEntries)

/-- `plain` tells an object whose prototype is that of object literals, or `null`; `other`
stands for functions and symbols. -/
inductive Value where
  | undefined
  | null
  | bool (value : Bool)
  | number (value : Double)
  | string (text : String)
  | array (items : List Value)
  | object (plain : Bool) (members : List (String × Value))
  | other
  | bigint

namespace Value

/-- `value !== undefined`. -/
def isDefined : Value → Bool
  | .undefined => false
  | _ => true

/-- `data.name`, for a name no prototype has. -/
def field (name : String) (members : List (String × Value)) : Value :=
  ((members.find? fun entry => entry.1 = name).map Prod.snd).getD .undefined

/-- Induction on a value through the members of its objects. -/
theorem induct {motive : Value → Prop} (undefined : motive .undefined) (null : motive .null)
    (bool : ∀ value, motive (.bool value)) (number : ∀ value, motive (.number value))
    (string : ∀ text, motive (.string text)) (array : ∀ items, motive (.array items))
    (object : ∀ plain members, (∀ entry ∈ members, motive entry.2) → motive (.object plain members))
    (other : motive .other) (bigint : motive .bigint) : ∀ value, motive value
  | .undefined => undefined
  | .null => null
  | .bool value => bool value
  | .number value => number value
  | .string text => string text
  | .array items => array items
  | .object plain members =>
      object plain members fun entry _ =>
        induct undefined null bool number string array object other bigint entry.2
  | .other => other
  | .bigint => bigint
termination_by value => sizeOf value
decreasing_by
  have smaller : sizeOf entry < sizeOf members := List.sizeOf_lt_of_mem ‹_›
  have part : sizeOf entry.2 < sizeOf entry := by
    obtain ⟨name, value⟩ := entry
    simp
  simp
  omega

/-- What holds of every JavaScript value: an object has each name once, and numbers are
doubles. -/
inductive WellFormed : Value → Prop
  | undefined : WellFormed .undefined
  | null : WellFormed .null
  | bool (value : Bool) : WellFormed (.bool value)
  | number {q : ℚ} (representable : Double.Representable q) : WellFormed (.number (.finite q))
  | special {value : Double} (special : ∀ q, value ≠ .finite q) : WellFormed (.number value)
  | string (text : String) : WellFormed (.string text)
  | array {items : List Value} (each : ∀ item ∈ items, WellFormed item) : WellFormed (.array items)
  | object {plain : Bool} {members : List (String × Value)} (distinct : (members.map Prod.fst).Nodup)
      (each : ∀ entry ∈ members, WellFormed entry.2) : WellFormed (.object plain members)
  | other : WellFormed .other
  | bigint : WellFormed .bigint

/-- Every object is a plain one, as in the types of records. -/
inductive Plain : Value → Prop
  | undefined : Plain .undefined
  | null : Plain .null
  | bool (value : Bool) : Plain (.bool value)
  | number (value : Double) : Plain (.number value)
  | string (text : String) : Plain (.string text)
  | array {items : List Value} (each : ∀ item ∈ items, Plain item) : Plain (.array items)
  | object {members : List (String × Value)} (each : ∀ entry ∈ members, Plain entry.2) :
      Plain (.object true members)
  | other : Plain .other
  | bigint : Plain .bigint

/-- Numbers that are equal: both zeros are. -/
def SameNumber (x y : Double) : Prop := x = y ∨ ((x = .finite 0 ∨ x = .negativeZero) ∧ (y = .finite 0 ∨ y = .negativeZero))

/-- Deep equality of JSON data, whatever the order of members. -/
inductive DeepEqual : Value → Value → Prop
  | null : DeepEqual .null .null
  | bool (value : Bool) : DeepEqual (.bool value) (.bool value)
  | number {x y : Double} (same : SameNumber x y) : DeepEqual (.number x) (.number y)
  | string (text : String) : DeepEqual (.string text) (.string text)
  | object {plain : Bool} {a b : List (String × Value)} (names : (a.map Prod.fst).Perm (b.map Prod.fst))
      (each : ∀ name x y, (name, x) ∈ a → (name, y) ∈ b → DeepEqual x y) :
      DeepEqual (.object plain a) (.object plain b)

mutual

/-- A value with its undefined members removed, at every level. -/
def strip : Value → Value
  | .object plain members => .object plain (fromEntries (stripMembers members))
  | value => value

def stripMembers : List (String × Value) → List (String × Value)
  | [] => []
  | (name, value) :: rest =>
      if value.isDefined then (name, strip value) :: stripMembers rest else stripMembers rest

end

end Value

/-- The documents `JSON.parse` and `JSON.stringify` relate to values: members as they stand in
the text. -/
abbrev Text := Json Literal

mutual

/-- `JSON.parse`: later members of a name replace earlier ones. -/
def parse : Text → Value
  | .null => .null
  | .bool value => .bool value
  | .num literal => .number literal.double
  | .str text => .string text
  | .arr items => .array (parseItems items)
  | .obj members => .object true (fromEntries (parseMembers members))

def parseItems : List Text → List Value
  | [] => []
  | item :: rest => parse item :: parseItems rest

def parseMembers : List (String × Text) → List (String × Value)
  | [] => []
  | (name, value) :: rest => (name, parse value) :: parseMembers rest

end

mutual

/-- `JSON.stringify` of what holds no bigint; `none` for what is left out of objects. -/
def stringify (numerals : Numerals) : Value → Option Text
  | .undefined => none
  | .null => some .null
  | .bool value => some (.bool value)
  | .number (.finite q) => some (.num (jsLiteral numerals q))
  | .number .negativeZero => some (.num (.int false 0))
  | .number _ => some .null
  | .string text => some (.str text)
  | .array items => some (.arr (stringifyItems numerals items))
  | .object _ members => some (.obj (stringifyMembers numerals members))
  | .other => none
  | .bigint => none

def stringifyItems (numerals : Numerals) : List Value → List Text
  | [] => []
  | item :: rest => (stringify numerals item).getD .null :: stringifyItems numerals rest

def stringifyMembers (numerals : Numerals) : List (String × Value) → List (String × Text)
  | [] => []
  | (name, value) :: rest =>
      match stringify numerals value with
      | some text => (name, text) :: stringifyMembers numerals rest
      | none => stringifyMembers numerals rest

end

mutual

/-- `JSON.stringify` throws a `TypeError` where there is a bigint. -/
def serializable : Value → Bool
  | .array items => serializableItems items
  | .object _ members => serializableMembers members
  | .bigint => false
  | _ => true

def serializableItems : List Value → Bool
  | [] => true
  | item :: rest => serializable item && serializableItems rest

def serializableMembers : List (String × Value) → Bool
  | [] => true
  | (_, value) :: rest => serializable value && serializableMembers rest

end

end Audr.JsRecord
