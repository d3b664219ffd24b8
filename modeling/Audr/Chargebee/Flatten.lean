import Audr.Issues
import Audr.Chargebee.Responses
import Audr.JsRecord.Codec
import Audr.JsRecord.Leaves

/-! Conversion of records into Chargebee properties, in both languages. -/

namespace Audr.Chargebee

open JsRecord Paths Properties

/-- What the two languages do differently with objects and with arrays. -/
structure Objects where
  /-- `object[name] = value`. -/
  set : {V : Type} → List (String × V) → String → V → List (String × V)
  /-- The members in the order they are listed. -/
  listed : {V : Type} → List (String × V) → List (String × V)
  canonicalJson : Value → List String → Except String String

def jsonSuffix : String := "json"

def labelsKey : String := "labels"

def pointer (segments : List String) : String := "/" ++ "/".intercalate (segments.map escapeSegment)

def notEncodable (path : List String) : String := "field at " ++ pointer path ++ " is not JSON-encodable"

/-- The message of the error for labels that coincide. -/
def collision (path : List String) : String :=
  "labels at " ++ pointer path ++ " collide once '.' and '-' are rewritten to '_'"

/-- A label key with `.` and `-` rewritten. -/
def rewrite (key : String) : String := String.ofList (key.toList.map fun c => if c = '.' ∨ c = '-' then '_' else c)

section Flattening

variable (objects : Objects) (separator : String)

/-- The loop of `rewriteLabelKeys`. -/
def rewriteFrom {V : Type} (path : List String) (rewritten : List (String × V)) :
    List (String × V) → Except String (List (String × V))
  | [] => .ok (objects.listed rewritten)
  | (key, value) :: rest =>
      if rewrite key ∈ rewritten.map Prod.fst then .error (collision path)
      else rewriteFrom path (objects.set rewritten (rewrite key) value) rest

/-- `rewriteLabelKeys`. -/
def rewriteLabelKeys {V : Type} (labels : List (String × V)) (path : List String) : Except String (List (String × V)) :=
  rewriteFrom objects path [] labels

abbrev Output := List (String × Json Double)

/-- What `flattenInto` does with an item, under its key and at its path. -/
abbrev Step := String → List String → Output → Except String Output

/-- The loop of `flattenInto`. -/
def flattenInto (path : List String) : List (String × Step) → Output → Except String Output
  | [], output => .ok output
  | (key, step) :: rest, output => do
      let output ← step key (path ++ [key]) output
      flattenInto path rest output

/-- `isScalar`, and the scalar. -/
def scalar? : Value → Option (Json Double)
  | .null => some .null
  | .string text => some (.str text)
  | .number number => some (.num number)
  | .bool value => some (.bool value)
  | _ => none

mutual

/-- The body of the loop of `flattenInto`. -/
def flattenItem : Value → Step
  | .undefined => fun _ _ output => .ok output
  | .array items => fun _ path output => do
      let text ← objects.canonicalJson (.array items) path
      return objects.set output (joined separator (path ++ [jsonSuffix])) (.str text)
  | .object plain members => fun key path output =>
      if plain then do
        let nested ← if key = labelsKey then rewriteLabelKeys objects (flattenItems members) path else .ok (flattenItems members)
        flattenInto path nested output
      else .error (notEncodable path)
  | value => fun _ path output =>
      match scalar? value with
      | some scalar => .ok (objects.set output (joined separator path) scalar)
      | none => .error (notEncodable path)

def flattenItems : List (String × Value) → List (String × Step)
  | [] => []
  | (name, value) :: rest => (name, flattenItem value) :: flattenItems rest

end

/-- `flatten`. -/
def flattenBy : Value → Except String Output
  | .object true members => (flattenInto [] (flattenItems objects separator members) []).map objects.listed
  | _ => .error "record must encode to a JSON object"

end Flattening

/-- Plain objects of JavaScript; `stringify` is `JSON.stringify`. -/
def plainObjects (stringify : Value → String) : Objects where
  set := put
  listed := enumerate
  canonicalJson value path := (canonical (notEncodable path) value).map stringify

/-- `flattenRecord`, in TypeScript. -/
def flattenRecord (stringify : Value → String) (separator : String) (record : Value) : Except String Output :=
  flattenBy (plainObjects stringify) separator record

end Audr.Chargebee

namespace Audr.PyChargebee

open JsRecord Properties Chargebee

/-- Dicts of Python; `dumps` is `json.dumps`, `none` where it raises. -/
def dicts (dumps : Value → Option String) : Objects where
  set := assign
  listed entries := entries
  canonicalJson value path :=
    match dumps value with
    | some text => .ok text
    | none => .error (notEncodable path)

/-- `flatten`, in Python, of the plain types a record is given by. -/
def flatten (dumps : Value → Option String) (separator : String) (nested : Value) : Except String Output :=
  flattenBy (dicts dumps) separator nested

end Audr.PyChargebee
