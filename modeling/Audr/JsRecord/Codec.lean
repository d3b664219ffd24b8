import Audr.JsRecord.Validate

/-! `parseRecord`, `decodeRecord` and `encodeRecord`. -/

namespace Audr.JsRecord

open Properties (enumerate fromEntries put sortEntries)

mutual

/-- `structuredClone` takes any data, bigints too, but no function or symbol. -/
def cloneable : Value → Bool
  | .array items => cloneableItems items
  | .object _ members => cloneableMembers members
  | .other => false
  | _ => true

def cloneableItems : List Value → Bool
  | [] => true
  | item :: rest => cloneable item && cloneableItems rest

def cloneableMembers : List (String × Value) → Bool
  | [] => true
  | (_, value) :: rest => cloneable value && cloneableMembers rest

end

mutual

/-- A structured clone: its objects are plain. -/
def clone : Value → Value
  | .array items => .array (cloneItems items)
  | .object _ members => .object true (cloneMembers members)
  | value => value

def cloneItems : List Value → List Value
  | [] => []
  | item :: rest => clone item :: cloneItems rest

def cloneMembers : List (String × Value) → List (String × Value)
  | [] => []
  | (name, value) :: rest => (name, clone value) :: cloneMembers rest

end

/-- `cloneInput`; an error carries the issues of the `ValidationError` thrown. -/
def cloneInput (now : Int) (input : Value) : Except (List Issue) Value :=
  if cloneable input then .ok (clone input)
  else
    let issues := validate now input
    .error (if issues ≠ [] then issues else [⟨.invalidType, "/"⟩])

/-- What `parseRecord` refuses before it validates. -/
def versionIssue : Value → Option Issue
  | .object _ members =>
      match Value.field "spec_version" members with
      | .undefined => some ⟨.required, "/spec_version"⟩
      | .string text => if versionPattern text then none else some ⟨.unsupportedVersion, "/spec_version"⟩
      | _ => none
  | _ => none

/-- `parseRecord`. -/
def parseRecord (now : Int) (input : Value) : Except (List Issue) Value := do
  let data ← cloneInput now input
  match versionIssue data with
  | some issue => .error [issue]
  | none =>
      let issues := validate now data
      if issues ≠ [] then .error issues else .ok data

/-- `decodeRecord`; `none` is a text that is not JSON. -/
def decodeRecord (now : Int) : Option Text → Except (List Issue) Value
  | none => .error [⟨.notJson, "/"⟩]
  | some text => parseRecord now (parse text)

/-- The values of members, unless one of them failed: then the error of the first. -/
def sequence {E A : Type} : List (String × Except E A) → Except E (List (String × A))
  | [] => .ok []
  | (name, result) :: rest => do
      let value ← result
      let values ← sequence rest
      return (name, value) :: values

mutual

/-- `sortKeys`: members are sorted before their values are, so an error is the first in that
order. -/
def sortKeys (path : List String) : Value → Except Issue Value
  | .number number =>
      if number.isFinite then .ok (.number number) else .error ⟨.invalidType, pointer path⟩
  | .array _ => .error ⟨.invalidType, pointer path⟩
  | .object plain members =>
      if plain then
        match sequence (sortEntries (sortMembers path members)) with
        | .ok entries => .ok (.object true (fromEntries entries))
        | .error issue => .error issue
      else .error ⟨.invalidType, pointer path⟩
  | value => .ok value

def sortMembers (path : List String) : List (String × Value) → List (String × Except Issue Value)
  | [] => []
  | (name, value) :: rest =>
      if value.isDefined then (name, sortKeys (path ++ [name]) value) :: sortMembers path rest
      else sortMembers path rest

end

/-- What `encodeRecord` throws: a `ValidationError` of one issue, or a `TypeError`. -/
inductive EncodeError where
  | invalid (issue : Issue)
  | typeError

/-- `encodeRecord`, without indentation. -/
def encodeRecord (numerals : Numerals) (record : Value) : Except EncodeError (Option Text) :=
  match sortKeys [] record with
  | .error issue => .error (.invalid issue)
  | .ok sorted => if serializable sorted then .ok (stringify numerals sorted) else .error .typeError

/-! `canonical`, which the sinks make of arrays; `refusal` is the message of their error. -/

mutual

/-- Sorted keys, and nothing `JSON.stringify` would coerce. -/
def canonical (refusal : String) : Value → Except String Value
  | .null => .ok .null
  | .string text => .ok (.string text)
  | .bool value => .ok (.bool value)
  | .number number => if number.isFinite then .ok (.number number) else .error refusal
  | .array items => (canonicalItems refusal items).map .array
  | .object plain members =>
      if plain then
        (sequence (sortEntries (canonicalMembers refusal members))).map fun entries =>
          .object true (enumerate (entries.foldl (fun sorted entry => put sorted entry.1 entry.2) []))
      else .error refusal
  | _ => .error refusal

def canonicalItems (refusal : String) : List Value → Except String (List Value)
  | [] => .ok []
  | item :: rest => do
      let first ← canonical refusal item
      let others ← canonicalItems refusal rest
      return first :: others

def canonicalMembers (refusal : String) : List (String × Value) → List (String × Except String Value)
  | [] => []
  | (name, value) :: rest =>
      if value.isDefined then (name, canonical refusal value) :: canonicalMembers refusal rest
      else canonicalMembers refusal rest

end

end Audr.JsRecord
