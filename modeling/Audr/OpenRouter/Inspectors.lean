import Audr.Json

/-! How the OpenRouter adapter reads the frames of a stream: what it keeps from one frame
to the next, which frame it hands to the building of a record, and its verdict. -/

namespace Audr.OpenRouter

inductive Verdict where
  | «continue»
  | recorded
  | noUsage
  | error
  deriving DecidableEq, Repr

/-- What an inspection hands on: the frame, or the `response` in it, with the router metadata
to fall back on and the error code of the record. -/
structure Handed (N : Type) where
  frame : Json N
  provider : Option String
  isByok : Option Bool
  errorCode : Option String

/-- One inspection: the next state of the inspector, what it hands on, and its verdict. A
frame is handed on exactly when the verdict is `recorded`. -/
structure Inspection (S H : Type) where
  state : S
  handed : Option H
  verdict : Verdict
  law : handed.isSome = true ↔ verdict = .recorded

/-- An inspector with the state its closure holds. -/
structure Inspector (F H : Type) where
  State : Type
  initial : State
  inspect : State → F → Inspection State H

variable {N : Type}

/-- `isRecord`: an object or an array, with its named members. -/
def fields : Json N → Option (List (String × Json N))
  | .obj members => some members
  | .arr _ => some []
  | _ => none

/-- A member that is a record itself. -/
def fieldsOf (name : String) (members : List (String × Json N)) : Option (List (String × Json N)) :=
  (Json.get? name members).bind fields

/-- `text`: a string that is not empty. -/
def text : Option (Json N) → Option String
  | some (.str value) => if value = "" then none else some value
  | _ => none

structure Router where
  provider : Option String
  isByok : Option Bool
  deriving DecidableEq, Repr

/-- `readRouter`. -/
def readRouter (value : Option (Json N)) : Option Router :=
  match value.bind fields with
  | none => none
  | some metadata =>
      let available :=
        match (fieldsOf "endpoints" metadata).bind (Json.get? "available") with
        | some (.arr entries) => entries
        | _ => []
      let selected := (available.filterMap fields).find? fun entry =>
        (match Json.get? "selected" entry with
          | some (.bool true) => true
          | _ => false) && (text (Json.get? "provider" entry)).isSome
      some
        { provider := selected.bind fun entry => text (Json.get? "provider" entry)
          isByok :=
            match Json.get? "isByok" metadata with
            | some (.bool value) => some value
            | _ => none }

/-- `frame.error != null`. -/
def hasError (members : List (String × Json N)) : Bool :=
  match Json.get? "error" members with
  | none => false
  | some .null => false
  | some _ => true

/-- A frame that is passed over, with a verdict other than `recorded`. -/
def pass {S H : Type} (state : S) (verdict : Verdict) (other : verdict ≠ .recorded) : Inspection S H :=
  ⟨state, none, verdict, by simp [other]⟩

def handOver {S H : Type} (state : S) (handed : H) : Inspection S H :=
  ⟨state, some handed, .recorded, by simp⟩

/-- The variables of the closure `#inspectChat` returns. -/
structure ChatState where
  router : Option Router
  failed : Bool
  deriving DecidableEq, Repr

/-- `#inspectChat`. -/
def inspectChat (state : ChatState) (frame : Json N) : Inspection ChatState (Handed N) :=
  match fields frame with
  | none => pass state .continue nofun
  | some members =>
      let router := (readRouter (Json.get? "openrouterMetadata" members)).or state.router
      let failed := state.failed || hasError members
      match fieldsOf "usage" members with
      | none => if hasError members then pass ⟨router, failed⟩ .error nofun else pass ⟨router, failed⟩ .continue nofun
      | some _ =>
          handOver ⟨router, failed⟩
            ⟨frame, router.bind Router.provider, router.bind Router.isByok,
              if failed then some "OPENROUTER_CHAT_FAILED" else none⟩

def chat : Inspector (Json N) (Handed N) := ⟨ChatState, ⟨none, false⟩, inspectChat⟩

/-- `isTerminalType` and `terminalErrorCode`: the error code of a terminal event. -/
def terminal? : Option (Json N) → Option (Option String)
  | some (.str "response.completed") => some none
  | some (.str "response.failed") => some (some "OPENROUTER_RESPONSE_FAILED")
  | some (.str "response.incomplete") => some (some "OPENROUTER_RESPONSE_INCOMPLETE")
  | _ => none

/-- `#inspectResponses`; `responsesObservation` is undefined for a response without usage. -/
def inspectResponses (frame : Json N) : Inspection Unit (Handed N) :=
  match fields frame with
  | none => pass () .continue nofun
  | some members =>
      match Json.get? "type" members with
      | some (.str "error") => pass () .error nofun
      | type =>
          match terminal? type with
          | none => pass () .continue nofun
          | some errorCode =>
              match Json.get? "response" members with
              | none => pass () .noUsage nofun
              | some response =>
                  match (fields response).bind (fieldsOf "usage") with
                  | none => pass () .noUsage nofun
                  | some _ =>
                      let router := readRouter ((fields response).bind (Json.get? "openrouterMetadata"))
                      handOver () ⟨response, router.bind Router.provider, router.bind Router.isByok, errorCode⟩

def responses : Inspector (Json N) (Handed N) := ⟨Unit, (), fun _ => inspectResponses⟩

end Audr.OpenRouter
