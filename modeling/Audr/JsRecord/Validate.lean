import Audr.Issues
import Audr.JsRecord.Schema

/-! `validate`: what the schema reports, as issues, with the formats and rules that are stated
in prose only. -/

namespace Audr.JsRecord

open Properties (fromEntries)
open Timestamp (isDigit)

mutual

/-- `asJson`: a property set to undefined is absent, except among the labels. -/
def asJson (key : Option String) : Value → Value
  | .object _ members => .object true (fromEntries (asJsonMembers (key = some "labels") members))
  | value => value

def asJsonMembers (all : Bool) : List (String × Value) → List (String × Value)
  | [] => []
  | (name, value) :: rest =>
      if all || value.isDefined then (name, asJson (some name) value) :: asJsonMembers all rest
      else asJsonMembers all rest

end

/-! Identifiers and timestamps. -/

def ulidHead (c : Char) : Bool := '0' ≤ c && c ≤ '7'

/-- `[0-9A-HJKMNP-TV-Z]`. -/
def ulidChar (c : Char) : Bool := isDigit c || (c.isUpper && c ∉ ['I', 'L', 'O', 'U'])

/-- `^[0-7][0-9A-HJKMNP-TV-Z]{25}$`. -/
def ulid (text : List Char) : Bool :=
  match text with
  | head :: rest => ulidHead head && rest.length = 25 && rest.all ulidChar
  | [] => false

/-- `[0-9a-f]`. -/
def hexDigit (c : Char) : Bool := isDigit c || ('a' ≤ c && c ≤ 'f')

/-- `^[0-9a-f]{8}-[0-9a-f]{4}-7[0-9a-f]{3}-[89ab][0-9a-f]{3}-[0-9a-f]{12}$`, one class for each
character. -/
def uuid7Classes : List (Char → Bool) :=
  List.replicate 8 hexDigit ++ [(· == '-')] ++ List.replicate 4 hexDigit ++ [(· == '-'), (· == '7')] ++
    List.replicate 3 hexDigit ++ [(· == '-'), fun c => c ∈ ['8', '9', 'a', 'b']] ++ List.replicate 3 hexDigit ++
    [(· == '-')] ++ List.replicate 12 hexDigit

/-- Each character in its class. -/
def fits (classes : List (Char → Bool)) (text : List Char) : Bool :=
  text.length = classes.length && (classes.zip text).all fun pair => pair.1 pair.2

def uuid7 (text : List Char) : Bool := fits uuid7Classes text

def recordIdentifier (text : String) : Bool := ulid text.toList || uuid7 text.toList

/-- `^[0-9a-f]{32}$`. -/
def traceId (text : String) : Bool := text.toList.length = 32 && text.toList.all hexDigit

/-- `Date.UTC` takes the years up to 99 for those of the twentieth century. -/
def fullYear (year : Nat) : Nat := if year ≤ 99 then 1900 + year else year

/-- `Number(fraction.slice(0, 3).padEnd(3, '0'))`. -/
def milliseconds (fraction : List Char) : Nat :=
  Nat.ofDigitChars 10 ((fraction.take 3).rightpad 3 '0') 0

/-- The parts of a timestamp are those of a moment. -/
def inRange (parts : Timestamp.Parts) : Bool :=
  1 ≤ parts.month && parts.month ≤ 12 && 1 ≤ parts.day &&
    parts.day ≤ Calendar.monthLength (fullYear parts.year) parts.month &&
    parts.hour ≤ 23 && parts.minute ≤ 59 && parts.second ≤ 59 &&
    parts.zone.all fun zone => zone.2.1 ≤ 23 && zone.2.2 ≤ 59

def offsetMinutes : Option (Bool × Nat × Nat) → Int
  | none => 0
  | some (minus, hours, minutes) => (if minus then -1 else 1) * ((hours * 60 + minutes : Nat) : Int)

def epochMs (parts : Timestamp.Parts) : Int :=
  (Calendar.dayNumber (fullYear parts.year) parts.month parts.day - Calendar.epochDay : Int) * 86400000 +
    (((parts.hour * 60 + parts.minute) * 60 + parts.second) * 1000 + milliseconds parts.fraction : Nat) -
    offsetMinutes parts.zone * 60000

/-- `parseTimestamp`: the milliseconds since 1970, and the digits of the fraction. -/
def parseTimestamp (text : String) : Option (Int × List Char) :=
  match Timestamp.scan text.toList with
  | some parts => if inRange parts then some (epochMs parts, parts.fraction) else none
  | none => none

/-! Issues. -/

/-- `FIELD_CODES`. -/
def fieldCode : List String → Keyword → Option ErrorCode
  | ["spec_version"], .pattern _ => some .unsupportedVersion
  | ["record_id"], .minLength | ["record_id"], .maxLength => some .invalidIdentifier
  | ["corrects"], .minLength | ["corrects"], .maxLength => some .invalidIdentifier
  | ["cost", "currency"], .pattern _ => some .invalidCurrency
  | ["usage"], .required _ | ["usage"], .not _ => some .invalidStructure
  | _, _ => none

def valueAt (data : Value) : List String → Value
  | [] => data
  | name :: rest =>
      match data with
      | .object _ members => valueAt (Value.field name members) rest
      | _ => .undefined

/-- Whether a path lies inside a block of the record. -/
def isInside (block : String) : List String → Bool
  | head :: _ :: _ => head = block
  | _ => false

def nonFinite : Value → Bool
  | .number number => !number.isFinite
  | _ => false

/-- `codeFor`. -/
def codeFor (error : SchemaError) (value : Value) : ErrorCode :=
  if error.propertyName.isSome then .invalidPropertyName
  else
    let bound := if isInside "cost" error.instancePath then .invalidCost else .invalidCounter
    match error.keyword with
    | .type names =>
        if nonFinite value && names.any fun name => name = "number" || name = "integer" then bound else .invalidType
    | .pattern dateTime => if dateTime then .invalidDatetime else .invalidString
    | .minimum | .maximum => bound
    | .minProperties => if isInside "usage" error.instancePath then .emptyUsage else .invalidStructure
    | .enum => .invalidEnum
    | .const => .invalidStructure
    | .minLength => .invalidString
    | .maxLength => .stringTooLong
    | .required _ => .required
    | .additionalProperties _ => .unknownProperty
    | .maxProperties => .tooManyProperties
    | .propertyNames _ => .invalidPropertyName
    | .not _ => .forbidden
    | .ifThen => .invalidStructure

/-- `propertyOf`. -/
def propertyOf (error : SchemaError) : Option String :=
  match error.keyword with
  | .not name => some name
  | .required name => some name
  | .additionalProperties name => some name
  | .propertyNames name => some (error.propertyName.getD name)
  | _ => error.propertyName

/-- The path `toIssue` reports an error at. -/
def issuePath (error : SchemaError) : List String :=
  if (fieldCode error.instancePath error.keyword).isSome then error.instancePath
  else error.instancePath ++ (propertyOf error).toList

/-- `toIssue`. -/
def toIssue (error : SchemaError) (data : Value) : Issue :=
  ⟨(fieldCode error.instancePath error.keyword).getD (codeFor error (valueAt data error.instancePath)),
    pointer (issuePath error)⟩

def Keyword.isType : Keyword → Bool
  | .type _ => true
  | _ => false

/-- The paths of values of a wrong type. -/
def mistyped (errors : List SchemaError) : List (List String) :=
  (errors.filter fun error => error.keyword.isType).map SchemaError.instancePath

/-- Set by the sink at ingest. -/
def sinkOwned : List String := ["timing", "received_time"]

/-- The errors `schemaIssues` reports: neither an `if` that failed with its `then`, nor a
constraint on a value of the wrong type, nor one on the property only a sink may set. -/
def reported (errors : List SchemaError) (error : SchemaError) : Bool :=
  error.keyword ≠ .ifThen && (error.keyword.isType || error.instancePath ∉ mistyped errors) &&
    issuePath error ≠ sinkOwned

def structuralErrors (data : Value) : List SchemaError :=
  (schemaErrors data).filter fun error => reported (schemaErrors data) error && !error.branch

def conditionalErrors (data : Value) : List SchemaError :=
  (schemaErrors data).filter fun error => reported (schemaErrors data) error && error.branch

/-- An identifier that is neither a ULID nor a UUIDv7. -/
def identifierIssues (key : String) : Value → List Issue
  | .string text => if recordIdentifier text then [] else [⟨.invalidIdentifier, pointer [key]⟩]
  | _ => []

def timingIssues : Value → List Issue
  | .object _ timing =>
      (match Value.field "event_time" timing with
        | .string text =>
            if (parseTimestamp text).isSome then [] else [⟨.invalidDatetime, pointer ["timing", "event_time"]⟩]
        | _ => []) ++
        if (Value.field "received_time" timing).isDefined then [⟨.forbidden, pointer sinkOwned⟩] else []
  | _ => []

def traceIssues : Value → List Issue
  | .object _ run =>
      match Value.field "trace_id" run with
      | .string text => if traceId text then [] else [⟨.invalidIdentifier, pointer ["run", "trace_id"]⟩]
      | _ => []
  | _ => []

/-- `formatIssues`. -/
def formatIssues : Value → List Issue
  | .object _ members =>
      identifierIssues "record_id" (Value.field "record_id" members) ++
        identifierIssues "corrects" (Value.field "corrects" members) ++
        timingIssues (Value.field "timing" members) ++ traceIssues (Value.field "run" members)
  | _ => []

def futureSkewMs : Int := 5 * 60 * 1000

def eventTimeIssues (now : Int) : Value → List Issue
  | .string text =>
      match parseTimestamp text with
      | some (epochMs, fraction) =>
          (if (fraction.drop 3).any fun c => '1' ≤ c && c ≤ '9' then
              [⟨.millisecondPrecision, pointer ["timing", "event_time"]⟩]
            else []) ++
            if epochMs > now + futureSkewMs then [⟨.futureEventTime, pointer ["timing", "event_time"]⟩] else []
      | none => []
  | _ => []

def userIssues : Value → List Issue
  | .string text =>
      if '@' ∈ text.toList then [⟨.nonPseudonymousId, pointer ["attribution", "user_id"]⟩] else []
  | _ => []

/-- `proseIssues`, at a time in milliseconds. -/
def proseIssues (now : Int) (data : Value) : List Issue :=
  eventTimeIssues now (valueAt data ["timing", "event_time"]) ++
    (if (valueAt data ["attribution", "environment"]).isDefined then []
      else [⟨.required, pointer ["attribution", "environment"]⟩]) ++
    userIssues (valueAt data ["attribution", "user_id"])

/-- `inspect`, on the copy of a value as JSON sees it. -/
def inspect (now : Int) (data : Value) : List Issue :=
  let structural := formatIssues data ++ (structuralErrors data).map (toIssue · data)
  if structural ≠ [] then structural.eraseDups
  else ((conditionalErrors data).map (toIssue · data) ++ proseIssues now data).eraseDups

/-- `validate`: every rule a value breaks. -/
def validate (now : Int) (value : Value) : List Issue := inspect now (asJson none value)

/-- `validate` of whatever reading a value gives: `none` where a getter or a proxy throws. -/
def validateReading (now : Int) : Option Value → List Issue
  | some value => validate now value
  | none => [⟨.invalidType, "/"⟩]

end Audr.JsRecord
