/-! The catalogue of failures both packages report records under. -/

namespace Audr

inductive ErrorCode where
  | required
  | forbidden
  | unknownProperty
  | invalidType
  | invalidEnum
  | invalidString
  | stringTooLong
  | invalidIdentifier
  | invalidDatetime
  | millisecondPrecision
  | futureEventTime
  | invalidCounter
  | invalidCost
  | invalidCurrency
  | invalidPropertyName
  | tooManyProperties
  | nonPseudonymousId
  | emptyUsage
  | invalidStructure
  | unsupportedVersion
  | notJson
  deriving DecidableEq, Repr

/-- One rule a record breaks: its code and a pointer to where. -/
structure Issue where
  code : ErrorCode
  path : String
  deriving DecidableEq, Repr

/-- A segment of an RFC 6901 pointer. -/
def escapeSegment (segment : String) : String :=
  String.ofList (segment.toList.flatMap fun c =>
    if c = '~' then ['~', '0'] else if c = '/' then ['~', '1'] else [c])

/-- The segments of a pointer. What stands beneath `labels` comes from the caller, and is not
shown. -/
def segments : Option String → List String → List String
  | _, [] => []
  | previous, segment :: rest =>
      (if previous = some "labels" then "*" else escapeSegment segment) :: segments (some segment) rest

/-- `pointer`. -/
def pointer (path : List String) : String :=
  if path = [] then "/" else String.join ((segments none path).map fun segment => "/" ++ segment)

end Audr
