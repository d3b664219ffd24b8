import Audr.Chargebee.Responses
import Audr.Lib.Double

/-! The usage event and the destination's envelope rules, which both languages check alike. -/

namespace Audr.Chargebee

def maxSubscriptionIdLength : Nat := 50

def maxDeduplicationIdLength : Nat := 36

def millisecondTimestampDigits : Nat := 13

/-- `^[a-zA-Z][a-zA-Z0-9_]*$`. -/
def propertyName (name : String) : Bool :=
  match name.toList with
  | first :: rest => first.isAlpha && rest.all fun c => c.isAlpha || c.isDigit || c = '_'
  | [] => false

def reservedPropertyNames : List String :=
  ["deduplication_id", "error_codes", "event_meta", "ingestion_timestamp", "properties", "subscription_id",
    "usage_timestamp"]

/-- What the languages differ in: which texts have nothing but whitespace, and how a message
quotes a name. -/
structure Conventions where
  blank : String → Bool
  quoted : String → String

/-- `identifier`. -/
def identifier (conventions : Conventions) (value name : String) (maxLength : Nat) : Except String Unit :=
  if conventions.blank value then .error (name ++ " must not be empty")
  else if maxLength < value.length then .error (name ++ " must be at most " ++ toString maxLength ++ " characters")
  else .ok ()

/-- The check of `usage_timestamp`. -/
def timestamp (value : Int) : Except String Unit :=
  if (toString value).length ≠ millisecondTimestampDigits then
    .error ("usage_timestamp must be a 13-digit epoch-millisecond value; a 10-digit value is " ++
      "epoch seconds and the destination rejects it")
  else .ok ()

/-- The loop of `properties`. -/
def validateProperties (conventions : Conventions) : List (String × Json Double) → Except String Unit
  | [] => .ok ()
  | (key, item) :: rest =>
      let named := "properties name " ++ conventions.quoted key
      let valued := "properties value for " ++ conventions.quoted key
      if !propertyName key then
        .error (named ++ " must start with a letter and contain only letters, digits, and underscores")
      else if key ∈ reservedPropertyNames then .error (named ++ " is reserved")
      else
        match item with
        | .arr _ => .error (valued ++ " must be a scalar; the destination fails on nested objects and arrays, got array")
        | .obj _ => .error (valued ++ " must be a scalar; the destination fails on nested objects and arrays, got object")
        | .num number =>
            if number.isFinite then validateProperties conventions rest
            else .error (valued ++ " must be a finite JSON number")
        | _ => validateProperties conventions rest

/-- `validateEvent`. -/
def validateEvent (conventions : Conventions) (event : UsageEvent Double) : Except String (UsageEvent Double) := do
  identifier conventions event.subscriptionId "subscription_id" maxSubscriptionIdLength
  identifier conventions event.deduplicationId "deduplication_id" maxDeduplicationIdLength
  timestamp event.usageTimestamp
  if event.properties = [] then .error "properties must not be empty"
  validateProperties conventions event.properties
  return event

end Audr.Chargebee
