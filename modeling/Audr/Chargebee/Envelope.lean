import Audr.Chargebee.Languages
import Audr.Chargebee.Sink
import Audr.JsRecord.Conformance
import Audr.JsRecord.Encoding
import Audr.JsRecord.Moments
import Audr.Lib.Decimal
import Audr.PyChargebee.Flatten

/-! The events both languages make of valid records. -/

namespace Audr.Chargebee

open JsRecord Paths Properties

/-! Instants. -/

/-- The days of 400 years. -/
def daysPerCycle : Int := 146097

/-- The seconds from 1970 on to a moment, whatever its year: the calendar repeats after 400 years. -/
def epochSeconds (parts : Timestamp.Parts) : Int :=
  (Calendar.dayNumber (parts.year + 400) parts.month parts.day - daysPerCycle - Calendar.epochDay) * 86400 +
    ((parts.hour * 60 + parts.minute) * 60 + parts.second : Nat) - offsetMinutes parts.zone * 60

/-- `Date.parse`, of a timestamp in the format of records. -/
def dateParse (parts : Timestamp.Parts) : Int := epochSeconds parts * 1000 + milliseconds parts.fraction

/-- `Date.parse` tells the moment a text denotes, in whole milliseconds. -/
theorem dateParse_eq {parts : Timestamp.Parts} (fits : parts.Fits) : dateParse parts = parts.milliseconds := by
  have later := @Calendar.daysBefore_eq (parts.year + 400) (by omega)
  have cycle := Calendar.daysBefore_cycle parts.year
  have epoch := @Calendar.daysBefore_eq 1970 (by decide)
  have start : Calendar.epochDay = Calendar.daysBeforeYear 1970 := by decide
  have months : Calendar.daysBeforeMonth (parts.year + 400) parts.month = Calendar.daysBeforeMonth parts.year parts.month := by
    rw [Calendar.daysBeforeMonth, Calendar.daysBeforeMonth, Calendar.monthLengths, Calendar.monthLengths, Calendar.leap_cycle]
  have days : ((Calendar.dayNumber (parts.year + 400) parts.month parts.day : Nat) : Int) - daysPerCycle - Calendar.epochDay =
      parts.daysSinceEpoch := by
    rw [Timestamp.Parts.daysSinceEpoch, Calendar.dayNumber, months, start, daysPerCycle]
    omega
  rw [dateParse, epochSeconds, days, Timestamp.milliseconds_eq, milliseconds, Timestamp.leadingDigits_eq fits.fraction,
    offsetMinutes_eq]
  push_cast
  ring

/-! Records. -/

/-- The text at a path, empty where there is none. -/
def textAt (record : Value) (path : List String) : String :=
  match valueAt record path with
  | .string text => text
  | _ => ""

/-- A record `validate` finds no issue with. -/
structure ValidRecord where
  record : Value
  now : Int
  formed : record.WellFormed
  flat : record.Plain
  accepted : validate now record = []

theorem textAt_eq {record : Value} {path : List String} {text : String} (formed : record.WellFormed) (below : path ≠ [])
    (held : valueAt (asJson none record) path = .string text) : textAt record path = text := by
  rw [valueAt_asJson path formed below] at held
  rw [textAt, asJson_eq_string held]

namespace ValidRecord

def subscriptionId (record : ValidRecord) : String := textAt record.record ["attribution", "subscription_id"]

def recordId (record : ValidRecord) : String := textAt record.record ["record_id"]

def eventTime (record : ValidRecord) : String := textAt record.record ["timing", "event_time"]

theorem conformant (record : ValidRecord) : Conformant (ReadTimestamp record.now) (asJson none record.record) :=
  inspect_conformant.mp record.accepted

/-- The texts every record has. -/
theorem texts (record : ValidRecord) :
    valueAt (asJson none record.record) ["record_id"] = .string record.recordId ∧
      valueAt (asJson none record.record) ["timing", "event_time"] = .string record.eventTime := by
  obtain ⟨plain, members, view, -, required, -, fields, -⟩ := record.conformant.schema.record
  have field := fun name rule (listed : (name, rule) ∈ recordRules fun _ => True) => fields (name, rule) listed
  have identifier : ∃ text, valueAt (asJson none record.record) ["record_id"] = .string text := by
    obtain ⟨text, held, -⟩ := field "record_id" idTextRule (by simp [recordRules]) (required _ (by simp))
    exact ⟨text, by rw [view]; exact held⟩
  have time : ∃ text, valueAt (asJson none record.record) ["timing", "event_time"] = .string text := by
    obtain ⟨plain, timing, held, -, needed, -, inner, -⟩ :=
      field "timing" (timingRule fun _ => True) (by simp [recordRules]) (required _ (by simp))
    obtain ⟨text, spelled, -⟩ := inner _ List.mem_cons_self (needed _ (by simp))
    refine ⟨text, ?_⟩
    rw [view]
    change valueAt (Value.field "timing" members) ["event_time"] = _
    rw [show Value.field "timing" members = _ from held]
    exact spelled
  obtain ⟨id, identifier⟩ := identifier
  obtain ⟨text, time⟩ := time
  have same : record.recordId = id := textAt_eq record.formed (by simp) identifier
  have same' : record.eventTime = text := textAt_eq record.formed (by simp) time
  exact ⟨same ▸ identifier, same' ▸ time⟩

theorem held_eventTime (record : ValidRecord) :
    valueAt record.record ["timing", "event_time"] = .string record.eventTime := by
  have held := record.texts.2
  rw [valueAt_asJson _ record.formed (by simp)] at held
  exact asJson_eq_string held

theorem scanned (record : ValidRecord) : (Timestamp.scan record.eventTime.toList).isSome = true := by
  obtain ⟨parts, scanned, -⟩ := record.conformant.eventTime _ record.texts.2
  exact scanned ▸ rfl

/-- The parts of the event time. -/
def moment (record : ValidRecord) : Timestamp.Parts :=
  (Timestamp.scan record.eventTime.toList).get record.scanned

/-- The event time in milliseconds since 1970. -/
def eventTimeMs (record : ValidRecord) : Int := record.moment.milliseconds

theorem scan_eq (record : ValidRecord) : Timestamp.scan record.eventTime.toList = some record.moment :=
  (Option.some_get record.scanned).symm

/-- `Date.parse` reads the event time. -/
theorem dateParse_moment (record : ValidRecord) : dateParse record.moment = record.eventTimeMs :=
  dateParse_eq (Timestamp.scan_eq_some.mp record.scan_eq).1

/-- The event time is the one time of a record. -/
theorem timeTexts_eq (record : ValidRecord) : Record.timeTexts record.record = [record.eventTime] := by
  have event := record.held_eventTime
  have received : valueAt record.record ["timing", "received_time"] = .undefined := by
    have absent := record.conformant.unreceived
    rw [valueAt_asJson _ record.formed (by simp)] at absent
    cases value : valueAt record.record ["timing", "received_time"] with
    | undefined => rfl
    | _ => simp [value, asJson, Value.isDefined] at absent
  simp [Record.timeTexts, Record.timePaths, event, received]

end ValidRecord

instance validRecord : AudrRecord ValidRecord := ⟨ValidRecord.recordId⟩

/-! Events. -/

/-- White space and line terminators of JavaScript. -/
def jsSpace (c : Char) : Bool :=
  c.toNat ∈ [0x9, 0xA, 0xB, 0xC, 0xD, 0x20, 0xA0, 0x1680, 0x2000, 0x2001, 0x2002, 0x2003, 0x2004, 0x2005, 0x2006, 0x2007,
    0x2008, 0x2009, 0x200A, 0x2028, 0x2029, 0x202F, 0x205F, 0x3000, 0xFEFF]

/-- `value.trim() === ''`. -/
def trimsEmpty (value : String) : Bool := value.toList.all jsSpace

def conventions : Conventions where
  blank := trimsEmpty
  quoted name := "'" ++ name ++ "'"

/-- What `deliver` makes of a record. -/
def buildEvent (stringify : Value → String) (separator : String) (record : ValidRecord) : Except String (UsageEvent Double) :=
  if record.subscriptionId = "" then .error "missing_subscription_id"
  else do
    let properties ← flattenRecord stringify separator record.record
    validateEvent conventions ⟨record.subscriptionId, dateParse record.moment, record.recordId, properties⟩

end Audr.Chargebee

namespace Audr.PyChargebee

open Chargebee JsRecord
open Python (Number)
open Record (AUDR)

/-- What `str.isspace` holds of. -/
def space (c : Char) : Bool :=
  c.toNat ∈ [0x9, 0xA, 0xB, 0xC, 0xD, 0x1C, 0x1D, 0x1E, 0x1F, 0x20, 0x85, 0xA0, 0x1680, 0x2000, 0x2001, 0x2002, 0x2003,
    0x2004, 0x2005, 0x2006, 0x2007, 0x2008, 0x2009, 0x200A, 0x2028, 0x2029, 0x202F, 0x205F, 0x3000]

/-- `not value.strip()`. -/
def stripsEmpty (value : String) : Bool := value.toList.all space

/-- `repr` is what quotes a name. -/
def conventions (repr : String → String) : Conventions where
  blank := stripsEmpty
  quoted := repr

/-- `event_time_ms`, from the days, seconds and microseconds of a `timedelta`. -/
def eventTimeMs (record : AUDR) : Int :=
  let elapsed := record.timing.eventTime.utc - Record.epochMicros
  let days := elapsed / 86400000000
  let seconds := elapsed % 86400000000 / 1000000
  days * 86400000 + seconds * 1000 + elapsed % 1000000 / 1000

/-- What differs from one run of the Python sink to another: how names are quoted, how arrays
and numbers are read and written. -/
structure Codec where
  repr : String → String
  dumps : Value → Option String
  number : Json Double → Python.Value

/-- `_build_event`, where a record has a subscription. -/
def buildEvent (codec : Codec) (library : Record.Library) (separator : String) (record : AUDR) :
    Except Refusal (UsageEvent Number) :=
  let subscriptionId := record.attribution.val.subscriptionId.getD ""
  if subscriptionId = "" then .error (.invalid "missing_subscription_id")
  else do
    let properties ← flattenAudr library codec.dumps separator record
    let event ← (validateEvent (conventions codec.repr)
      ⟨subscriptionId, eventTimeMs record, record.recordId, properties⟩).mapError .invalid
    return { event with properties := event.properties.map fun entry => (entry.1, codec.number entry.2) }

instance audrRecord : AudrRecord AUDR := ⟨AUDR.recordId⟩

end Audr.PyChargebee

namespace Audr.Chargebee

open JsRecord Paths Properties

variable {separator : String} {keep : String → Bool} {blank : String → Bool} {record : ValidRecord}

/-- What a language refuses of a record with an event time and a subscription that fit. -/
def Barred (blank : String → Bool) (keep : String → Bool) (record : ValidRecord) : Prop :=
  blank record.subscriptionId = true ∨ ∃ a ∈ labelNames record.record, ∃ b ∈ labelNames record.record,
    a ≠ b ∧ rewrite a = rewrite b ∧ keep (rewrite a) = true

instance : Decidable (Barred blank keep record) := inferInstanceAs (Decidable (_ ∨ _))

theorem validateEvent_eq {conventions : Conventions} {event made : UsageEvent Double}
    (valid : validateEvent conventions event = .ok made) : made = event := by
  unfold validateEvent at valid
  simp only [bind, Except.bind, pure, Except.pure] at valid
  split at valid
  · cases valid
  · split at valid
    · cases valid
    · split at valid
      · cases valid
      · split at valid
        · cases valid
        · split at valid
          · cases valid
          · exact (Except.ok.inj valid).symm

variable {objects : Objects} {conventions : Conventions} {value : Value} {subscriptionId recordId : String} {time : Int}

theorem buildEvent_fields {stringify : Value → String} {record : ValidRecord} {event : UsageEvent Double}
    (made : buildEvent stringify separator record = .ok event) :
    event.subscriptionId = record.subscriptionId ∧ event.usageTimestamp = record.eventTimeMs ∧
      event.deduplicationId = record.recordId := by
  unfold buildEvent at made
  split at made
  · cases made
  · cases flat : flattenRecord stringify separator record.record with
    | error message =>
      rw [flat] at made
      cases made
    | ok output =>
      rw [flat] at made
      rw [validateEvent_eq made]
      exact ⟨rfl, record.dateParse_moment, rfl⟩

/-! Records that both languages hold. -/

/-- A valid record, in both languages. -/
structure SharedRecord where
  valid : ValidRecord
  audr : Record.AUDR
  mirrors : audr.Mirrors valid.record

namespace SharedRecord

end SharedRecord

end Audr.Chargebee
