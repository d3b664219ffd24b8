import Audr.Lib.Double
import Audr.Lib.OrderedMap
import Audr.NemoRelay.Attribution

/-! The mapping of NeMo Relay events to metered operations. `ScopeTracker` keeps the open
scopes and remembers the retired ones, both up to a bound. -/

namespace Audr.NemoRelay

open Python (Value)
open Record (Attribution)

/-- How `_parse_timestamp` fares with a string; times are microseconds in UTC. -/
inductive Clock where
  | refused
  | naive
  | overflow
  | at (microseconds : Int)
  deriving DecidableEq, Repr

/-- What the standard library and Pydantic decide: lower case, ISO 8601 timestamps and
their conversion to UTC, and whether a reported cost is a valid and finite `Cost`. -/
structure Library (C : Type) where
  lower : String → String
  fromIsoFormat : String → Clock
  validateCost : Value → Value → Option C
  isFinite : C → Bool

/-- The fields every metered operation has, the provider apart. -/
structure SharedFields where
  scopeId : String
  runId : String
  parentSpanId : Option String
  eventTime : Int
  durationMs : Nat
  attribution : Attribution
  deriving DecidableEq

/-- The counters and names of a completed call; `C` is the type of a reported cost. -/
inductive OperationDetail (C : Type) where
  | llm (model : String) (inputTokens outputTokens cacheReadTokens cacheWriteTokens : Option Nat)
      (cost : Option C)
  | tool (tool : String) (failed : Bool)
  deriving DecidableEq

structure Operation (C : Type) where
  shared : SharedFields
  provider : String
  detail : OperationDetail C
  deriving DecidableEq

inductive MappingResult (C : Type) where
  | ignored (evicted : Nat)
  | ready (operation : Operation C)
  | skipped (path : String)
  | malformed (path : String)
  deriving DecidableEq

structure ScopeState where
  parentUuid : Option String
  rootUuid : String
  startedAt : Int
  attribution : Option Attribution
  attributionIssue : Option String
  deriving DecidableEq

/-- `ScopeTracker`, with its two ordered maps. -/
structure ScopeTracker where
  defaults : Attribution
  maxScopes : Nat
  scopes : List (String × ScopeState)
  retired : List String
  deriving DecidableEq

def ScopeTracker.create (defaults : Attribution) (maxScopes : Nat) : ScopeTracker :=
  ⟨defaults, maxScopes, [], []⟩

abbrev Event := List (String × Value)

/-- Why a normalization stops: a `MappingFailure`, or an exception nobody expects. -/
inductive Failure where
  | skipped (path : String)
  | malformed (path : String)
  | raises (exception : Python.Exception)
  deriving DecidableEq, Repr

variable {C : Type}

def hexDigit (c : Char) : Bool := c.isDigit || ('a' ≤ c && c ≤ 'f') || ('A' ≤ c && c ≤ 'F')

/-- `is_uuid`: thirty-two hexadecimal digits of either case in their canonical groups. -/
def isUuid (value : String) : Bool :=
  value.toList.length = 36 &&
    value.toList.zipIdx.all fun entry =>
      if entry.2 ∈ [8, 13, 18, 23] then entry.1 = '-' else hexDigit entry.1

/-- `value.replace("Z", "+00:00")`. -/
def replaceZ (value : String) : String :=
  String.ofList (value.toList.flatMap fun c => if c = 'Z' then "+00:00".toList else [c])

def parseTimestamp (lib : Library C) : Option Value → Clock
  | some (.str text) => lib.fromIsoFormat (replaceZ text)
  | _ => .refused

/-- `_elapsed_ms`, in floating point. -/
def elapsedMs (start stop : Int) : Nat :=
  let seconds := Double.nearest ((stop - start : ℚ) / 1000000)
  let milliseconds := Double.nearest (seconds * 1000)
  ⌊milliseconds⌋.toNat

def firstNonEmptyString : List (Option Value) → Option String
  | [] => none
  | some (.str text) :: rest => if text = "" then firstNonEmptyString rest else some text
  | _ :: rest => firstNonEmptyString rest

def requiredMapping (value : Option Value) (path : String) (skipped : Bool) :
    Except Failure (List (String × Value)) :=
  match value with
  | some (.obj members) => .ok members
  | _ => .error (if skipped then .skipped path else .malformed path)

/-- `_PROVIDER_ALLOWED.sub("-", text)`: every run of other characters becomes one hyphen. -/
def replaceOthers : List Char → List Char
  | [] => []
  | c :: rest =>
      if c.isDigit || ('a' ≤ c && c ≤ 'z') || c = '-' then c :: replaceOthers rest
      else
        match rest with
        | [] => ['-']
        | d :: _ =>
            if d.isDigit || ('a' ≤ d && d ≤ 'z') || d = '-' then '-' :: replaceOthers rest
            else replaceOthers rest

def stripHyphens (text : List Char) : List Char :=
  ((text.dropWhile (· = '-')).reverse.dropWhile (· = '-')).reverse

def providerFrom (lib : Library C) (event : Event) : Except Failure String :=
  match firstNonEmptyString [Json.get? "name" event] with
  | none => .error (.malformed "/name")
  | some name =>
      let provider := stripHyphens (replaceOthers (lib.lower name).toList)
      if provider = [] then .error (.malformed "/name") else .ok (String.ofList provider)

/-- `_reports_exclusive_prompt`. -/
def reportsExclusivePrompt (annotated : List (String × Value)) : Except Failure Bool :=
  match Json.get? "api_specific" annotated with
  | some (.obj members) =>
      match Json.get? "api" members with
      | some api => if Python.hashable api then .ok (api = .str "anthropic_messages") else .error (.raises .typeError)
      | none => .ok false
  | _ => .ok false

/-- `_exclusive_count`. -/
def exclusiveCount (total read write : Option Nat) : Option Nat :=
  match total with
  | none => none
  | some count => if read = none ∧ write = none then some count else some (count - (read.getD 0 + write.getD 0))

def optionalCounter (values : List (String × Value)) (key : String) : Except Failure (Option Nat) :=
  match Json.get? key values with
  | none => .ok none
  | some .null => .ok none
  | some (.num (.int (.ofNat count))) => .ok (some count)
  | some _ => .error (.malformed ("/category_profile/annotated_response/usage/" ++ key))

def providerReportedCost (lib : Library C) (value : Option Value) : Option C :=
  match value with
  | some (.obj members) =>
      if Json.get? "source" members = some (.str "provider_reported") then
        (lib.validateCost ((Json.get? "total" members).getD .null)
          ((Json.get? "currency" members).getD .null)).filter lib.isFinite
      else none
  | _ => none

def normalizeLlm (lib : Library C) (event : Event) (shared : SharedFields) :
    Except Failure (Operation C) := do
  let profile ← requiredMapping (Json.get? "category_profile" event) "/category_profile" false
  let annotated ← requiredMapping (Json.get? "annotated_response" profile)
    "/category_profile/annotated_response" true
  let usage ← requiredMapping (Json.get? "usage" annotated)
    "/category_profile/annotated_response/usage" true
  match firstNonEmptyString [Json.get? "model" annotated, Json.get? "model_name" profile] with
  | none => .error (.skipped "/category_profile/annotated_response/model")
  | some model =>
      let cacheRead ← optionalCounter usage "cache_read_tokens"
      let cacheWrite ← optionalCounter usage "cache_write_tokens"
      let prompt ← optionalCounter usage "prompt_tokens"
      let exclusive ← reportsExclusivePrompt annotated
      let inputTokens := if exclusive then prompt else exclusiveCount prompt cacheRead cacheWrite
      let outputTokens ← optionalCounter usage "completion_tokens"
      let provider ← providerFrom lib event
      return ⟨shared, provider, .llm model inputTokens outputTokens cacheRead cacheWrite
        (providerReportedCost lib (Json.get? "cost" usage))⟩

def normalizeTool (event : Event) (shared : SharedFields) : Except Failure (Operation C) :=
  match firstNonEmptyString [Json.get? "name" event] with
  | none => .error (.malformed "/name")
  | some tool =>
      let failed :=
        match Json.get? "metadata" event with
        | some (.obj members) => Json.get? "otel.status_code" members = some (.str "ERROR")
        | _ => false
      .ok ⟨shared, "self-hosted", .tool tool failed⟩

namespace ScopeTracker

/-- `_retire`. -/
def retire (uuid : String) (limit : Nat) (retired : List String) : List String :=
  OrderedMap.trim limit (retired.filter (· ≠ uuid) ++ [uuid])

/-- `_evict_overflow`: the oldest open scopes are retired until the rest fit. -/
def evictOverflow (limit : Nat) : List (String × ScopeState) → List String → Nat →
    List (String × ScopeState) × List String × Nat
  | [], retired, evicted => ([], retired, evicted)
  | entry :: rest, retired, evicted =>
      if limit < rest.length + 1 then evictOverflow limit rest (retire entry.1 limit retired) (evicted + 1)
      else (entry :: rest, retired, evicted)

/-- A scope that is its own billing root. -/
def rootState (uuid : String) (parent : Option String) (timestamp : Int)
    (resolved : Except String Attribution) : ScopeState :=
  match resolved with
  | .ok attribution => ⟨parent, uuid, timestamp, some attribution, none⟩
  | .error issue => ⟨parent, uuid, timestamp, none, some issue⟩

/-- `_start_state`. -/
def startState (t : ScopeTracker) (uuid : String) (parent : Option String) (timestamp : Int)
    (metadata : Option Value) : ScopeState :=
  let declares := declaresAttribution metadata
  match parent.bind (OrderedMap.get? t.scopes), declares with
  | some state, false => ⟨parent, state.rootUuid, timestamp, state.attribution, state.attributionIssue⟩
  | _, _ =>
      if !declares && parent.any (· ∈ t.retired) then
        ⟨parent, uuid, timestamp, none, some "/scope/parent_uuid"⟩
      else rootState uuid parent timestamp (resolveAttribution t.defaults metadata)

/-- `_track_start`. -/
def trackStart (t : ScopeTracker) (uuid : String) (parent : Option String) (timestamp : Int)
    (metadata : Option Value) : ScopeTracker × MappingResult C :=
  let scopes := OrderedMap.set t.scopes uuid (startState t uuid parent timestamp metadata)
  let (scopes, retired, evicted) := evictOverflow t.maxScopes scopes t.retired 0
  ({ t with scopes, retired }, .ignored evicted)

/-- `_complete` once the scope is off the open ones. -/
def finish (lib : Library C) (event : Event) (uuid : String) (timestamp : Int)
    (state : Option ScopeState) : Except Python.Exception (MappingResult C) :=
  match Json.get? "category" event with
  | some (.str category) =>
      if category ≠ "llm" ∧ category ≠ "tool" then .ok (.ignored 0)
      else
        match state with
        | none => .ok (.skipped "/scope/start")
        | some state =>
            match state.attribution with
            | none => .ok (.skipped (state.attributionIssue.getD "/attribution"))
            | some attribution =>
                let shared : SharedFields :=
                  { scopeId := uuid
                    runId := state.rootUuid
                    parentSpanId := if state.rootUuid = uuid then none else state.parentUuid
                    eventTime := timestamp
                    durationMs := elapsedMs state.startedAt timestamp
                    attribution }
                match if category = "llm" then normalizeLlm lib event shared else normalizeTool event shared with
                | .ok operation => .ok (.ready operation)
                | .error (.skipped path) => .ok (.skipped path)
                | .error (.malformed path) => .ok (.malformed path)
                | .error (.raises exception) => .error exception
  | some category => if Python.hashable category then .ok (.ignored 0) else .error .typeError
  | none => .ok (.ignored 0)

/-- `_complete`. -/
def complete (lib : Library C) (t : ScopeTracker) (event : Event) (uuid : String) (timestamp : Int) :
    ScopeTracker × Except Python.Exception (MappingResult C) :=
  match OrderedMap.get? t.scopes uuid with
  | some state =>
      ({ t with
          scopes := OrderedMap.erase t.scopes uuid
          retired := retire uuid t.maxScopes t.retired },
        finish lib event uuid timestamp (some state))
  | none => (t, finish lib event uuid timestamp none)

end ScopeTracker

/-- What `_consume` finds before it looks at the scopes. -/
inductive Reading (C : Type) where
  | done (result : Except Python.Exception (MappingResult C))
  | start (uuid : String) (parent : Option String) (timestamp : Int) (metadata : Option Value)
  | stop (uuid : String) (timestamp : Int)

/-- The checks of `parent_uuid`; an absent one is the same as `None`. -/
def readParent : Option Value → Option (Option String)
  | none => some none
  | some .null => some none
  | some (.str parent) => if isUuid parent then some (some parent) else none
  | some _ => none

/-- `_consume` from its first line to where it tells starts from ends. -/
def read (lib : Library C) (event : Event) : Reading C :=
  if Json.get? "kind" event ≠ some (.str "scope") then .done (.ok (.ignored 0))
  else
    match Json.get? "scope_category" event with
    | some (.str category) =>
        if category ≠ "start" ∧ category ≠ "end" then .done (.ok (.malformed "/scope_category"))
        else
          match Json.get? "uuid" event with
          | some (.str uuid) =>
              if !isUuid uuid then .done (.ok (.malformed "/uuid"))
              else
                match parseTimestamp lib (Json.get? "timestamp" event) with
                | .refused => .done (.ok (.malformed "/timestamp"))
                | .naive => .done (.ok (.malformed "/timestamp"))
                | .overflow => .done (.error .overflowError)
                | .at timestamp =>
                    match readParent (Json.get? "parent_uuid" event) with
                    | none => .done (.ok (.malformed "/parent_uuid"))
                    | some parent =>
                        if category = "start" then .start uuid parent timestamp (Json.get? "metadata" event)
                        else .stop uuid timestamp
          | _ => .done (.ok (.malformed "/uuid"))
    | some category =>
        if Python.hashable category then .done (.ok (.malformed "/scope_category")) else .done (.error .typeError)
    | none => .done (.ok (.malformed "/scope_category"))

/-- `consume`. -/
def ScopeTracker.consume (lib : Library C) (t : ScopeTracker) (event : Event) :
    ScopeTracker × Except Python.Exception (MappingResult C) :=
  match read lib event with
  | .done result => (t, result)
  | .start uuid parent timestamp metadata =>
      let (t, result) := t.trackStart uuid parent timestamp metadata
      (t, .ok result)
  | .stop uuid timestamp => t.complete lib event uuid timestamp

end Audr.NemoRelay
