import Audr.Chargebee.Soundness

/-! The two sinks on the same events and the same answers. -/

namespace Audr.Chargebee

open PyChargebee (Library RetryPolicy PowerFits HintFits firstErrorCode parsed)

def UsageEvent.map {N M : Type} (f : N → M) (event : UsageEvent N) : UsageEvent M :=
  { subscriptionId := event.subscriptionId
    usageTimestamp := event.usageTimestamp
    deduplicationId := event.deduplicationId
    properties := Json.mapMembers f event.properties }

theorem idsOf_map {N M : Type} (f : N → M) (events : List (UsageEvent N)) :
    idsOf (events.map (UsageEvent.map f)) = idsOf events := by
  simp [idsOf, UsageEvent.map, Function.comp_def]

/-- A value without its numbers. -/
def unnumbered {N : Type} (value : Json N) : Json Unit := value.map fun _ => ()

/-- One body, as the two parsers read it: the same value but for how numbers are held, or no
value in either. -/
inductive SameBody : PyChargebee.Body → Body → Prop
  | value {v : Python.Value} {v' : Json Double} (same : unnumbered v = unnumbered v') :
      SameBody (.ok (some v)) (some v')
  | unparseable : SameBody (.ok none) none
  | raises (exception : Python.Exception) : SameBody (.error exception) none

/-- One answer, as the two transports hand it to the sinks. -/
inductive SameAnswer : Answer PyChargebee.Body → Answer Body → Prop
  | closed : SameAnswer .closed .closed
  | transportError (name name' : String) : SameAnswer (.transportError name) (.transportError name')
  | response (status : Nat) (header header' : Option String) {body : PyChargebee.Body} {body' : Body}
      (same : SameBody body body') : SameAnswer (.response status header body) (.response status header' body')

/-- The same result, but for the details: the lists as multisets. -/
inductive Agree : BatchResult → BatchResult → Prop
  | accepted {rejected rejected' : List (String × Option String)} {unknown unknown' : List String}
      (rejections : (rejected.map Prod.fst).Perm (rejected'.map Prod.fst)) (unknowns : unknown.Perm unknown') :
      Agree (.accepted rejected unknown) (.accepted rejected' unknown')
  | failed (retryable : Bool) (detail detail' : Option String) :
      Agree (.failed retryable detail) (.failed retryable detail')
  | closed : Agree .closed .closed

/-- The error code of every entry that is attributed can be turned into text. -/
def CodesRead (lib : Library) (ids : List String) (failed : List Python.Value) : Prop :=
  ∀ before entry after id members, failed = before ++ entry :: after → identified entry = some (id, members) →
    id ∈ ids → id ∉ namedIds before → ∃ detail, firstErrorCode lib members = .ok detail

/-- Nothing raises on the way to the Python sink's result. -/
structure Undisturbed (lib : Library) (policy : RetryPolicy) (events : List (UsageEvent Python.Number))
    (answers : Nat → Answer PyChargebee.Body) : Prop where
  encodable : ∀ event ∈ events, ∀ property ∈ event.properties, PyChargebee.printable property.2 = true
  delays : ∀ attempt, 1 ≤ attempt → attempt < settling answers 1 (policy.maxAttempts - 1) →
    PowerFits lib policy attempt ∧ HintFits lib (PyChargebee.retryAfter (answers attempt))
  body : ∀ header body, answers (settling answers 1 (policy.maxAttempts - 1)) = .response 207 header body →
    ∃ payload, body = .ok payload ∧
      ∀ failed, payload.bind failedEvents = some failed → CodesRead lib (idsOf events) failed

section Parsing

variable {N M : Type}

theorem failedEvents_map (f : N → M) (value : Json N) :
    failedEvents (value.map f) = (failedEvents value).map (Json.mapItems f) := by
  cases value with
  | obj members =>
    simp only [Json.map, failedEvents, Json.get?_mapMembers]
    cases Json.get? "failed_events" members with
    | none => rfl
    | some found => cases found <;> rfl
  | _ => rfl

theorem identified_map (f : N → M) (value : Json N) :
    identified (value.map f) = (identified value).map fun pair => (pair.1, Json.mapMembers f pair.2) := by
  cases value with
  | obj members =>
    simp only [Json.map, identified, Json.get?_mapMembers]
    cases Json.get? "deduplication_id" members with
    | none => rfl
    | some found => cases found <;> rfl
  | _ => rfl

end Parsing

/-- What two runs of the matching loop have in common. -/
structure Matched.Alike (found other : Matched) : Prop where
  rejected : found.rejected.map Prod.fst = other.rejected.map Prod.fst
  rejectedIds : found.rejectedIds = other.rejectedIds
  unattributed : found.unattributed = other.unattributed

theorem Matched.Alike.initial : Matched.Alike {} {} := ⟨rfl, rfl, rfl⟩

theorem Matched.Alike.miss {found other : Matched} (alike : found.Alike other) : found.miss.Alike other.miss :=
  ⟨alike.rejected, alike.rejectedIds, congrArg (· + 1) alike.unattributed⟩

theorem Matched.Alike.reject {found other : Matched} (alike : found.Alike other) (ids : List String) (id : String)
    (detail detail' : Option String) : (found.reject ids id detail).Alike (other.reject ids id detail') := by
  constructor
  · simp [Matched.reject, alike.rejected]
  · simp [Matched.reject, alike.rejectedIds]
  · exact alike.unattributed

theorem Matched.Alike.symm {found other : Matched} (alike : found.Alike other) : other.Alike found :=
  ⟨alike.rejected.symm, alike.rejectedIds.symm, alike.unattributed.symm⟩

theorem Matched.Alike.trans {found other third : Matched} (first : found.Alike other) (second : other.Alike third) :
    found.Alike third :=
  ⟨first.rejected.trans second.rejected, first.rejectedIds.trans second.rejectedIds,
    first.unattributed.trans second.unattributed⟩

/-- Matching does not depend on how numbers are held or on what is reported of an entry. -/
theorem matchEntries_map {N M : Type} (f : N → M) (detail : List (String × Json N) → Option String)
    (detail' : List (String × Json M) → Option String) (ids : List String) (failed : List (Json N))
    {found other : Matched} (alike : found.Alike other) :
    (matchEntries detail ids failed found).Alike (matchEntries detail' ids (Json.mapItems f failed) other) := by
  induction failed generalizing found other with
  | nil => exact alike
  | cons entry rest ih =>
    rw [Json.mapItems, matchEntries, matchEntries, identified_map]
    cases identified entry with
    | none => exact ih alike.miss
    | some pair =>
      obtain ⟨id, members⟩ := pair
      simp only [Option.map_some, ← alike.rejectedIds]
      split
      · exact ih (alike.reject ids id _ _)
      · exact ih alike.miss

theorem matchEntries_alike {N M : Type} (detail : List (String × Json N) → Option String)
    (detail' : List (String × Json M) → Option String) (ids : List String) {failed : List (Json N)}
    {failed' : List (Json M)}
    (same : Json.mapItems (fun _ => ()) failed = Json.mapItems (fun _ => ()) failed') :
    (matchEntries detail ids failed {}).Alike (matchEntries detail' ids failed' {}) := by
  have left := matchEntries_map (fun _ => ()) detail (fun _ => none) ids failed Matched.Alike.initial
  have right := matchEntries_map (fun _ => ()) detail' (fun _ => none) ids failed' Matched.Alike.initial
  rw [same] at left
  exact left.trans right.symm

/-- The same value has the same entries in `failed_events`, or none in either language. -/
theorem failedEvents_same {N M : Type} {value : Json N} {value' : Json M}
    (same : unnumbered value = unnumbered value') :
    (failedEvents value).map (Json.mapItems fun _ => ()) = (failedEvents value').map (Json.mapItems fun _ => ()) := by
  rw [← failedEvents_map, ← failedEvents_map]
  exact congrArg failedEvents same

theorem Matched.Alike.result {found other : Matched} (alike : found.Alike other) (ids : List String) :
    Agree (found.result ids) (other.result ids) := by
  unfold Matched.result
  rw [alike.unattributed, alike.rejectedIds]
  split
  · exact .accepted (.of_eq alike.rejected) .rfl
  · exact .accepted (.of_eq alike.rejected) .rfl

/-- The codes a matching loop has to read, given the ids it has rejected already. -/
def CodesReadAfter (lib : Library) (ids seen : List String) (failed : List Python.Value) : Prop :=
  ∀ before entry after id members, failed = before ++ entry :: after → identified entry = some (id, members) →
    id ∈ ids → id ∉ seen → id ∉ namedIds before → ∃ detail, firstErrorCode lib members = .ok detail

theorem codesReadAfter_cons (lib : Library) (ids seen : List String) (entry : Python.Value)
    (rest : List Python.Value) :
    CodesReadAfter lib ids seen (entry :: rest) ↔
      match identified entry with
      | some (id, members) =>
          if id ∈ ids ∧ id ∉ seen then
            (∃ detail, firstErrorCode lib members = .ok detail) ∧ CodesReadAfter lib ids (seen ++ [id]) rest
          else CodesReadAfter lib ids seen rest
      | none => CodesReadAfter lib ids seen rest := by
  have peel : CodesReadAfter lib ids seen (entry :: rest) ↔
      (∀ id members, identified entry = some (id, members) → id ∈ ids → id ∉ seen →
        ∃ detail, firstErrorCode lib members = .ok detail) ∧
      ∀ before other after id members, rest = before ++ other :: after → identified other = some (id, members) →
        id ∈ ids → id ∉ seen → id ∉ namedIds (entry :: before) →
        ∃ detail, firstErrorCode lib members = .ok detail := by
    constructor
    · intro read
      refine ⟨fun id members named => ?_, fun before other after id members split => ?_⟩
      · intro present fresh
        exact read [] entry rest id members rfl named present fresh (by simp [namedIds])
      · exact read (entry :: before) other after id members (by rw [split]; rfl)
    · rintro ⟨first, later⟩ before other after id members split named present fresh unnamed
      cases before with
      | nil =>
        cases split
        exact first id members named present fresh
      | cons head before =>
        cases split
        exact later before other after id members rfl named present fresh unnamed
  rw [peel]
  cases named : identified entry with
  | none => simp [CodesReadAfter, namedIds_cons, named]
  | some pair =>
    obtain ⟨id, members⟩ := pair
    simp only [namedIds_cons, named, List.mem_cons, not_or]
    split
    next fresh =>
      apply and_congr
      · simp [fresh]
      · simp only [CodesReadAfter, List.mem_append, List.mem_singleton, not_or]
        grind
    next known =>
      have first : ∀ id' members', some (id, members) = some (id', members') → id' ∈ ids → id' ∉ seen →
          ∃ detail, firstErrorCode lib members' = .ok detail := by
        rintro _ _ ⟨⟩ present fresh
        exact absurd ⟨present, fresh⟩ known
      simp only [CodesReadAfter]
      constructor
      · rintro ⟨-, later⟩ before other after id' members' split named' present fresh unnamed
        refine later before other after id' members' split named' present fresh ⟨?_, unnamed⟩
        rintro rfl
        exact known ⟨present, fresh⟩
      · intro later
        refine ⟨first, fun before other after id' members' split named' present fresh unnamed => ?_⟩
        exact later before other after id' members' split named' present fresh unnamed.2

/-- The Python loop ends exactly when every code it has to read is read. -/
theorem matchFailed_ok (lib : Library) (ids : List String) (failed : List Python.Value) (found : Matched) :
    (∃ after, PyChargebee.matchFailed lib ids failed found = .ok after) ↔
      CodesReadAfter lib ids found.rejectedIds failed := by
  induction failed generalizing found with
  | nil => simp [PyChargebee.matchFailed, CodesReadAfter]
  | cons entry rest ih =>
    rw [PyChargebee.matchFailed, codesReadAfter_cons]
    cases identified entry with
    | none => exact ih found.miss
    | some pair =>
      obtain ⟨id, members⟩ := pair
      simp only
      split
      · cases firstErrorCode lib members with
        | error exception => simp
        | ok detail =>
          simp only [Except.ok.injEq, exists_eq', true_and]
          exact ih (found.reject ids id detail)
      · exact ih found.miss

theorem SameAnswer.retried {answer : Answer PyChargebee.Body} {answer' : Answer Body}
    (same : SameAnswer answer answer') : answer.retried = answer'.retried := by
  cases same <;> rfl

theorem settling_same {answers : Nat → Answer PyChargebee.Body} {answers' : Nat → Answer Body}
    (same : ∀ attempt, SameAnswer (answers attempt) (answers' attempt)) (attempt left : Nat) :
    settling answers attempt left = settling answers' attempt left := by
  induction left generalizing attempt with
  | zero => rfl
  | succ left ih => rw [settling, settling, (same attempt).retried, ih]

/-- What the body of an answer must be for the Python sink to read it. -/
def BodyRead (lib : Library) (ids : List String) (answer : Answer PyChargebee.Body) : Prop :=
  ∀ header body, answer = .response 207 header body → ∃ payload, body = .ok payload ∧
    ∀ failed, payload.bind failedEvents = some failed → CodesRead lib ids failed

theorem bodyRead_of_ne {lib : Library} {ids : List String} {answer : Answer PyChargebee.Body}
    (other : ∀ header body, answer ≠ .response 207 header body) : BodyRead lib ids answer :=
  fun header body same => absurd same (other header body)

/-- What `_success_outcome` makes of a `207` agrees with `#partial`, where it returns. -/
theorem successOutcome_agree {lib : Library} (text : Double → String) {ids : List String}
    {body : PyChargebee.Body} {body' : Body} (same : SameBody body body') {result : BatchResult}
    (read : PyChargebee.successOutcome lib ids body = .ok result) : Agree result (partialResult text ids body') := by
  cases same with
  | raises exception => cases read
  | unparseable =>
    cases read
    exact .accepted .rfl .rfl
  | @value v v' same =>
    have entries := failedEvents_same same
    simp only [PyChargebee.successOutcome, Option.bind_some] at read
    simp only [partialResult, Option.bind_some]
    cases failing : failedEvents v with
    | none =>
      rw [failing] at read entries
      cases read
      cases other : failedEvents v' with
      | none => exact .accepted .rfl .rfl
      | some failed' =>
        rw [other] at entries
        cases entries
    | some failed =>
      rw [failing] at read entries
      simp only at read
      cases other : failedEvents v' with
      | none =>
        rw [other] at entries
        cases entries
      | some failed' =>
        rw [other] at entries
        cases matched : PyChargebee.matchFailed lib ids failed {} with
        | error exception =>
          rw [matched] at read
          cases read
        | ok found =>
          rw [matched] at read
          cases read
          rw [PyChargebee.matchFailed_eq matched]
          exact (matchEntries_alike _ _ ids (Option.some.inj entries)).result ids

theorem successOutcome_ok (lib : Library) (ids : List String) (body : PyChargebee.Body) :
    (∃ result, PyChargebee.successOutcome lib ids body = .ok result) ↔
      ∃ payload, body = .ok payload ∧
        ∀ failed, payload.bind failedEvents = some failed → CodesRead lib ids failed := by
  cases body with
  | error exception => simp [PyChargebee.successOutcome]
  | ok payload =>
    simp only [PyChargebee.successOutcome, Except.ok.injEq, exists_eq_left']
    cases failing : payload.bind failedEvents with
    | none => simp
    | some failed =>
      have loop := matchFailed_ok lib ids failed {}
      simp only [Option.some.injEq, forall_eq']
      cases matched : PyChargebee.matchFailed lib ids failed {} with
      | error exception =>
        rw [matched] at loop
        simpa [CodesReadAfter, CodesRead] using loop
      | ok found =>
        rw [matched] at loop
        simpa [CodesReadAfter, CodesRead] using loop

theorem react_ok (lib : Library) (ids : List String) (answer : Answer PyChargebee.Body) :
    (∃ reaction, PyChargebee.react lib ids answer = .ok reaction) ↔ BodyRead lib ids answer := by
  cases answer with
  | closed => simp [PyChargebee.react, BodyRead]
  | transportError name => simp [PyChargebee.react, BodyRead]
  | response status header body =>
    by_cases multi : status = 207
    · subst multi
      have readable : BodyRead lib ids (.response 207 header body) ↔
          ∃ result, PyChargebee.successOutcome lib ids body = .ok result := by
        rw [successOutcome_ok]
        constructor
        · intro read
          exact read header body rfl
        · rintro read _ _ ⟨⟩
          exact read
      rw [readable]
      cases outcome : PyChargebee.successOutcome lib ids body <;> simp [PyChargebee.react, outcome]
    · have read : BodyRead lib ids (.response status header body) :=
        bodyRead_of_ne fun _ _ same => multi (Answer.response.inj same).1
      simp only [read, iff_true, PyChargebee.react, if_neg multi]
      split_ifs
      · exact ⟨_, rfl⟩
      · exact ⟨_, rfl⟩
      · split <;> exact ⟨_, rfl⟩

theorem react_agree {lib : Library} (text : Double → String) {ids : List String}
    {answer : Answer PyChargebee.Body} {answer' : Answer Body} (same : SameAnswer answer answer')
    {reaction : Reaction} (reacted : PyChargebee.react lib ids answer = .ok reaction) :
    Agree reaction.result (react text ids answer').result := by
  cases same with
  | closed =>
    cases reacted
    exact .closed
  | transportError name name' =>
    cases reacted
    exact .failed _ _ _
  | response status header header' body =>
    simp only [PyChargebee.react] at reacted
    simp only [react]
    by_cases all : status = 202
    · subst all
      cases reacted
      exact .accepted .rfl .rfl
    rw [if_neg all] at reacted
    rw [if_neg all]
    by_cases multi : status = 207
    · rw [if_pos multi] at reacted
      rw [if_pos multi]
      split at reacted
      · cases reacted
      next result read =>
        cases reacted
        exact successOutcome_agree text body read
    rw [if_neg multi] at reacted
    rw [if_neg multi]
    by_cases large : status = 413
    · rw [if_pos large] at reacted
      rw [if_pos large]
      cases reacted
      exact .failed _ _ _
    · rw [if_neg large] at reacted
      rw [if_neg large]
      have classes : classify status = PyChargebee.classify status := rfl
      rw [classes]
      cases failure : PyChargebee.classify status <;>
        (rw [failure] at reacted; cases reacted; exact .failed _ _ _)

theorem encodeBatch_ok (events : List (UsageEvent Python.Number)) :
    PyChargebee.encodeBatch events = .ok () ↔
      ∀ event ∈ events, ∀ property ∈ event.properties, PyChargebee.printable property.2 = true := by
  unfold PyChargebee.encodeBatch
  simp [List.all_eq_true]

/-- `_send_batch` returns exactly when nothing raises on the way. -/
theorem sendBatch_ok (lib : Library) (policy : RetryPolicy) (events : List (UsageEvent Python.Number))
    (answers : Nat → Answer PyChargebee.Body) :
    (∃ result, PyChargebee.sendBatch lib policy events answers = .ok result) ↔
      Undisturbed lib policy events answers := by
  unfold PyChargebee.sendBatch
  cases encoded : PyChargebee.encodeBatch events with
  | error exception =>
    constructor
    · rintro ⟨result, impossible⟩
      cases impossible
    · intro undisturbed
      rw [(encodeBatch_ok events).mpr undisturbed.encodable] at encoded
      cases encoded
  | ok done =>
    have encodable := (encodeBatch_ok events).mp encoded
    constructor
    · rintro ⟨⟨result, last⟩, sent⟩
      obtain ⟨rfl, delays, reaction, reacted, -⟩ := (PyChargebee.sendFrom_ok _ _ _ _).mp sent
      refine ⟨encodable, fun attempt low high => ?_, (react_ok _ _ _).mp ⟨reaction, reacted⟩⟩
      exact (PyChargebee.delayFor_ok _ _).mp (delays attempt low high)
    · intro undisturbed
      obtain ⟨reaction, reacted⟩ := (react_ok lib (idsOf events) _).mpr undisturbed.body
      refine ⟨(reaction.result, _), (PyChargebee.sendFrom_ok _ _ _ _).mpr ⟨rfl, fun attempt low high => ?_,
        reaction, reacted, rfl⟩⟩
      exact (PyChargebee.delayFor_ok _ _).mpr (undisturbed.delays attempt low high)

/-- The sinks agree, after the same number of requests, exactly when nothing raises on the way
to the Python sink's result. What doubles the numbers of the events are held as is arbitrary. -/
theorem responses_agree (lib : Library) (text : Double → String) (policy : RetryPolicy)
    (events : List (UsageEvent Python.Number)) (answers : Nat → Answer PyChargebee.Body)
    (answers' : Nat → Answer Body) (number : Python.Number → Double)
    (same : ∀ attempt, SameAnswer (answers attempt) (answers' attempt)) :
    (∃ result requests, PyChargebee.sendBatch lib policy events answers = .ok (result, requests) ∧
        Agree result (send text policy.maxAttempts (events.map (UsageEvent.map number)) answers').1 ∧
        requests = (send text policy.maxAttempts (events.map (UsageEvent.map number)) answers').2) ↔
      Undisturbed lib policy events answers := by
  rw [← sendBatch_ok]
  constructor
  · rintro ⟨result, requests, sent, -⟩
    exact ⟨_, sent⟩
  · rintro ⟨⟨result, requests⟩, sent⟩
    refine ⟨result, requests, sent, ?_⟩
    unfold PyChargebee.sendBatch at sent
    split at sent
    · cases sent
    · obtain ⟨rfl, -, reaction, reacted, rfl⟩ := (PyChargebee.sendFrom_ok _ _ _ _).mp sent
      rw [send, sendFrom_eq, idsOf_map, ← settling_same same]
      exact ⟨react_agree text (same _) reacted, rfl⟩

def steep : ℚ := 2 ^ 600

/-- A policy whose second power is beyond the largest float. -/
def steepPolicy : RetryPolicy :=
  { RetryPolicy.standard with
    maxAttempts := 4
    multiplier := .float steep
    attempts_pos := by decide
    convertible := by decide
    multiplier_ge := one_le_pow₀ (by norm_num) }

def plainEvent : UsageEvent Python.Number :=
  { subscriptionId := "sub"
    usageTimestamp := 1700000000000
    deduplicationId := "r-1"
    properties := [("spec_version", .str "0.1")] }

/-- Two events of one id: the first answer is retried, and the `207` after it names the id. -/
theorem responses_agree_accepted :
    Undisturbed plainLibrary .standard [plainEvent, plainEvent] (namingAnswers (.ok none) (.ok (some namingBody))) ∧
      ∃ result requests, PyChargebee.sendBatch plainLibrary .standard [plainEvent, plainEvent]
        (namingAnswers (.ok none) (.ok (some namingBody))) = .ok (result, requests) ∧
        Agree result (send (fun _ => "") 3 ([plainEvent, plainEvent].map (UsageEvent.map fun _ => .nan))
          (namingAnswers none (some namingBody))).1 ∧
        requests = (send (fun _ => "") 3 ([plainEvent, plainEvent].map (UsageEvent.map fun _ => .nan))
          (namingAnswers none (some namingBody))).2 := by
  have second : settling (namingAnswers (.ok none) (.ok (some namingBody)) : Nat → Answer PyChargebee.Body) 1
      (RetryPolicy.standard.maxAttempts - 1) = 2 := by decide
  have undisturbed : Undisturbed plainLibrary .standard [plainEvent, plainEvent]
      (namingAnswers (.ok none) (.ok (some namingBody))) := by
    refine ⟨by decide, fun attempt low high => ?_, fun header body settled => ?_⟩
    · obtain rfl : attempt = 1 := by omega
      refine ⟨?_, fun text seconds none => by cases none⟩
      have fits : 1 < Double.bound := one_lt_pow₀ (by norm_num) (by norm_num)
      simpa [PowerFits, RetryPolicy.standard, plainLibrary] using fits
    · rw [second] at settled
      cases settled
      refine ⟨_, rfl, fun failed listed before entry after id members split named present fresh => ?_⟩
      cases listed
      have only : entry = namingEntry := by
        have member : entry ∈ ([namingEntry] : List Python.Value) := split ▸ List.mem_append_right _ List.mem_cons_self
        exact List.mem_singleton.mp member
      rw [only] at named
      cases named
      exact ⟨_, rfl⟩
  have same : ∀ attempt, SameAnswer (namingAnswers (.ok none) (.ok (some namingBody)) attempt)
      (namingAnswers none (some namingBody) attempt) := by
    intro attempt
    unfold namingAnswers
    split
    · exact .response _ _ _ .unparseable
    · exact .response _ _ _ (.value rfl)
  exact ⟨undisturbed, (responses_agree plainLibrary (fun _ => "") .standard [plainEvent, plainEvent] _ _ (fun _ => .nan)
    same).mpr undisturbed⟩

/-- After two connection errors the Python sink raises where the other one reports them. -/
theorem steep_policy_raises :
    (send (fun _ => "") 4 [plainEvent.map fun _ => .nan] (fun _ => .transportError "ECONNREFUSED")).1 =
        .failed true (some "ECONNREFUSED") ∧
      (∀ attempt : Nat, SameAnswer ((fun _ => .transportError "ConnectError" : Nat → Answer PyChargebee.Body) attempt)
        ((fun _ => .transportError "ECONNREFUSED" : Nat → Answer Body) attempt)) ∧
      ¬ ∃ result, PyChargebee.sendBatch plainLibrary steepPolicy [plainEvent]
        (fun _ => .transportError "ConnectError") = .ok result := by
  refine ⟨by decide, fun _ => .transportError _ _, ?_⟩
  rw [sendBatch_ok]
  intro undisturbed
  have settled : settling (fun _ => (.transportError "ConnectError" : Answer PyChargebee.Body)) 1
    (steepPolicy.maxAttempts - 1) = 4 := by decide
  have fits : plainLibrary.pow steep 2 ≠ none := (undisturbed.delays 3 (by omega) (by omega)).1
  have overflow : ¬ steep ^ 2 < Double.bound := by
    rw [not_lt, steep, ← pow_mul]
    exact pow_le_pow_right₀ (by norm_num) (by norm_num)
  apply fits
  simp only [plainLibrary]
  rw [if_neg overflow]

end Audr.Chargebee
