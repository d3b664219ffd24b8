import Audr.Record.Reading

/-! A record written in Python is read back in Python as it was, to the millisecond, and is then
written as the same text. -/

namespace Audr.Record

open Fields (present)
open JsRecord (Text)
open Properties (mapValues)

variable {library : Library} {numerals : Numerals} {pydantic : Pydantic} {minted : Minted} {record : AUDR} {now : Int}

/-! What is written of dumps that differ in the order of members. -/

/-- Dumps with the same members in some order, and the same texts for their moments. -/
inductive Dump.Same (library : Library) : Dump → Dump → Prop
  | number (number : Python.Number) : Same library (.number number) (.number number)
  | datetime {a b : Moment} (shown : toRfc3339Ms library a = toRfc3339Ms library b) : Same library (.datetime a) (.datetime b)
  | text (text : String) : Same library (.text text) (.text text)
  | dict {members others : List (String × Dump)} (names : (others.map Prod.fst).Perm (members.map Prod.fst))
      (distinct : (members.map Prod.fst).Nodup)
      (each : ∀ {name a b}, (name, a) ∈ members → (name, b) ∈ others → Same library a b) :
      Same library (.dict members) (.dict others)

theorem Dump.Formed.same {dump : Dump} (formed : dump.Formed) : Dump.Same library dump dump := by
  induction formed with
  | number => exact .number _
  | datetime => exact .datetime rfl
  | text => exact .text _
  | dict distinct each ih =>
    apply Dump.Same.dict (List.Perm.refl _) distinct
    intro name a b first second
    have one := List.inj_on_of_nodup_map distinct first second rfl
    rw [← (Prod.mk.inj one).2]
    exact ih _ first

theorem sortPoints_congr {V : Type} {entries other : List (String × V)} (same : entries.Perm other)
    (distinct : (entries.map Prod.fst).Nodup) : sortPoints entries = sortPoints other := by
  have sorted : ∀ entries : List (String × V), (sortPoints entries).Pairwise pointsBefore := by
    have : Std.Total (pointsBefore (V := V)) := ⟨fun a b => le_total (codePoints a.1) (codePoints b.1)⟩
    have : IsTrans (String × V) pointsBefore :=
      ⟨fun a b c first second => le_trans (show codePoints a.1 ≤ codePoints b.1 from first) second⟩
    exact List.pairwise_insertionSort pointsBefore
  apply List.Perm.eq_of_pairwise _ (sorted entries) (sorted other)
    ((sortPoints_perm entries).trans (same.trans (sortPoints_perm other).symm))
  intro a b first second le ge
  have first := (sortPoints_perm entries).mem_iff.mp first
  have second := same.mem_iff.mpr ((sortPoints_perm other).mem_iff.mp second)
  exact List.inj_on_of_nodup_map distinct first second (codePoints_injective (le_antisymm le ge))

/-- What is written of a dump is written of any other in which only the order differs. -/
theorem Dump.Same.written {a b : Dump} (same : Dump.Same library a b) : ∀ {plain : Python.Value} {text : Text},
    clean library a = .ok plain → write numerals plain = .ok text →
      ∃ plain', clean library b = .ok plain' ∧ write numerals plain' = .ok text := by
  induction same with
  | number number => exact fun cleaned written => ⟨_, cleaned, written⟩
  | text text => exact fun cleaned written => ⟨_, cleaned, written⟩
  | datetime shown =>
    intro plain text cleaned written
    apply Exists.intro plain
    rw [clean, shown] at cleaned
    exact ⟨cleaned, written⟩
  | dict names distinct each ih =>
    rename_i members others
    intro plain text cleaned written
    obtain ⟨values, each', rfl⟩ := map_eq_ok.mp cleaned
    obtain ⟨texts, each'', rfl⟩ := map_eq_ok.mp written
    rw [cleanMembers_eq, sequence_eq_ok] at each'
    rw [writeMembers_eq, sequence_eq_ok] at each''
    let Cleaned (source : Dump) (value : Python.Value) : Prop := clean library source = .ok value
    let Written (value : Python.Value) (text : Text) : Prop := write numerals value = .ok text
    have sources : members.map Prod.fst = texts.map Prod.fst :=
      (@names_of_forall₂ _ _ Cleaned _ _ each').trans (@names_of_forall₂ _ _ Written _ _ each'')
    have again : ∀ {name b}, (name, b) ∈ others →
        ∃ plain text, clean library b = .ok plain ∧ write numerals plain = .ok text ∧ (name, text) ∈ texts := by
      intro name b member
      have listed : name ∈ texts.map Prod.fst := sources ▸ names.mem_iff.mp (List.mem_map_of_mem member)
      obtain ⟨⟨_, text⟩, inside, rfl⟩ := List.mem_map.mp listed
      obtain ⟨middle, kept, one⟩ := @related_of_mem _ _ Written _ _ each'' _ _ inside
      obtain ⟨source, first, two⟩ := @related_of_mem _ _ Cleaned _ _ each' _ _ kept
      obtain ⟨plain, cleaned, written⟩ := ih first member two one
      exact ⟨plain, text, cleaned, written, inside⟩
    have cleans : ∃ plains, JsRecord.sequence (mapValues (clean library) others) = .ok plains := by
      apply sequence_some
      intro entry member
      obtain ⟨plain, -, cleaned, -⟩ := again member
      exact ⟨plain, cleaned⟩
    obtain ⟨plains, cleans⟩ := cleans
    have pairs : List.Forall₂ (fun entry value => entry.1 = value.1 ∧ Cleaned entry.2 value.2) others plains :=
      sequence_eq_ok.mp cleans
    have found : ∀ {name plain}, (name, plain) ∈ plains → ∃ text, write numerals plain = .ok text ∧ (name, text) ∈ texts := by
      intro name plain member
      obtain ⟨source, inside, cleaned⟩ := related_of_mem pairs member
      obtain ⟨other, text, cleaned', written, listed⟩ := again inside
      have same : other = plain := Except.ok.inj (cleaned'.symm.trans cleaned)
      exact ⟨text, same ▸ written, listed⟩
    have writes : ∃ texts', JsRecord.sequence (mapValues (write numerals) plains) = .ok texts' := by
      apply sequence_some
      intro entry member
      obtain ⟨text, written, -⟩ := found member
      exact ⟨text, written⟩
    obtain ⟨texts', writes⟩ := writes
    have pairs' : List.Forall₂ (fun entry value => entry.1 = value.1 ∧ Written entry.2 value.2) plains texts' :=
      sequence_eq_ok.mp writes
    have keys : (texts.map Prod.fst).Perm (texts'.map Prod.fst) := by
      rw [← names_of_forall₂ pairs', ← names_of_forall₂ pairs, ← sources]
      exact names.symm
    have once : (texts.map Prod.fst).Nodup := sources ▸ distinct
    have order : texts.Perm texts' := by
      apply Fields.perm_of_names keys (keys.nodup_iff.mp once)
      intro entry member
      obtain ⟨plain, inside, written⟩ := related_of_mem pairs' member
      obtain ⟨text, written', listed⟩ := found inside
      have same : text = entry.2 := Except.ok.inj (written'.symm.trans written)
      rw [same] at listed
      exact listed
    apply Exists.intro (.obj plains)
    constructor
    · rw [clean, cleanMembers_eq, cleans]
      rfl
    · rw [write, writeMembers_eq, writes, sortPoints_congr order once]
      rfl

/-! Blocks of the same fields. -/

section

variable {fields others : List (String × Option Dump)} {extra extra' : List (String × Python.Number)}

/-- Fields that agree one by one. -/
abbrev FieldsSame (library : Library) (fields others : List (String × Option Dump)) : Prop :=
  List.Forall₂ (fun field other => field.1 = other.1 ∧ Option.Rel (Dump.Same library) field.2 other.2) fields others

theorem present_names (each : FieldsSame library fields others) :
    (present others).map Prod.fst = (present fields).map Prod.fst := by
  induction each with
  | nil => rfl
  | cons pair rest ih =>
    rename_i field other _ _
    obtain ⟨name, held⟩ := field
    obtain ⟨name', held'⟩ := other
    obtain ⟨rfl, related⟩ := pair
    cases related with
    | none => exact ih
    | some => exact congrArg (List.cons _) ih

theorem block_same (separate : Separate fields extra) (each : FieldsSame library fields others) (more : extra'.Perm extra) :
    Dump.Same library (.block fields extra) (.block others extra') := by
  let image (entry : String × Python.Number) : String × Dump := (entry.1, .number entry.2)
  have keys : ∀ extra : List (String × Python.Number), (extra.map image).map Prod.fst = extra.map Prod.fst := by
    intro extra
    rw [List.map_map]
    rfl
  have apart : ∀ {name held number}, (name, held) ∈ fields → (name, number) ∉ extra := by
    intro name held number member inside
    exact separate.apart _ inside (List.mem_map_of_mem member)
  have names : ∀ {name b}, (name, some b) ∈ others →
      ∃ held, (name, held) ∈ fields ∧ Option.Rel (Dump.Same library) held (some b) := related_of_mem each
  apply Dump.Same.dict
  · rw [List.map_append, List.map_append, keys extra, keys extra', present_names each]
    exact (more.map Prod.fst).append_left _
  · rw [List.map_append, keys extra]
    exact separate.nodup
  · intro name a b first second
    rcases List.mem_append.mp first with first | first <;> rcases List.mem_append.mp second with second | second
    · obtain ⟨held, member, related⟩ := names (Fields.mem_present.mp second)
      have same := List.inj_on_of_nodup_map separate.named member (Fields.mem_present.mp first) rfl
      rw [(Prod.mk.inj same).2] at related
      cases related with
      | some related => exact related
    · obtain ⟨entry, member, same⟩ := List.mem_map.mp second
      obtain ⟨rfl, -⟩ := Prod.mk.inj same
      exact absurd (more.mem_iff.mp member) (apart (Fields.mem_present.mp first))
    · obtain ⟨entry, member, same⟩ := List.mem_map.mp first
      obtain ⟨rfl, -⟩ := Prod.mk.inj same
      obtain ⟨held, inside, -⟩ := names (Fields.mem_present.mp second)
      exact absurd member (apart inside)
    · obtain ⟨entry, member, same⟩ := List.mem_map.mp first
      obtain ⟨entry', member', same'⟩ := List.mem_map.mp second
      obtain ⟨rfl, rfl⟩ := Prod.mk.inj same
      obtain ⟨key, rfl⟩ := Prod.mk.inj same'
      have one := List.inj_on_of_nodup_map separate.added member (more.mem_iff.mp member') key.symm
      rw [one]
      exact .number _

end

/-! Records. -/

theorem fields_formed {fields : List (String × Option Dump)} {extra : List (String × Python.Number)}
    (formed : (Dump.block fields extra).Formed) {field : String × Option Dump} (listed : field ∈ fields) :
    ∀ dump ∈ field.2, dump.Formed := by
  cases formed with
  | dict distinct each =>
    intro dump held
    obtain ⟨name, _⟩ := field
    cases held
    exact each (name, dump) (List.mem_append_left _ (Fields.mem_present.mpr listed))

theorem rel_self {held : Option Dump} (formed : ∀ dump ∈ held, dump.Formed) :
    Option.Rel (Dump.Same library) held held := by
  cases held with
  | none => exact .none
  | some dump => exact .some (formed dump rfl).same

theorem fields_self {fields : List (String × Option Dump)} {extra : List (String × Python.Number)}
    (formed : (Dump.block fields extra).Formed) : FieldsSame library fields fields := by
  apply List.forall₂_same.mpr
  intro field listed
  exact ⟨rfl, rel_self (fields_formed formed listed)⟩

theorem rel_map {A : Type} {relation : A → A → Prop} {shown : A → Dump} {a b : Option A} (related : Option.Rel relation a b)
    (same : ∀ {a b}, relation a b → Dump.Same library (shown a) (shown b)) :
    Option.Rel (Dump.Same library) (a.map shown) (b.map shown) := by
  cases related with
  | none => exact .none
  | some pair => exact .some (same pair)

theorem LlmUsage.Same.dump {a b : LlmUsage} (same : a.Same b) : Dump.Same library a.dump b.dump := by
  rw [← same.fields]
  exact block_same (llmUsage_separate a) (fields_self (llmUsage_formed a)) same.extra

theorem ToolUsage.Same.dump {a b : ToolUsage} (same : a.Same b) : Dump.Same library a.dump b.dump := by
  rw [← same.fields]
  exact block_same (toolUsage_separate a) (fields_self (toolUsage_formed a)) same.extra

theorem ToolCost.Same.dump {a b : ToolCost} (same : a.Same b) : Dump.Same library a.dump b.dump := by
  rw [← same.fields]
  exact block_same (toolCost_separate a) (fields_self (toolCost_formed a)) same.extra

theorem Usage.Same.dump {a b : Usage} (same : a.Same b) : Dump.Same library a.dump b.dump := by
  apply block_same (usage_separate a) _ (List.Perm.refl _)
  apply List.Forall₂.cons ⟨rfl, rel_map same.llm LlmUsage.Same.dump⟩
  apply List.Forall₂.cons ⟨rfl, rel_map same.tool ToolUsage.Same.dump⟩
  exact .nil

theorem Cost.Same.dump {a b : Cost} (same : a.Same b) : Dump.Same library a.dump b.dump := by
  rw [← same.fields]
  have tool : Option.Rel (Dump.Same library) (a.tool.map ToolCost.dump) (b.tool.map ToolCost.dump) :=
    rel_map same.tool ToolCost.Same.dump
  have self := @fields_self library _ _ (cost_formed a)
  apply block_same (cost_separate a) _ (List.Perm.refl _)
  simp only [Cost.fields, List.forall₂_cons, List.Forall₂.nil, true_and, and_true] at self ⊢
  obtain ⟨totalCost, currency, llm, -, originalCost, discountAmount, discountPercent⟩ := self
  exact ⟨totalCost, currency, llm, tool, originalCost, discountAmount, discountPercent⟩

theorem labels_same {labels found : List (String × String)} (distinct : (labels.map Prod.fst).Nodup)
    (order : found.Perm labels) : Dump.Same library (labelsDump labels) (labelsDump found) := by
  have keys : ∀ labels : List (String × String),
      (labels.map fun label => (label.1, Dump.text label.2)).map Prod.fst = labels.map Prod.fst := by
    intro labels
    rw [List.map_map]
    rfl
  apply Dump.Same.dict
  · rw [keys, keys]
    exact order.map Prod.fst
  · rw [keys]
    exact distinct
  · intro name a b first second
    obtain ⟨label, member, same⟩ := List.mem_map.mp first
    obtain ⟨label', member', same'⟩ := List.mem_map.mp second
    obtain ⟨rfl, rfl⟩ := Prod.mk.inj same
    obtain ⟨key, rfl⟩ := Prod.mk.inj same'
    have one := List.inj_on_of_nodup_map distinct member (order.mem_iff.mp member') key.symm
    rw [one]
    exact .text _

theorem Attribution.Same.dump {a : { attribution : Attribution // attribution.Checked }} {b : Attribution}
    (same : a.val.Same b) : Dump.Same library a.val.dump b.dump := by
  rw [← same.fields]
  have labels : Option.Rel (Dump.Same library) (a.val.labels.map labelsDump) (b.labels.map labelsDump) := by
    have distinct := a.property.distinct
    have related := same.labels
    cases before : a.val.labels with
    | none =>
      rw [before] at related
      cases after : b.labels with
      | none => exact .none
      | some found =>
        rw [after] at related
        cases related
    | some labels =>
      rw [before] at related
      cases after : b.labels with
      | none =>
        rw [after] at related
        cases related
      | some found =>
        rw [after] at related
        cases related with
        | some order => exact .some (labels_same (distinct labels before) order)
  have self := @fields_self library _ _ (attribution_formed a)
  apply block_same (attribution_separate a.val) _ (List.Perm.refl _)
  simp only [Attribution.dumpFields, List.forall₂_cons, List.Forall₂.nil, true_and, and_true] at self ⊢
  obtain ⟨environment, userId, accountId, subscriptionId, featureId, -⟩ := self
  exact ⟨environment, userId, accountId, subscriptionId, featureId, labels⟩

/-- A clock that is stopped at the last whole millisecond shows the same. -/
theorem clockParts_rounded (micros : Nat) : clockParts (micros / 1000 * 1000) = clockParts micros := by
  have day : micros / 1000 * 1000 / microsPerDay = micros / microsPerDay := by
    unfold microsPerDay
    omega
  have hour : micros / 1000 * 1000 % microsPerDay / 3600000000 = micros % microsPerDay / 3600000000 := by
    unfold microsPerDay
    omega
  have minute : micros / 1000 * 1000 / 60000000 % 60 = micros / 60000000 % 60 := by omega
  have second : micros / 1000 * 1000 / 1000000 % 60 = micros / 1000000 % 60 := by omega
  have fraction : micros / 1000 * 1000 / 1000 % 1000 = micros / 1000 % 1000 := by omega
  simp only [clockParts, day, hour, minute, second, fraction]

/-- A moment is written as its whole milliseconds are. -/
theorem rounded_shown (moment : Moment) : toRfc3339Ms library moment = toRfc3339Ms library moment.rounded := by
  have limit : momentsEnd % 1000 = 0 := by decide
  have utc : moment.rounded.utc = moment.utc / 1000 * 1000 := by simp [Moment.rounded, Moment.utc]
  have inside : (0 ≤ moment.rounded.utc ∧ moment.rounded.utc < momentsEnd) ↔ 0 ≤ moment.utc ∧ moment.utc < momentsEnd := by
    rw [utc]
    omega
  unfold toRfc3339Ms
  simp only [inside]
  split
  next real =>
    have number : moment.rounded.utc.toNat = moment.utc.toNat / 1000 * 1000 := by
      rw [utc]
      omega
    rw [number, clockText, clockText, clockParts_rounded]
  next => rfl

theorem Timing.rounded_same (timing : Timing) : Dump.Same library timing.dump timing.rounded.dump := by
  have receivedTime : Option.Rel (Dump.Same library) (timing.receivedTime.map .datetime)
      (timing.rounded.receivedTime.map .datetime) := by
    rw [Timing.rounded, Option.map_map]
    cases timing.receivedTime with
    | none => exact .none
    | some moment => exact .some (.datetime (rounded_shown moment))
  have self := @fields_self library _ _ (timing_formed timing)
  apply block_same (timing_separate timing) _ (List.Perm.refl _)
  simp only [Timing.fields, List.forall₂_cons, List.Forall₂.nil, true_and, and_true] at self ⊢
  exact ⟨.some (.datetime (rounded_shown timing.eventTime)), receivedTime, self.2.2⟩

theorem AUDR.Same.dump {found : AUDR} (same : record.rounded.Same found) : Dump.Same library record.dump found.dump := by
  rw [← same.fields]
  have timing : Option.Rel (Dump.Same library) (some record.timing.dump) (some record.timing.rounded.dump) :=
    .some record.timing.rounded_same
  have attribution : Option.Rel (Dump.Same library) (some record.attribution.val.dump) (some found.attribution.val.dump) :=
    .some (Attribution.Same.dump same.attribution)
  have usage : Option.Rel (Dump.Same library) (some record.usage.dump) (some found.usage.dump) := .some same.usage.dump
  have cost : Option.Rel (Dump.Same library) (record.cost.map Cost.dump) (found.cost.map Cost.dump) :=
    rel_map same.cost Cost.Same.dump
  have self := @fields_self library _ _ (record_formed record)
  apply block_same (record_separate record) _ (List.Perm.refl _)
  simp only [AUDR.fields, List.forall₂_cons, List.Forall₂.nil, true_and, and_true] at self ⊢
  obtain ⟨version, recordId, emitter, corrects, -, resource, run, -, -, -⟩ := self
  exact ⟨version, recordId, emitter, corrects, timing, resource, run, attribution, usage, cost⟩

/-! What is read back is valid where the record was. -/

theorem rel_isNone {A B : Type} {relation : A → B → Prop} {a : Option A} {b : Option B} (related : Option.Rel relation a b) :
    b.isNone = a.isNone := by
  cases related <;> rfl

theorem rel_all {A B : Type} {relation : A → B → Prop} {p : A → Bool} {q : B → Bool} {a : Option A} {b : Option B}
    (related : Option.Rel relation a b) (same : ∀ {a b}, relation a b → q b = p a) : b.all q = a.all p := by
  cases related with
  | none => rfl
  | some pair => exact same pair

theorem LlmUsage.Same.isEmpty {a b : LlmUsage} (same : a.Same b) : b.isEmpty = a.isEmpty := by
  have extra : b.extra.entries.isEmpty = a.extra.entries.isEmpty := same.extra.isEmpty_eq
  rw [← same.fields, LlmUsage.isEmpty, LlmUsage.isEmpty]
  simp only [extra]

theorem ToolUsage.Same.isEmpty {a b : ToolUsage} (same : a.Same b) : b.isEmpty = a.isEmpty := by
  have extra : b.extra.entries.isEmpty = a.extra.entries.isEmpty := same.extra.isEmpty_eq
  rw [← same.fields, ToolUsage.isEmpty, ToolUsage.isEmpty]
  simp only [extra]

/-- `validate` does not look at the order of extras and labels. -/
theorem AUDR.Same.validate {found : AUDR} (same : record.Same found) :
    found.validate library now = record.validate library now := by
  obtain ⟨fields, attribution, usage, cost⟩ := same
  have llm := rel_isNone usage.llm
  have tool := rel_isNone usage.tool
  have llmSome : found.usage.llm.isSome = record.usage.llm.isSome := by
    rw [← Option.not_isNone, llm, Option.not_isNone]
  have toolSome : found.usage.tool.isSome = record.usage.tool.isSome := by
    rw [← Option.not_isNone, tool, Option.not_isNone]
  have llmUsed : (found.usage.llm.all fun usage => !usage.isEmpty) = record.usage.llm.all fun usage => !usage.isEmpty :=
    rel_all usage.llm fun same => congrArg not same.isEmpty
  have toolUsed : (found.usage.tool.all fun usage => !usage.isEmpty) = record.usage.tool.all fun usage => !usage.isEmpty :=
    rel_all usage.tool fun same => congrArg not same.isEmpty
  have costTool : (found.cost.all fun cost => cost.tool.isNone) = record.cost.all fun cost => cost.tool.isNone :=
    rel_all cost fun same => rel_isNone same.tool
  have costLlm : (found.cost.all fun cost => cost.llm.isNone) = record.cost.all fun cost => cost.llm.isNone :=
    rel_all cost fun same => by rw [← same.fields]
  have shapes : shapeIssues found = shapeIssues record := by
    have resource : found.resource = record.resource := (congrArg AUDR.resource fields).symm
    simp only [shapeIssues, llm, tool, llmSome, toolSome, llmUsed, toolUsed, costTool, costLlm, resource]
  have attributed : attributionIssues found.attribution.val = attributionIssues record.attribution.val := by
    rw [← attribution.fields]
    rfl
  have others : envelopeIssues library found = envelopeIssues library record ∧ emitterIssues found = emitterIssues record ∧
      timingIssues now found = timingIssues now record ∧ runIssues found = runIssues record := by
    rw [← fields]
    exact ⟨rfl, rfl, rfl, rfl⟩
  obtain ⟨envelope, emitter, timing, run⟩ := others
  rw [AUDR.validate, AUDR.validate, shapes, attributed, envelope, emitter, timing, run]

/-- A valid record stays valid, and so do its whole milliseconds. -/
theorem Valid.rounded {earlier : Int} (valid : Valid library earlier record) (later : earlier ≤ now) :
    Valid library now record.rounded := by
  have utc : record.timing.rounded.eventTime.utc = record.timing.eventTime.utc / 1000 * 1000 := by
    simp [Timing.rounded, Moment.rounded, Moment.utc]
  have timely := valid.timely
  constructor
  case precise =>
    have whole : record.timing.eventTime.utc / 1000 * 1000 % 1000 = 0 := by omega
    exact whole
  case timely =>
    have bound : record.timing.rounded.eventTime.utc ≤ now + futureSkew := by
      rw [utc]
      omega
    exact bound
  case unreceived =>
    have none : record.timing.rounded.receivedTime = record.timing.receivedTime.map Moment.rounded := rfl
    exact none.trans (by rw [valid.unreceived]; rfl)
  case version => exact valid.version
  case recordId => exact valid.recordId
  case corrects => exact valid.corrects
  case emitter => exact valid.emitter
  case single => exact valid.single
  case llm => exact valid.llm
  case tool => exact valid.tool
  case ofModel => exact valid.ofModel
  case ofTool => exact valid.ofTool
  case traceId => exact valid.traceId
  case environment => exact valid.environment
  case account => exact valid.account
  case userId => exact valid.userId

/-- A version that is not supported is among the issues of a record. -/
theorem unsupported_found (unsupported : supportedVersion library record.specVersion = false) :
    ⟨.unsupportedVersion, "/spec_version"⟩ ∈ record.validate library now := by
  rw [AUDR.validate, List.mem_eraseDups]
  simp [envelopeIssues, issueUnless, unsupported]

/-- What `from_json` makes of the text of a record from the year 1000 on: the record, to the
millisecond, where `validate` finds nothing wrong with that, and else some of what it finds. -/
theorem fromJson_toJson {text : Text} {earlier : Int} (written : toJson library numerals record = .ok text)
    (modern : ∀ moment ∈ record.timing.moments, 1000 ≤ (clockParts moment.utc.toNat).year) :
    ∃ back, record.rounded.Same back ∧ toJson library numerals back = .ok text ∧
      (∀ found, fromJson library pydantic minted now text = .ok found ↔
        found = back ∧ record.rounded.validate library now = []) ∧
      (∀ refusal, fromJson library pydantic minted now text = .error refusal →
        ∃ issues ≠ [], refusal = .issues issues ∧ ∀ issue ∈ issues, issue ∈ record.rounded.validate library now) ∧
      (record.validate library earlier = [] → earlier ≤ now → fromJson library pydantic minted now text = .ok back) := by
  unfold toJson toPlain at written
  cases cleaned : clean library record.dump with
  | error problem =>
    rw [cleaned] at written
    cases written
  | ok plain =>
    rw [cleaned] at written
    obtain ⟨value, loads, loaded⟩ := loads_written (record_formed record) cleaned written
    obtain ⟨values, back, rfl, version, built, same⟩ := @record_loaded library pydantic value minted record modern loaded
    have again : toJson library numerals back = .ok text := by
      obtain ⟨plain', cleaned', written'⟩ := same.dump.written cleaned written
      rw [toJson, toPlain, cleaned']
      exact written'
    have agreed : back.validate library now = record.rounded.validate library now := same.validate
    have outcome : (fromJson library pydantic minted now text = .ok back ∧ record.rounded.validate library now = []) ∨
        ∃ issues ≠ [], fromJson library pydantic minted now text = .error (.issues issues) ∧
          ∀ issue ∈ issues, issue ∈ record.rounded.validate library now := by
      cases supported : supportedVersion library record.specVersion with
      | false =>
        have refused : fromJson library pydantic minted now text =
            .error (.issues [⟨.unsupportedVersion, "/spec_version"⟩]) := by
          simp [fromJson, loads, fromDict, versionIssues, version, issueUnless, supported]
        refine .inr ⟨_, List.cons_ne_nil _ _, refused, ?_⟩
        intro issue member
        rw [List.mem_singleton.mp member]
        exact unsupported_found supported
      | true =>
        have judged : fromJson library pydantic minted now text = ensureValid library now back := by
          simp [fromJson, loads, fromDict, versionIssues, version, issueUnless, supported, built]
        rw [judged, ← agreed]
        unfold ensureValid
        cases found : back.validate library now with
        | nil => exact .inl ⟨rfl, rfl⟩
        | cons issue rest => exact .inr ⟨_, List.cons_ne_nil _ _, rfl, fun issue member => member⟩
    refine ⟨back, same, again, ?_, ?_, ?_⟩
    · intro found
      rcases outcome with ⟨accepted, clean⟩ | ⟨issues, some, refused, among⟩
      · rw [accepted, clean]
        simp [eq_comm]
      · rw [refused]
        constructor
        · intro accepted
          cases accepted
        · intro clean
          obtain ⟨issue, member⟩ := List.exists_mem_of_ne_nil issues some
          have listed := among issue member
          rw [clean.2] at listed
          cases listed
    · intro refusal given
      rcases outcome with ⟨accepted, -⟩ | ⟨issues, some, refused, among⟩
      · rw [accepted] at given
        cases given
      · rw [refused] at given
        cases given
        exact ⟨issues, some, rfl, among⟩
    · intro clean later
      have valid := validate_nil.mpr ((validate_nil.mp clean).rounded later)
      rcases outcome with ⟨accepted, -⟩ | ⟨issues, some, -, among⟩
      · exact accepted
      · obtain ⟨issue, member⟩ := List.exists_mem_of_ne_nil issues some
        have listed := among issue member
        rw [valid] at listed
        cases listed

/-- Takes what is of the type of a field alone, and datetimes in the form records have. -/
def Pydantic.strict : Pydantic where
  int
    | .num (.int n) => some n
    | _ => none
  float
    | .num (.float (.finite q)) => if Double.Representable q then some (.finite q) else none
    | .num (.float value) => some value
    | _ => none
  datetime
    | .str text => (Timestamp.scan text.toList).map fun parts => ⟨parts.milliseconds * 1000 + epochMicros, 0⟩
    | _ => none
  int_int := fun _ => rfl
  float_float := by
    intro value representable
    cases value with
    | finite q => exact if_pos (representable q rfl)
    | _ => rfl
  float_double := by
    intro value q read
    split at read
    next p =>
      split at read
      next representable =>
        cases read
        exact representable
      next => cases read
    next other =>
      cases read
      exact absurd rfl (other q)
    next => cases read
  datetime_text := by
    intro micros inside modern
    have scanned : Timestamp.scan (clockParts micros).text = some (clockParts micros) :=
      Timestamp.scan_eq_some.mpr ⟨clockParts_fits inside, rfl⟩
    have back : (micros - epochMicros) / 1000 * 1000 + epochMicros = (micros / 1000 * 1000 : Nat) := by
      unfold epochMicros microsPerDay
      push_cast
      omega
    simp only [String.toList_ofList, scanned, Option.map_some, clockParts_milliseconds inside, sinceEpochMs, back]

theorem fromJson_toJson_embedding :
    ∃ back, embeddingRecord.rounded.Same back ∧ toJson Library.plain Numerals.exact back = .ok embeddingText ∧
      fromJson Library.plain Pydantic.strict ⟨"", ⟨0, 0⟩⟩ 63871286400123000 embeddingText = .ok back := by
  have written : toJson Library.plain Numerals.exact embeddingRecord = .ok embeddingText := by decide +kernel
  have modern : ∀ moment ∈ embeddingRecord.timing.moments, 1000 ≤ (clockParts moment.utc.toNat).year := by decide +kernel
  have clean : embeddingRecord.validate Library.plain 63871286400123000 = [] := by decide +kernel
  obtain ⟨back, same, again, -, -, accepted⟩ :=
    @fromJson_toJson Library.plain Numerals.exact Pydantic.strict ⟨"", ⟨0, 0⟩⟩ embeddingRecord 63871286400123000 embeddingText
      63871286400123000 written modern
  exact ⟨back, same, again, accepted clean (le_refl _)⟩

end Audr.Record
