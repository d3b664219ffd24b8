import Audr.JsRecord.Blindness

/-! The issues `validate`, `parseRecord` and `decodeRecord` report: their paths do not depend on the
names beneath `labels`. -/

namespace Audr.JsRecord

open Properties

variable {place : Place} {x y labels data : Value} {a : List (String × Value)} {error : SchemaError} {plain : Bool}

def paths (issues : List Issue) : List String := issues.map Issue.path

/-- Where every label is reported. -/
def labelPath : String := "/attribution/labels/*"

theorem pointer_label (name : String) : pointer (labelsPath ++ [name]) = labelPath := by
  simp [labelsPath, pointer, segments, labelPath]
  decide

theorem fieldCode_labels (keyword : Keyword) : fieldCode labelsPath keyword = none := by
  cases keyword <;> rfl

theorem fieldCode_label (name : String) (keyword : Keyword) : fieldCode (labelsPath ++ [name]) keyword = none := by
  cases keyword <;> rfl

/-! The errors of labels. -/

/-- A label's name is refused under one code, whichever rule it breaks. -/
theorem mem_labelNameErrors {name : String} (member : error ∈ labelNameErrors labelsPath name) :
    error.instancePath = labelsPath ∧ error.keyword.isType = false ∧ error.keyword ≠ .ifThen ∧ error.branch = false ∧
      labelName name = false ∧ ∀ data, toIssue error data = ⟨.invalidPropertyName, labelPath⟩ := by
  have broken : labelName name = false := by
    by_contra admitted
    simp only [labelName, Bool.not_eq_false, Bool.and_eq_true, decide_eq_true_eq] at admitted
    rw [labelNameErrors_nil.mpr admitted] at member
    contradiction
  have told : ∀ keyword, keyword.isType = false → propertyOf ⟨labelsPath, keyword, some name, false⟩ = some name →
      ∀ data, toIssue ⟨labelsPath, keyword, some name, false⟩ data = ⟨.invalidPropertyName, labelPath⟩ := by
    intro keyword _ named data
    simp [toIssue, issuePath, fieldCode_labels, codeFor, named, pointer_label]
  rcases List.mem_append.mp member with inside | whole
  · obtain ⟨cause, found, rfl⟩ := List.mem_map.mp inside
    rcases List.mem_append.mp found with found | found
    · rcases List.mem_append.mp found with found | found
      · rw [mem_expect found]
        exact ⟨rfl, rfl, by simp [failure], rfl, broken, told _ rfl rfl⟩
      · rw [mem_expect found]
        exact ⟨rfl, rfl, by simp [failure], rfl, broken, told _ rfl rfl⟩
    · rw [mem_expect found]
      exact ⟨rfl, rfl, by simp [failure], rfl, broken, told _ rfl rfl⟩
  · rw [mem_expect whole]
    refine ⟨rfl, rfl, by simp [failure], rfl, broken, fun data => ?_⟩
    simp [toIssue, issuePath, failure, fieldCode_labels, codeFor, propertyOf, pointer_label]

/-- A label's value is reported with what is wrong with it. -/
theorem mem_labelValueErrors {name : String} {value : Value}
    (member : error ∈ stringSchema 0 (some 256) none (labelsPath ++ [name]) value) :
    error.instancePath = labelsPath ++ [name] ∧ error.keyword ≠ .ifThen ∧ error.branch = false ∧
      (error.keyword.isType = true ↔ labelFault value = some .invalidType) ∧
      ∃ code, labelFault value = some code ∧ ∀ data, toIssue error data = ⟨code, labelPath⟩ := by
  cases value with
  | string text =>
    simp only [stringSchema, List.append_nil, List.mem_append] at member
    rcases member with long | short
    · have broken : ¬text.toList.length ≤ 256 := by
        intro fits
        simp [expect, fits] at long
      rw [mem_expect long]
      refine ⟨rfl, by simp [failure], rfl, by simp [failure, Keyword.isType, labelFault, broken], .stringTooLong, ?_, fun data => ?_⟩
      · rw [labelFault, if_neg broken]
      · simp [toIssue, issuePath, failure, fieldCode_label, codeFor, propertyOf, pointer_label]
    · simp [expect] at short
  | _ =>
    rw [List.mem_singleton.mp member]
    refine ⟨rfl, by simp [failure], rfl, by simp [failure, Keyword.isType, labelFault], .invalidType, rfl, fun data => ?_⟩
    simp [toIssue, issuePath, failure, fieldCode_label, codeFor, propertyOf, pointer_label]

theorem labelValueErrors_nil {name : String} {value : Value} :
    stringSchema 0 (some 256) none (labelsPath ++ [name]) value = [] ↔ labelFault value = none := by
  rw [stringSchema_nil]
  cases value <;> simp [labelFault]

/-- What the schema says of labels that are an object: first of their number, then of each. -/
theorem labelErrors_object : labelErrors (.object plain a) =
    expect (a.length ≤ 20) (failure labelsPath .maxProperties) ++
      ((a.flatMap fun entry => labelNameErrors labelsPath entry.1) ++
        a.flatMap fun entry => stringSchema 0 (some 256) none (labelsPath ++ [entry.1]) entry.2) := by
  rw [← List.append_assoc]
  rfl

theorem labelErrors_inside (member : error ∈ labelErrors labels) : labelsPath <+: error.instancePath := by
  unfold labelErrors at member
  split at member
  · exact direct_labels.located _ _ _ member
  · contradiction

/-- The issues of labels do not depend on the record around them, and come from no branch. -/
theorem labelErrors_settled (member : error ∈ labelErrors labels) :
    error.keyword ≠ .ifThen ∧ error.branch = false ∧ ∀ data data', toIssue error data = toIssue error data' := by
  cases labels with
  | object plain a =>
    rw [labelErrors_object] at member
    rcases List.mem_append.mp member with many | member
    · rw [mem_expect many]
      exact ⟨nofun, rfl, fun data data' => rfl⟩
    · rcases List.mem_append.mp member with named | valued
      · obtain ⟨entry, -, found⟩ := List.mem_flatMap.mp named
        obtain ⟨-, -, keyword, branch, -, told⟩ := mem_labelNameErrors found
        exact ⟨keyword, branch, fun data data' => (told data).trans (told data').symm⟩
      · obtain ⟨entry, -, found⟩ := List.mem_flatMap.mp valued
        obtain ⟨-, keyword, branch, -, code, -, told⟩ := mem_labelValueErrors found
        exact ⟨keyword, branch, fun data data' => (told data).trans (told data').symm⟩
  | undefined => contradiction
  | _ =>
    rw [List.mem_singleton.mp member]
    exact ⟨nofun, rfl, fun data data' => by simp [toIssue, failure, issuePath, fieldCode_labels, codeFor]⟩

/-- No error of labels hides another. -/
theorem labelErrors_typed (distinct : (a.map Prod.fst).Nodup) (member : error ∈ labelErrors (.object plain a)) :
    error.keyword.isType = true ∨ error.instancePath ∉ mistyped (labelErrors (.object plain a)) := by
  have lies : ∀ path ∈ mistyped (labelErrors (.object plain a)),
      ∃ entry ∈ a, path = labelsPath ++ [entry.1] ∧ labelFault entry.2 = some .invalidType := by
    intro path listed
    obtain ⟨cause, found, rfl⟩ := List.mem_map.mp listed
    obtain ⟨inside, typed⟩ := List.mem_filter.mp found
    rw [labelErrors_object] at inside
    rcases List.mem_append.mp inside with many | inside
    · rw [mem_expect many] at typed
      contradiction
    · rcases List.mem_append.mp inside with named | valued
      · obtain ⟨entry, -, held⟩ := List.mem_flatMap.mp named
        rw [(mem_labelNameErrors held).2.1] at typed
        contradiction
      · obtain ⟨entry, within, held⟩ := List.mem_flatMap.mp valued
        obtain ⟨there, -, -, kind, -⟩ := mem_labelValueErrors held
        exact ⟨entry, within, there, kind.mp typed⟩
  have short : labelsPath ∉ mistyped (labelErrors (.object plain a)) := by
    intro listed
    obtain ⟨entry, -, same, -⟩ := lies _ listed
    simp [labelsPath] at same
  rw [labelErrors_object] at member
  rcases List.mem_append.mp member with many | member
  · rw [mem_expect many]
    exact .inr short
  · rcases List.mem_append.mp member with named | valued
    · obtain ⟨entry, -, found⟩ := List.mem_flatMap.mp named
      rw [(mem_labelNameErrors found).1]
      exact .inr short
    · obtain ⟨entry, within, found⟩ := List.mem_flatMap.mp valued
      obtain ⟨there, -, -, kind, -⟩ := mem_labelValueErrors found
      by_cases typed : labelFault entry.2 = some .invalidType
      · exact .inl (kind.mpr typed)
      · right
        rw [there]
        intro listed
        obtain ⟨other, held, same, fault⟩ := lies _ listed
        have named : entry.1 = other.1 := by simpa using same
        rw [List.inj_on_of_nodup_map distinct within held named] at typed
        exact typed fault

/-- The issues of labels that have the same faults: they differ in no more than the order of those
reported at each label. -/
theorem labelIssues_same (same : SameLabels x y) (data data' : Value) : ∃ shared left right,
    (labelErrors x).map (toIssue · data) = shared ++ left ∧ (labelErrors y).map (toIssue · data') = shared ++ right ∧
      (∀ issue, issue ∈ left ↔ issue ∈ right) ∧ ∀ issue ∈ left, issue.path = labelPath := by
  have settled : ∀ labels, (labelErrors labels).map (toIssue · data) = (labelErrors labels).map (toIssue · data') :=
    fun labels => List.map_congr_left fun error member => (labelErrors_settled member).2.2 data data'
  cases same with
  | refl =>
    refine ⟨(labelErrors x).map (toIssue · data), [], [], by simp, ?_, by simp, by simp⟩
    rw [List.append_nil, settled]
  | array a b =>
    refine ⟨(labelErrors (.array a)).map (toIssue · data), [], [], by simp, ?_, by simp, by simp⟩
    rw [List.append_nil, settled]
    rfl
  | @object p q a b length left right names faults =>
    let each (list : List (String × Value)) : List SchemaError :=
      (list.flatMap fun entry => labelNameErrors labelsPath entry.1) ++
        list.flatMap fun entry => stringSchema 0 (some 256) none (labelsPath ++ [entry.1]) entry.2
    have told : ∀ (list : List (String × Value)) (data : Value) (issue : Issue), issue ∈ (each list).map (toIssue · data) ↔
        (issue = ⟨.invalidPropertyName, labelPath⟩ ∧ ¬∀ entry ∈ list, labelName entry.1 = true) ∨
          ∃ code, issue = ⟨code, labelPath⟩ ∧ ¬∀ entry ∈ list, labelFault entry.2 ≠ some code := by
      intro list data issue
      constructor
      · intro found
        obtain ⟨error, member, rfl⟩ := List.mem_map.mp found
        rcases List.mem_append.mp member with named | valued
        · obtain ⟨entry, within, held⟩ := List.mem_flatMap.mp named
          obtain ⟨-, -, -, -, broken, told⟩ := mem_labelNameErrors held
          refine .inl ⟨told data, fun admitted => ?_⟩
          rw [admitted entry within] at broken
          contradiction
        · obtain ⟨entry, within, held⟩ := List.mem_flatMap.mp valued
          obtain ⟨-, -, -, -, code, fault, told⟩ := mem_labelValueErrors held
          exact .inr ⟨code, told data, fun none => none entry within fault⟩
      · rintro (⟨rfl, broken⟩ | ⟨code, rfl, faulty⟩)
        · push Not at broken
          obtain ⟨entry, within, broken⟩ := broken
          have errors : labelNameErrors labelsPath entry.1 ≠ [] := by
            intro none
            have admitted := labelNameErrors_nil.mp none
            simp [labelName, admitted] at broken
          obtain ⟨error, held⟩ := List.exists_mem_of_ne_nil _ errors
          refine List.mem_map.mpr ⟨error, List.mem_append_left _ (List.mem_flatMap.mpr ⟨entry, within, held⟩), ?_⟩
          exact (mem_labelNameErrors held).2.2.2.2.2 data
        · push Not at faulty
          obtain ⟨entry, within, fault⟩ := faulty
          have errors : stringSchema 0 (some 256) none (labelsPath ++ [entry.1]) entry.2 ≠ [] := by
            rw [Ne, labelValueErrors_nil, fault]
            exact Option.some_ne_none code
          obtain ⟨error, held⟩ := List.exists_mem_of_ne_nil _ errors
          refine List.mem_map.mpr ⟨error, List.mem_append_right _ (List.mem_flatMap.mpr ⟨entry, within, held⟩), ?_⟩
          obtain ⟨-, -, -, -, found, same, told⟩ := mem_labelValueErrors held
          rw [fault] at same
          rw [told data, ← Option.some.inj same]
    refine ⟨(expect (a.length ≤ 20) (failure labelsPath .maxProperties)).map (toIssue · data),
      (each a).map (toIssue · data), (each b).map (toIssue · data'), ?_, ?_, fun issue => ?_, fun issue found => ?_⟩
    · rw [labelErrors_object, List.map_append]
    · rw [labelErrors_object, List.map_append, length]
      congr 1
      apply List.map_congr_left
      intro error many
      rw [mem_expect many]
      rfl
    · rw [told, told, names]
      simp only [faults]
    · rcases (told a data issue).mp found with ⟨rfl, -⟩ | ⟨code, rfl, -⟩
      · rfl
      · rfl

/-! What of the errors is reported. -/

theorem mistyped_append (errors more : List SchemaError) : mistyped (errors ++ more) = mistyped errors ++ mistyped more := by
  simp [mistyped]

/-- Only values of a wrong type at the path of an error hide it. -/
theorem reported_congr {errors more : List SchemaError}
    (same : error.instancePath ∈ mistyped errors ↔ error.instancePath ∈ mistyped more) :
    reported errors error = reported more error := by
  rw [reported, reported, decide_eq_decide.mpr (not_congr same)]

/-- Errors that lie elsewhere hide nothing. -/
theorem notMem_mistyped {errors : List SchemaError} {path : List String}
    (elsewhere : ∀ error ∈ errors, error.instancePath ≠ path) : path ∉ mistyped errors := by
  intro listed
  obtain ⟨error, found, same⟩ := List.mem_map.mp listed
  exact elsewhere error (List.mem_filter.mp found).1 same

/-- The errors of the record around its labels. -/
def around (data : Value) : List SchemaError := beforeLabels [] data ++ propertiesOf laterProperties [] data

theorem around_clear (member : error ∈ around data) : "labels" ∉ error.instancePath := by
  intro inside
  rcases List.mem_append.mp member with before | after
  · exact List.not_mem_nil (blind_beforeLabels.clear _ _ error before inside)
  · exact List.not_mem_nil (blind_afterLabels.clear _ _ error after inside)

theorem labels_named (member : error ∈ labelErrors labels) : "labels" ∈ error.instancePath := by
  obtain ⟨rest, spelled⟩ := labelErrors_inside member
  rw [← spelled]
  simp [labelsPath]

theorem mem_mistyped_split {path : List String} :
    path ∈ mistyped (schemaErrors data) ↔
      path ∈ mistyped (around data) ∨ path ∈ mistyped (labelErrors (valueAt data labelsPath)) := by
  rw [schemaErrors_split, around]
  simp only [mistyped_append, List.mem_append]
  tauto

theorem reported_around (member : error ∈ around data) :
    reported (schemaErrors data) error = reported (around data) error := by
  have elsewhere : error.instancePath ∉ mistyped (labelErrors (valueAt data labelsPath)) := by
    apply notMem_mistyped
    intro cause found same
    exact around_clear member (same ▸ labels_named found)
  exact reported_congr (mem_mistyped_split.trans (or_iff_left elsewhere))

theorem reported_labels (member : error ∈ labelErrors labels) (held : valueAt data labelsPath = labels) :
    reported (schemaErrors data) error = reported (labelErrors labels) error := by
  have elsewhere : error.instancePath ∉ mistyped (around data) := by
    apply notMem_mistyped
    intro cause found same
    exact around_clear found (same ▸ labels_named member)
  rw [← held]
  exact reported_congr (mem_mistyped_split.trans (or_iff_right elsewhere))

/-- The errors of the record around its labels that are reported, of a branch or of none. -/
def kept (branch : Bool) (data : Value) (errors : List SchemaError) : List SchemaError :=
  errors.filter fun error => reported (around data) error && (error.branch == branch)

theorem structuralErrors_split :
    structuralErrors data = kept false data (beforeLabels [] data) ++
      (labelErrors (valueAt data labelsPath)).filter (reported (labelErrors (valueAt data labelsPath))) ++
        kept false data (propertiesOf laterProperties [] data) := by
  rw [structuralErrors]
  conv_lhs => rw [schemaErrors_split]
  rw [List.filter_append, List.filter_append]
  congr 1
  · congr 1
    · apply List.filter_congr
      intro error member
      rw [← schemaErrors_split, reported_around (List.mem_append_left _ member)]
      cases error.branch <;> rfl
    · apply List.filter_congr
      intro error member
      rw [← schemaErrors_split, reported_labels member rfl, (labelErrors_settled member).2.1]
      exact Bool.and_true _
  · apply List.filter_congr
    intro error member
    rw [← schemaErrors_split, reported_around (List.mem_append_right _ member)]
    cases error.branch <;> rfl

theorem conditionalErrors_split :
    conditionalErrors data =
      kept true data (beforeLabels [] data) ++ kept true data (propertiesOf laterProperties [] data) := by
  have branches : ∀ errors, (∀ error ∈ errors, error ∈ around data) →
      (errors.filter fun error => reported (schemaErrors data) error && error.branch) = kept true data errors := by
    intro errors inside
    apply List.filter_congr
    intro error member
    rw [reported_around (inside error member)]
    cases error.branch <;> rfl
  have none : ((labelErrors (valueAt data labelsPath)).filter fun error =>
      reported (schemaErrors data) error && error.branch) = [] := by
    apply List.filter_eq_nil_iff.mpr
    intro error member
    simp [(labelErrors_settled member).2.1]
  rw [conditionalErrors]
  conv_lhs => rw [schemaErrors_split]
  rw [List.filter_append, List.filter_append]
  rw [← schemaErrors_split, none, List.append_nil, branches _ fun error => List.mem_append_left _,
    branches _ fun error => List.mem_append_right _]

/-! Veiled values are reported alike. -/

theorem around_veiled (veiled : Veiled .record x y) :
    beforeLabels [] x = beforeLabels [] y ∧ propertiesOf laterProperties [] x = propertiesOf laterProperties [] y ∧
      around x = around y := by
  have before := blind_beforeLabels.same _ [] x y veiled
  have after := blind_afterLabels.same _ [] x y veiled
  exact ⟨before, after, by rw [around, around, before, after]⟩

theorem nonFinite_veiled (veiled : Veiled place x y) : nonFinite x = nonFinite y := by
  cases veiled <;> rfl

theorem toIssue_veiled (veiled : Veiled .record x y) (member : error ∈ around x) : toIssue error x = toIssue error y := by
  obtain ⟨there, held⟩ := valueAt_veiled error.instancePath (around_clear member) veiled
  rw [toIssue, toIssue, codeFor, codeFor, nonFinite_veiled held]

theorem map_kept_veiled (veiled : Veiled .record x y) (branch : Bool) {errors : List SchemaError}
    (inside : ∀ error ∈ errors, error ∈ around x) :
    (kept branch x errors).map (toIssue · x) = (kept branch y errors).map (toIssue · y) := by
  have same : kept branch x errors = kept branch y errors := by rw [kept, kept, (around_veiled veiled).2.2]
  rw [← same]
  apply List.map_congr_left
  intro error member
  exact toIssue_veiled veiled (inside error (List.mem_filter.mp member).1)

theorem identifierIssues_veiled {key : String} (veiled : Veiled place x y) :
    identifierIssues key x = identifierIssues key y := by
  cases veiled <;> rfl

theorem timingIssues_veiled (veiled : Veiled place x y) : timingIssues x = timingIssues y := by
  cases veiled with
  | refl => rfl
  | array => rfl
  | object _ p q members each defined labels =>
    have event := field_veiled each (by decide : "event_time" ≠ "labels")
    unfold timingIssues
    dsimp only
    rw [field_isDefined defined "received_time"]
    generalize Value.field "event_time" (mapValues Prod.fst members) = left at *
    generalize Value.field "event_time" (mapValues Prod.snd members) = right at *
    cases event <;> rfl

theorem traceIssues_veiled (veiled : Veiled place x y) : traceIssues x = traceIssues y := by
  cases veiled with
  | refl => rfl
  | array => rfl
  | object _ p q members each defined labels =>
    have trace := field_veiled each (by decide : "trace_id" ≠ "labels")
    unfold traceIssues
    dsimp only
    generalize Value.field "trace_id" (mapValues Prod.fst members) = left at *
    generalize Value.field "trace_id" (mapValues Prod.snd members) = right at *
    cases trace <;> rfl

theorem formatIssues_veiled (veiled : Veiled place x y) : formatIssues x = formatIssues y := by
  cases veiled with
  | refl => rfl
  | array => rfl
  | object _ p q members each defined labels =>
    simp only [formatIssues]
    rw [identifierIssues_veiled (field_veiled each (by decide : "record_id" ≠ "labels")),
      identifierIssues_veiled (field_veiled each (by decide : "corrects" ≠ "labels")),
      timingIssues_veiled (field_veiled each (by decide : "timing" ≠ "labels")),
      traceIssues_veiled (field_veiled each (by decide : "run" ≠ "labels"))]

theorem eventTimeIssues_veiled {now : Int} (veiled : Veiled place x y) : eventTimeIssues now x = eventTimeIssues now y := by
  cases veiled <;> rfl

theorem userIssues_veiled (veiled : Veiled place x y) : userIssues x = userIssues y := by
  cases veiled <;> rfl

theorem proseIssues_veiled {now : Int} (veiled : Veiled place x y) : proseIssues now x = proseIssues now y := by
  obtain ⟨_, event⟩ := valueAt_veiled ["timing", "event_time"] (by decide) veiled
  obtain ⟨_, environment⟩ := valueAt_veiled ["attribution", "environment"] (by decide) veiled
  obtain ⟨_, user⟩ := valueAt_veiled ["attribution", "user_id"] (by decide) veiled
  rw [proseIssues, proseIssues, eventTimeIssues_veiled event, environment.isDefined, userIssues_veiled user]

theorem SameLabels.reported (same : SameLabels x y) (data data' : Value) : ∃ shared left right,
    ((labelErrors x).filter (JsRecord.reported (labelErrors x))).map (toIssue · data) = shared ++ left ∧
      ((labelErrors y).filter (JsRecord.reported (labelErrors y))).map (toIssue · data') = shared ++ right ∧
      (∀ issue, issue ∈ left ↔ issue ∈ right) ∧ ∀ issue ∈ left, issue.path = labelPath := by
  have whole : ∀ {plain : Bool} {list : List (String × Value)}, (list.map Prod.fst).Nodup →
      (labelErrors (.object plain list)).filter (JsRecord.reported (labelErrors (.object plain list))) =
        labelErrors (.object plain list) := by
    intro plain list distinct
    apply List.filter_eq_self.mpr
    intro error member
    have ordinary := (labelErrors_settled member).1
    have unowned : issuePath error ≠ sinkOwned := by
      intro owned
      have inside := (labelErrors_inside member).trans (instancePath_leads error)
      rw [owned, labelsPath, sinkOwned, List.cons_prefix_cons] at inside
      exact absurd inside.1 (by decide)
    rcases labelErrors_typed distinct member with typed | clear
    · simp [JsRecord.reported, ordinary, typed, unowned]
    · simp [JsRecord.reported, ordinary, clear, unowned]
  cases same with
  | refl =>
    refine ⟨((labelErrors x).filter (JsRecord.reported (labelErrors x))).map (toIssue · data), [], [], by simp, ?_, by simp,
      by simp⟩
    rw [List.append_nil]
    apply List.map_congr_left
    intro error member
    exact (labelErrors_settled (List.mem_filter.mp member).1).2.2 data' data
  | array a b =>
    have same : labelErrors (.array b) = labelErrors (.array a) := rfl
    refine ⟨((labelErrors (.array a)).filter (JsRecord.reported (labelErrors (.array a)))).map (toIssue · data), [], [],
      by simp, ?_, by simp, by simp⟩
    rw [List.append_nil, same]
    apply List.map_congr_left
    intro error member
    exact (labelErrors_settled (List.mem_filter.mp member).1).2.2 data' data
  | object p q length left right names faults =>
    rw [whole left, whole right]
    exact labelIssues_same (.object p q length left right names faults) data data'

/-- `inspect` reports veiled values alike, but for the order of what it reports at each label. -/
theorem inspect_veiled (now : Int) (veiled : Veiled .record x y) :
    paths (inspect now x) = paths (inspect now y) ∧ (inspect now x).Perm (inspect now y) := by
  obtain ⟨before, after, whole⟩ := around_veiled veiled
  obtain ⟨shared, left, right, ours, theirs, same, flat⟩ := (labels_veiled veiled).reported x y
  have first := fun branch => map_kept_veiled veiled branch fun error =>
    List.mem_append_left (propertiesOf laterProperties [] x)
  have last := fun branch => map_kept_veiled veiled branch fun error => List.mem_append_right (beforeLabels [] x)
  let front := formatIssues x ++ (kept false x (beforeLabels [] x)).map (toIssue · x) ++ shared
  let back := (kept false x (propertiesOf laterProperties [] x)).map (toIssue · x)
  have structural : formatIssues x ++ (structuralErrors x).map (toIssue · x) = front ++ left ++ back := by
    rw [structuralErrors_split, List.map_append, List.map_append, ours]
    simp [front, back]
  have structural' : formatIssues y ++ (structuralErrors y).map (toIssue · y) = front ++ right ++ back := by
    rw [structuralErrors_split, List.map_append, List.map_append, theirs, ← before, ← after, ← first, ← last,
      ← formatIssues_veiled veiled]
    simp [front, back]
  have conditional : (conditionalErrors x).map (toIssue · x) ++ proseIssues now x =
      (conditionalErrors y).map (toIssue · y) ++ proseIssues now y := by
    rw [conditionalErrors_split, conditionalErrors_split, List.map_append, List.map_append, ← before, ← after, first,
      last, proseIssues_veiled veiled]
  have empty : left = [] ↔ right = [] := by
    rw [List.eq_nil_iff_forall_not_mem, List.eq_nil_iff_forall_not_mem]
    exact forall_congr' fun issue => not_congr (same issue)
  have clean : front ++ left ++ back = [] ↔ front ++ right ++ back = [] := by
    simp only [List.append_eq_nil_iff, empty]
  unfold inspect
  dsimp only
  rw [structural, structural', conditional]
  by_cases none : front ++ left ++ back = []
  · rw [if_neg (not_not.mpr none), if_neg (not_not.mpr (clean.mp none))]
    exact ⟨rfl, List.Perm.refl _⟩
  · rw [if_pos none, if_pos (mt clean.mpr none)]
    refine ⟨Dedupe.map_eraseDups_swap same flat, Dedupe.eraseDups_perm fun issue => ?_⟩
    simp only [List.mem_append, same]

/-! The three ways to have a record checked. -/

theorem validate_renamed (now : Int) (renamed : Renamed SameRules .record x y) :
    paths (validate now x) = paths (validate now y) ∧ (validate now x).Perm (validate now y) :=
  inspect_veiled now (renamed.veiled.asJson none)

/-- The issues a call throws. -/
def thrown : Except (List Issue) Value → List Issue
  | .error issues => issues
  | .ok _ => []

theorem versionIssue_veiled (veiled : Veiled place x y) : versionIssue x = versionIssue y := by
  cases veiled with
  | refl => rfl
  | array => rfl
  | object _ p q members each defined labels =>
    have version := field_veiled each (by decide : "spec_version" ≠ "labels")
    unfold versionIssue
    dsimp only
    generalize Value.field "spec_version" (mapValues Prod.fst members) = left at *
    generalize Value.field "spec_version" (mapValues Prod.snd members) = right at *
    cases version <;> rfl

theorem parseRecord_renamed (now : Int) (renamed : Renamed SameRules .record x y) :
    paths (thrown (parseRecord now x)) = paths (thrown (parseRecord now y)) ∧
      (thrown (parseRecord now x)).Perm (thrown (parseRecord now y)) := by
  have copied := renamed.veiled.clone
  have rest : paths (validate now (clone x)) = paths (validate now (clone y)) ∧
      (validate now (clone x)).Perm (validate now (clone y)) := inspect_veiled now (copied.asJson none)
  by_cases plain : cloneable x = true
  · have plain' : cloneable y = true := renamed.cloneable ▸ plain
    simp only [parseRecord, cloneInput, if_pos plain, if_pos plain', bind, Except.bind, ← versionIssue_veiled copied]
    cases versionIssue (clone x) with
    | some issue => exact ⟨rfl, List.Perm.refl _⟩
    | none =>
      by_cases clean : validate now (clone x) = []
      · have clean' : validate now (clone y) = [] := List.nil_perm.mp (clean ▸ rest.2)
        simp [clean, clean', thrown]
      · have clean' : validate now (clone y) ≠ [] := fun none => clean (List.perm_nil.mp (none ▸ rest.2))
        simpa [clean, clean', thrown] using rest
  · have plain' : ¬cloneable y = true := renamed.cloneable ▸ plain
    have whole := validate_renamed now renamed
    simp only [parseRecord, cloneInput, if_neg plain, if_neg plain', bind, Except.bind, thrown]
    by_cases clean : validate now x = []
    · have clean' : validate now y = [] := List.nil_perm.mp (clean ▸ whole.2)
      simp [clean, clean']
    · have clean' : validate now y ≠ [] := fun none => clean (List.perm_nil.mp (none ▸ whole.2))
      simpa [clean, clean'] using whole

/-- Names beneath `labels` decide nothing of what is reported but the order of a label's own
issues, whichever way a record is checked, as long as they break the same rules. -/
theorem names_undisclosed (now : Int) :
    (∀ x y, Renamed SameRules .record x y →
      paths (validate now x) = paths (validate now y) ∧ (validate now x).Perm (validate now y) ∧
        paths (thrown (parseRecord now x)) = paths (thrown (parseRecord now y)) ∧
        (thrown (parseRecord now x)).Perm (thrown (parseRecord now y))) ∧
    ∀ text other : Text, Renamed SameRules .record (parse text) (parse other) →
      paths (thrown (decodeRecord now (some text))) = paths (thrown (decodeRecord now (some other))) ∧
        (thrown (decodeRecord now (some text))).Perm (thrown (decodeRecord now (some other))) := by
  refine ⟨fun x y renamed => ?_, fun text other renamed => parseRecord_renamed now renamed⟩
  obtain ⟨same, perm⟩ := validate_renamed now renamed
  obtain ⟨same', perm'⟩ := parseRecord_renamed now renamed
  exact ⟨same, perm, same', perm'⟩

/-- A record with one label. -/
def labelled (name : String) (value : Value) : Value :=
  .object true [("attribution", .object true [("labels", .object true [(name, value)])])]

theorem labelled_renamed {rule : NameRule} {name renamed : String} (related : rule name renamed) (value : Value) :
    Renamed rule .record (labelled name value) (labelled renamed value) := by
  have labels : Beneath rule (.object true [(name, value)]) (.object true [(renamed, value)]) := by
    apply Beneath.object rule true [⟨name, renamed, value, value⟩]
    · simpa using related
    · simpa using Beneath.refl AnyName value
    · simp
    · simp
    · exact List.Perm.refl _
  have attribution : Renamed rule .attribution (.object true [("labels", .object true [(name, value)])])
      (.object true [("labels", .object true [(renamed, value)])]) := by
    apply Renamed.object _ true [("labels", (.object true [(name, value)], .object true [(renamed, value)]))]
    · simp
    · intro member listed _
      rw [List.mem_singleton.mp listed]
      exact labels
  apply Renamed.object _ true [("attribution", (.object true [("labels", .object true [(name, value)])],
    .object true [("labels", .object true [(renamed, value)])]))]
  · intro member listed _
    rw [List.mem_singleton.mp listed]
    exact attribution
  · simp

/-- Two names no label may have, with a value none may have. -/
theorem names_undisclosed_pair :
    paths (validate 0 (labelled "a@b" .null)) = paths (validate 0 (labelled "c@d" .null)) ∧
      (validate 0 (labelled "a@b" .null)).Perm (validate 0 (labelled "c@d" .null)) ∧
      paths (thrown (decodeRecord 0 (some (.obj [("attribution", .obj [("labels", .obj [("a@b", .null)])])])))) =
        paths (thrown (decodeRecord 0 (some (.obj [("attribution", .obj [("labels", .obj [("c@d", .null)])])])))) := by
  have rules : SameRules "a@b" "c@d" := ⟨by decide +kernel, by decide⟩
  obtain ⟨same, perm, -⟩ := (names_undisclosed 0).1 _ _ (labelled_renamed rules .null)
  refine ⟨same, perm, ((names_undisclosed 0).2 _ _ ?_).1⟩
  exact labelled_renamed rules .null

end Audr.JsRecord
