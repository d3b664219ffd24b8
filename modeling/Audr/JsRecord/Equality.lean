import Audr.JsRecord.Built

/-! Values that are deeply equal are accepted alike. -/

namespace Audr.JsRecord

open Value (DeepEqual)

variable {path : List String} {a b : List (String × Value)} {p q : Bool} {x y : Value}

theorem SameNumber.symm {x y : Double} (same : Value.SameNumber x y) : Value.SameNumber y x := by
  rcases same with rfl | ⟨left, right⟩
  · exact .inl rfl
  · exact .inr ⟨right, left⟩

theorem SameNumber.trans {x y z : Double} (first : Value.SameNumber x y) (second : Value.SameNumber y z) :
    Value.SameNumber x z := by
  rcases first with rfl | ⟨left, middle⟩
  · exact second
  · rcases second with rfl | ⟨-, right⟩
    · exact .inr ⟨left, middle⟩
    · exact .inr ⟨left, right⟩

theorem finiteValue_same {x y : Double} (same : Value.SameNumber x y) : finiteValue x = finiteValue y := by
  rcases same with rfl | ⟨rfl | rfl, rfl | rfl⟩ <;> rfl

theorem Value.DeepEqual.symm (equal : DeepEqual x y) : DeepEqual y x := by
  induction equal with
  | null => exact .null
  | bool value => exact .bool value
  | number same => exact .number (SameNumber.symm same)
  | string text => exact .string text
  | object names each ih => exact .object names.symm fun name x y first second => ih name y x second first

theorem Value.DeepEqual.trans (first : DeepEqual x y) {z : Value} (second : DeepEqual y z) : DeepEqual x z := by
  induction first generalizing z with
  | null => exact second
  | bool value => exact second
  | number same =>
    obtain - | - | later := second
    exact .number (SameNumber.trans same later)
  | string text => exact second
  | object names each ih =>
    obtain - | - | - | - | ⟨names', each'⟩ := second
    refine .object (names.trans names') fun name x z member last => ?_
    have listed := names.mem_iff.mp (List.mem_map_of_mem (f := Prod.fst) member)
    obtain ⟨⟨_, y⟩, middle, rfl⟩ := List.mem_map.mp listed
    exact ih _ x y member middle (each' _ y z middle last)

theorem Value.DeepEqual.isDefined (equal : DeepEqual x y) : x.isDefined = true ∧ y.isDefined = true := by
  cases equal <;> exact ⟨rfl, rfl⟩

/-- Two members that are both absent, or equal. -/
def Alike (x y : Value) : Prop := (x = .undefined ∧ y = .undefined) ∨ DeepEqual x y

theorem Alike.isDefined (alike : Alike x y) : x.isDefined = y.isDefined := by
  rcases alike with ⟨rfl, rfl⟩ | equal
  · rfl
  · rw [equal.isDefined.1, equal.isDefined.2]

theorem Alike.equal (alike : Alike x y) (defined : y.isDefined = true) : DeepEqual x y := by
  rcases alike with ⟨rfl, rfl⟩ | equal
  · contradiction
  · exact equal

theorem field_alike (left : (a.map Prod.fst).Nodup) (right : (b.map Prod.fst).Nodup)
    (equal : DeepEqual (.object p a) (.object q b)) (name : String) : Alike (Value.field name a) (Value.field name b) := by
  obtain - | - | - | - | ⟨names, each⟩ := equal
  by_cases listed : name ∈ a.map Prod.fst
  · obtain ⟨⟨_, x⟩, first, rfl⟩ := List.mem_map.mp listed
    obtain ⟨⟨other, y⟩, second, same⟩ := List.mem_map.mp (names.mem_iff.mp listed)
    dsimp only at same
    subst same
    rw [field_of_mem left first, field_of_mem right second]
    exact .inr (each _ x y first second)
  · rw [field_of_notMem listed, field_of_notMem fun present => listed (names.mem_iff.mpr present)]
    exact .inl ⟨rfl, rfl⟩

theorem field_wellFormed (formed : ∀ entry ∈ a, entry.2.WellFormed) (name : String) : (Value.field name a).WellFormed := by
  by_cases defined : (Value.field name a).isDefined = true
  · exact formed _ (mem_of_field defined)
  · cases held : Value.field name a <;> simp_all [Value.isDefined]
    exact .undefined

/-- A schema that tells no equal values apart. -/
def Respects (schema : Schema) : Prop :=
  ∀ path x y, x.WellFormed → y.WellFormed → DeepEqual x y → schema path x = [] → schema path y = []

theorem respects_string (least : Nat) (most : Option Nat) (pattern : Option Pattern) :
    Respects (stringSchema least most pattern) := by
  intro path x y _ _ equal clean
  obtain ⟨text, rfl, -⟩ := stringSchema_nil.mp clean
  cases equal
  exact clean

theorem respects_enum (values : List String) : Respects (enumSchema values) := by
  intro path x y _ _ equal clean
  obtain ⟨text, -, rfl⟩ := enumSchema_nil.mp clean
  cases equal
  exact clean

theorem respects_const (expected : String) : Respects (constSchema expected) := by
  intro path x y _ _ equal clean
  cases equal <;> simp_all [constSchema, isOneOf]

theorem respects_number (types : List String) (whole : Bool) (most : Option ℚ) :
    Respects (numberSchema types whole most) := by
  intro path x y _ _ equal clean
  obtain ⟨number, q, rfl, finite, rest⟩ := numberSchema_nil.mp clean
  obtain - | - | same := equal
  exact numberSchema_nil.mpr ⟨_, q, rfl, finiteValue_same same ▸ finite, rest⟩

theorem respects_properties {properties : List (String × Schema)}
    (each : ∀ property ∈ properties, Respects property.2) (left : (Value.object p a).WellFormed)
    (right : (Value.object q b).WellFormed) (equal : DeepEqual (.object p a) (.object q b))
    (clean : propertyErrors properties path a = []) : propertyErrors properties path b = [] := by
  obtain - | - | - | - | - | - | - | ⟨distinct, formed⟩ := left
  obtain - | - | - | - | - | - | - | ⟨distinct', formed'⟩ := right
  refine propertyErrors_nil.mpr fun property listed defined => ?_
  have alike := field_alike distinct distinct' equal property.1
  refine each property listed _ _ _ (field_wellFormed formed _) (field_wellFormed formed' _) (alike.equal defined) ?_
  exact propertyErrors_nil.mp clean property listed (alike.isDefined ▸ defined)

theorem respects_missing {names : List String} (left : (Value.object p a).WellFormed)
    (right : (Value.object q b).WellFormed) (equal : DeepEqual (.object p a) (.object q b)) (path : List String) :
    missing names path a = missing names path b := by
  obtain - | - | - | - | - | - | - | ⟨distinct, formed⟩ := left
  obtain - | - | - | - | - | - | - | ⟨distinct', formed'⟩ := right
  simp [missing, (field_alike distinct distinct' equal _).isDefined]

theorem respects_object {least : Nat} {required : List String} {properties : List (String × Schema)}
    {extension : Option ((String → Bool) × Schema)} (each : ∀ property ∈ properties, Respects property.2)
    (more : ∀ rule ∈ extension, Respects rule.2) : Respects (objectSchema least required properties extension) := by
  intro path x y left right equal clean
  obtain ⟨plain, a, rfl, few, present, known, fields, others⟩ := objectSchema_nil.mp clean
  obtain ⟨b, rfl⟩ : ∃ b, y = .object plain b := by
    cases equal
    exact ⟨_, rfl⟩
  have missed := @respects_missing _ _ _ _ required left right equal path
  have inside := @respects_properties path _ _ _ _ _ each left right equal (propertyErrors_nil.mpr fields)
  obtain - | - | - | - | ⟨names, same⟩ := equal
  obtain - | - | - | - | - | - | - | ⟨distinct, formed⟩ := left
  obtain - | - | - | - | - | - | - | ⟨distinct', formed'⟩ := right
  have source : ∀ entry ∈ b, ∃ value, (entry.1, value) ∈ a ∧ DeepEqual value entry.2 := by
    intro entry member
    obtain ⟨⟨_, value⟩, first, rfl⟩ := List.mem_map.mp (names.mem_iff.mpr (List.mem_map_of_mem member))
    exact ⟨value, first, same _ _ _ first member⟩
  refine objectSchema_nil.mpr ⟨plain, b, rfl, ?_, ?_, ?_, propertyErrors_nil.mp inside, ?_⟩
  · rw [← @List.length_map _ _ b Prod.fst, ← names.length_eq, List.length_map]
    exact few
  · rw [missing_nil.mpr present] at missed
    exact missing_nil.mp missed.symm
  · intro entry member
    obtain ⟨value, first, -⟩ := source entry member
    exact known (entry.1, value) first
  · intro rule listed entry member admitted
    obtain ⟨value, first, same⟩ := source entry member
    exact more rule listed _ _ _ (formed _ first) (formed' _ member) same (others rule listed _ first admitted)

theorem respects_restrict {forbidden required : List String} {properties : List (String × Schema)}
    (each : ∀ property ∈ properties, Respects property.2) : Respects (restrict forbidden required properties) := by
  intro path x y left right equal clean
  cases equal with
  | @object plain a b names same =>
    have equal : DeepEqual (.object plain a) (.object plain b) := .object names same
    obtain ⟨banned, present, inside⟩ := restrict_nil.mp clean
    have missed := @respects_missing _ _ _ _ required left right equal path
    have inside := @respects_properties path _ _ _ _ _ each left right equal (propertyErrors_nil.mpr inside)
    rw [missing_nil.mpr present] at missed
    refine restrict_nil.mpr ⟨?_, missing_nil.mp missed.symm, propertyErrors_nil.mp inside⟩
    obtain - | - | - | - | - | - | - | ⟨distinct, formed⟩ := left
    obtain - | - | - | - | - | - | - | ⟨distinct', formed'⟩ := right
    intro name listed
    rw [← (field_alike distinct distinct' equal name).isDefined]
    exact banned name listed
  | _ => exact clean

theorem respects_branch {condition : Value → Bool} {rule : Schema} (respects : Respects rule)
    (same : ∀ x y, x.WellFormed → y.WellFormed → DeepEqual x y → condition x = condition y) :
    Respects (branch condition rule) := by
  intro path x y left right equal clean
  refine branch_nil.mpr fun applies => ?_
  exact respects path x y left right equal (branch_nil.mp clean (same x y left right equal ▸ applies))

theorem respects_labels : Respects labelsSchema := by
  intro path x y left right equal clean
  obtain ⟨plain, a, rfl, few, named, values⟩ := labelsSchema_nil.mp clean
  obtain - | - | - | - | ⟨names, same⟩ := equal
  rename_i b
  have source : ∀ entry ∈ b, ∃ value, (entry.1, value) ∈ a ∧ DeepEqual value entry.2 := by
    intro entry member
    obtain ⟨⟨_, value⟩, first, rfl⟩ := List.mem_map.mp (names.mem_iff.mpr (List.mem_map_of_mem member))
    exact ⟨value, first, same _ _ _ first member⟩
  refine labelsSchema_nil.mpr ⟨plain, b, rfl, ?_, ?_, ?_⟩
  · rw [← @List.length_map _ _ b Prod.fst, ← names.length_eq, List.length_map]
    exact few
  · intro entry member
    obtain ⟨value, first, -⟩ := source entry member
    exact named (entry.1, value) first
  · intro entry member
    obtain ⟨value, first, equal⟩ := source entry member
    obtain ⟨text, rfl, short⟩ := values _ first
    cases held : entry.2 <;> rw [held] at equal <;> cases equal
    exact ⟨text, rfl, short⟩

/-! What is read from members that are alike. -/

theorem isOneOf_alike {values : List String} (alike : Alike x y) : isOneOf values x = isOneOf values y := by
  rcases alike with ⟨rfl, rfl⟩ | equal
  · rfl
  · cases equal <;> rfl

theorem alike_field (left : (Value.object p a).WellFormed) (right : (Value.object q b).WellFormed)
    (equal : DeepEqual (.object p a) (.object q b)) (name : String) : Alike (Value.field name a) (Value.field name b) := by
  obtain - | - | - | - | - | - | - | ⟨distinct, formed⟩ := left
  obtain - | - | - | - | - | - | - | ⟨distinct', formed'⟩ := right
  exact field_alike distinct distinct' equal name

theorem wellFormed_field (formed : (Value.object p a).WellFormed) (name : String) : (Value.field name a).WellFormed := by
  obtain - | - | - | - | - | - | - | ⟨-, formed⟩ := formed
  exact field_wellFormed formed name

theorem valueAt_alike (names : List String) : ∀ {x y : Value}, x.WellFormed → y.WellFormed → Alike x y →
    Alike (valueAt x names) (valueAt y names) := by
  induction names with
  | nil => exact fun _ _ alike => alike
  | cons name rest ih =>
    intro x y left right alike
    rcases alike with ⟨rfl, rfl⟩ | equal
    · exact .inl ⟨rfl, rfl⟩
    · cases equal with
      | object names each =>
        exact ih (wellFormed_field left name) (wellFormed_field right name)
          (alike_field left right (.object names each) name)
      | _ => exact .inl ⟨rfl, rfl⟩

theorem inProduction_same (left : x.WellFormed) (right : y.WellFormed) (equal : DeepEqual x y) :
    inProduction x = inProduction y := by
  cases equal with
  | object names each => exact isOneOf_alike (alike_field left right (.object names each) "environment")
  | _ => rfl

theorem operationIn_same (operations : List String) (left : x.WellFormed) (right : y.WellFormed)
    (equal : DeepEqual x y) : operationIn operations x = operationIn operations y := by
  cases equal with
  | object names each =>
    have alike := alike_field left right (.object names each) "resource"
    have formed := wellFormed_field left "resource"
    have formed' := wellFormed_field right "resource"
    unfold operationIn
    dsimp only
    generalize Value.field "resource" _ = x at *
    generalize Value.field "resource" _ = y at *
    rcases alike with ⟨rfl, rfl⟩ | equal
    · rfl
    · cases equal with
      | object names each => exact isOneOf_alike (alike_field formed formed' (.object names each) "operation")
      | _ => rfl
  | _ => rfl

/-! The record schema. -/

theorem respects_attribution : Respects attributionSchema := by
  have rule : Respects productionBranch :=
    respects_branch (respects_restrict (by simp)) fun x y => inProduction_same
  have fields : Respects attributionObject := by
    refine respects_object ?_ (by simp)
    simp [respects_enum, anyText, someText, respects_string, respects_labels]
  intro path x y left right equal clean
  obtain ⟨first, second⟩ := List.append_eq_nil_iff.mp clean
  exact List.append_eq_nil_iff.mpr
    ⟨rule path x y left right equal first, fields path x y left right equal second⟩

theorem respects_usage : Respects usageSchema := by
  have llm : Respects llmUsageSchema := by
    refine respects_object ?_ ?_ <;> simp [integer, amount, extensionSchema, extensionNumber, respects_number]
  have tool : Respects toolUsageSchema := by
    refine respects_object ?_ ?_ <;>
      simp [someText, integer, amount, extensionSchema, extensionNumber, respects_string, respects_number]
  refine respects_object ?_ (by simp)
  simp [llm, tool]

theorem respects_cost : Respects costSchema := by
  have llm : Respects llmCostSchema := by
    refine respects_object ?_ (by simp)
    simp [amount, respects_number]
  have tool : Respects toolCostSchema := by
    refine respects_object ?_ ?_ <;> simp [someText, amount, respects_string, respects_number]
  refine respects_object ?_ (by simp)
  simp [llm, tool, amount, matching, respects_number, respects_string]

theorem respects_blocks : ∀ property ∈ recordProperties, Respects property.2 := by
  have emitter : Respects emitterSchema := by
    refine respects_object ?_ (by simp)
    simp [respects_enum, someText, respects_string]
  have timing : Respects timingSchema := by
    refine respects_object ?_ (by simp)
    simp [timestampSchema, integer, respects_string, respects_number]
  have resource : Respects resourceSchema := by
    refine respects_object ?_ (by simp)
    simp [matching, someText, anyText, respects_string, respects_enum]
  have run : Respects runSchema := by
    refine respects_object ?_ (by simp)
    simp [idText, someText, anyText, integer, respects_string, respects_enum, respects_number]
  simp [recordProperties, matching, idText, respects_string, emitter, timing, resource, run, respects_attribution,
    respects_usage, respects_cost]

theorem respects_record :
    Respects fun path value => modelBranch path value ++ toolBranch path value ++ recordObject path value := by
  have model : Respects modelBranch := by
    refine respects_branch (respects_restrict ?_) fun x y => operationIn_same _
    simp [respects_restrict, respects_const]
  have tool : Respects toolBranch := by
    refine respects_branch (respects_restrict ?_) fun x y => operationIn_same _
    simp [respects_restrict, respects_const]
  have object : Respects recordObject := respects_object respects_blocks (by simp)
  intro path x y left right equal clean
  obtain ⟨branches, last⟩ := List.append_eq_nil_iff.mp clean
  obtain ⟨first, second⟩ := List.append_eq_nil_iff.mp branches
  exact List.append_eq_nil_iff.mpr ⟨List.append_eq_nil_iff.mpr
    ⟨model path x y left right equal first, tool path x y left right equal second⟩,
    object path x y left right equal last⟩

theorem identifierIssues_alike {key : String} (alike : Alike x y) : identifierIssues key x = identifierIssues key y := by
  rcases alike with ⟨rfl, rfl⟩ | equal
  · rfl
  · cases equal <;> rfl

theorem timingIssues_alike (left : x.WellFormed) (right : y.WellFormed) (alike : Alike x y) :
    timingIssues x = timingIssues y := by
  rcases alike with ⟨rfl, rfl⟩ | equal
  · rfl
  · cases equal with
    | object names each =>
      have event := alike_field left right (.object names each) "event_time"
      have received := alike_field left right (.object names each) "received_time"
      unfold timingIssues
      dsimp only
      rw [received.isDefined]
      congr 1
      generalize Value.field "event_time" _ = x at *
      generalize Value.field "event_time" _ = y at *
      rcases event with ⟨rfl, rfl⟩ | equal
      · rfl
      · cases equal <;> rfl
    | _ => rfl

theorem traceIssues_alike (left : x.WellFormed) (right : y.WellFormed) (alike : Alike x y) :
    traceIssues x = traceIssues y := by
  rcases alike with ⟨rfl, rfl⟩ | equal
  · rfl
  · cases equal with
    | object names each =>
      have trace := alike_field left right (.object names each) "trace_id"
      unfold traceIssues
      dsimp only
      generalize Value.field "trace_id" _ = x at *
      generalize Value.field "trace_id" _ = y at *
      rcases trace with ⟨rfl, rfl⟩ | equal
      · rfl
      · cases equal <;> rfl
    | _ => rfl

theorem formatIssues_same (left : x.WellFormed) (right : y.WellFormed) (equal : DeepEqual x y) :
    formatIssues x = formatIssues y := by
  cases equal with
  | @object plain a b names each =>
    have alike := alike_field left right (.object names each)
    have formed := wellFormed_field left
    have formed' := wellFormed_field right
    rw [formatIssues, formatIssues, identifierIssues_alike (alike "record_id"), identifierIssues_alike (alike "corrects"),
      timingIssues_alike (formed _) (formed' _) (alike "timing"),
      traceIssues_alike (formed _) (formed' _) (alike "run")]
  | _ => rfl

/-- A moment that is not in the future never becomes one that is. -/
theorem eventTimeIssues_later {now later : Int} (passed : now ≤ later) (alike : Alike x y)
    (clean : eventTimeIssues now x = []) : eventTimeIssues later y = [] := by
  have monotone : ∀ value, eventTimeIssues now value = [] → eventTimeIssues later value = [] := by
    intro value clean
    unfold eventTimeIssues at clean ⊢
    split at clean
    next text =>
      split at clean
      next epochMs fraction parsed =>
        obtain ⟨fine, past⟩ := List.append_eq_nil_iff.mp clean
        have past : epochMs ≤ now + futureSkewMs := by simpa using past
        have still : ¬ epochMs > later + futureSkewMs := by omega
        simp only [fine, if_neg still, List.append_nil]
      next parsed => simp
    next => rfl
  rcases alike with ⟨rfl, rfl⟩ | equal
  · rfl
  · cases equal with
    | string text => exact monotone _ clean
    | _ => rfl

theorem userIssues_alike (alike : Alike x y) : userIssues x = userIssues y := by
  rcases alike with ⟨rfl, rfl⟩ | equal
  · rfl
  · cases equal <;> rfl

theorem proseIssues_later {now later : Int} (passed : now ≤ later) (left : x.WellFormed) (right : y.WellFormed)
    (equal : DeepEqual x y) (clean : proseIssues now x = []) : proseIssues later y = [] := by
  have alike := fun names => valueAt_alike names left right (.inr equal)
  unfold proseIssues at clean ⊢
  rw [List.append_eq_nil_iff, List.append_eq_nil_iff] at clean
  rw [← userIssues_alike (alike _), ← (alike _).isDefined, clean.1.2, clean.2,
    eventTimeIssues_later passed (alike _) clean.1.1]
  rfl

/-- Where a record is accepted, one that is deeply equal is accepted at any later time. -/
theorem inspect_equal {now later : Int} (passed : now ≤ later) (left : x.WellFormed) (right : y.WellFormed)
    (equal : DeepEqual x y) (clean : inspect now x = []) : inspect later y = [] := by
  obtain ⟨schema, formats, prose⟩ := inspect_nil.mp clean
  exact inspect_nil.mpr ⟨respects_record [] x y left right equal schema,
    formatIssues_same left right equal ▸ formats, proseIssues_later passed left right equal prose⟩

end Audr.JsRecord
