import Audr.JsRecord.Built
import Audr.Lib.Paths

/-! The scalar leaves of a value and the paths to them: in a record, joined paths are apart. -/

namespace Audr.JsRecord

open Paths Properties

variable {value : Value} {members : List (String × Value)} {plain : Bool} {separator : String}

def Value.isObject : Value → Bool
  | .object _ _ => true
  | _ => false

/-- A leaf, as seen from one level further up. -/
def inside (name : String) (leaf : List String × Value) : List String × Value := (name :: leaf.1, leaf.2)

theorem inside_injective (name : String) : Function.Injective (inside name) := by
  intro first second same
  obtain ⟨path, value⟩ := Prod.mk.inj same
  exact Prod.ext (List.cons.inj path).2 value

mutual

/-- The leaves of a value, each with the names that lead to it. -/
def leaves : Value → List (List String × Value)
  | .undefined => []
  | .object _ members => leavesOf members
  | value => [([], value)]

def leavesOf : List (String × Value) → List (List String × Value)
  | [] => []
  | (name, value) :: rest => (leaves value).map (inside name) ++ leavesOf rest

end

theorem leavesOf_eq (members : List (String × Value)) :
    leavesOf members = members.flatMap fun entry => (leaves entry.2).map (inside entry.1) := by
  induction members with
  | nil => rfl
  | cons entry rest ih =>
    obtain ⟨name, value⟩ := entry
    rw [leavesOf, ih, List.flatMap_cons]

theorem mem_leavesOf {leaf : List String × Value} : leaf ∈ leavesOf members ↔
    ∃ entry ∈ members, ∃ rest, (rest, leaf.2) ∈ leaves entry.2 ∧ leaf.1 = entry.1 :: rest := by
  rw [leavesOf_eq, List.mem_flatMap]
  refine exists_congr fun entry => and_congr_right fun _ => ?_
  rw [List.mem_map]
  constructor
  · rintro ⟨⟨rest, value⟩, member, rfl⟩
    exact ⟨rest, member, rfl⟩
  · rintro ⟨rest, member, spelled⟩
    exact ⟨_, member, Prod.ext spelled.symm rfl⟩

theorem leaves_leaf (leaf : value.isObject = false) : ∀ found ∈ leaves value, found = ([], value) := by
  cases value <;> simp_all [leaves, Value.isObject]

theorem isDefined_of_leaf {leaf : List String × Value} (member : leaf ∈ leaves value) : value.isDefined = true := by
  cases value <;> first | rfl | cases member

theorem isObject_of_path {leaf : List String × Value} (member : leaf ∈ leaves value) (path : leaf.1 ≠ []) :
    value.isObject = true := by
  by_contra other
  exact path (leaves_leaf (by simpa using other) leaf member ▸ rfl)

theorem leavesOf_perm {more : List (String × Value)} (same : members.Perm more) :
    (leavesOf members).Perm (leavesOf more) := by
  rw [leavesOf_eq, leavesOf_eq]
  exact same.flatMap_right _

/-- The leaves of a member are those of the object under its name. -/
theorem mem_leaves_member (distinct : (members.map Prod.fst).Nodup) {entry : String × Value} (listed : entry ∈ members)
    {rest : List String} : (rest, value) ∈ leaves entry.2 ↔ (entry.1 :: rest, value) ∈ leavesOf members := by
  rw [mem_leavesOf]
  constructor
  · exact fun member => ⟨entry, listed, rest, member, rfl⟩
  · rintro ⟨other, found, path, member, spelled⟩
    obtain ⟨name, rfl⟩ := List.cons.inj spelled
    rwa [List.inj_on_of_nodup_map distinct listed found name]

theorem leaves_nodup (formed : value.WellFormed) : (leaves value).Nodup := by
  induction value using Value.induct with
  | undefined => exact List.nodup_nil
  | object plain members ih =>
    obtain - | - | - | - | - | - | - | ⟨distinct, formed⟩ := formed
    rw [leaves, leavesOf_eq]
    refine List.nodup_flatMap.mpr ⟨fun entry member => ?_, ?_⟩
    · exact (ih entry member (formed entry member)).map (inside_injective entry.1)
    · refine (List.pairwise_map.mp distinct).imp fun {first second} differ leaf one two => ?_
      obtain ⟨p, -, rfl⟩ := List.mem_map.mp one
      obtain ⟨q, -, same⟩ := List.mem_map.mp two
      exact differ (List.cons.inj (congrArg Prod.fst same)).1.symm
  | _ => exact List.nodup_singleton _

/-- A path leads to one leaf. -/
theorem leaves_functional (formed : value.WellFormed) {path : List String} {x y : Value} (one : (path, x) ∈ leaves value)
    (two : (path, y) ∈ leaves value) : x = y := by
  induction value using Value.induct generalizing path with
  | object plain members ih =>
    obtain - | - | - | - | - | - | - | ⟨distinct, formed⟩ := formed
    obtain ⟨entry, listed, rest, found, spelled⟩ := mem_leavesOf.mp one
    obtain rfl : path = entry.1 :: rest := spelled
    exact ih entry listed (formed entry listed) found ((mem_leaves_member distinct listed).mpr two)
  | undefined => cases one
  | _ =>
    have first := (Prod.mk.inj (List.mem_singleton.mp one)).2
    exact first.trans (Prod.mk.inj (List.mem_singleton.mp two)).2.symm

/-- Below a path, there are the leaves of what the path leads to. -/
theorem mem_leaves_valueAt {rest : List String} {x : Value} (names : List String) : ∀ {value : Value},
    value.WellFormed → ((names ++ rest, x) ∈ leaves value ↔ (rest, x) ∈ leaves (valueAt value names)) := by
  induction names with
  | nil => exact fun _ => Iff.rfl
  | cons name names ih =>
    intro value formed
    by_cases object : value.isObject = true
    · cases value with
      | object plain members =>
        obtain - | - | - | - | - | - | - | ⟨distinct, formed⟩ := formed
        rw [valueAt]
        by_cases listed : name ∈ members.map Prod.fst
        · obtain ⟨entry, member, rfl⟩ := List.mem_map.mp listed
          rw [field_of_mem distinct member, ← ih (formed entry member)]
          exact (mem_leaves_member distinct member).symm
        · rw [field_of_notMem listed, ← ih .undefined]
          refine iff_of_false (fun member => ?_) (by simp [leaves])
          obtain ⟨entry, found, path, -, spelled⟩ := mem_leavesOf.mp member
          exact listed (List.mem_map.mpr ⟨entry, found, (List.cons.inj spelled).1.symm⟩)
      | _ => cases object
    · refine iff_of_false (fun member => object (isObject_of_path member nofun)) fun member => ?_
      cases value with
      | object plain members => exact object rfl
      | _ => cases member

/-! The paths a schema admits. -/

def Leafy (schema : Schema) : Prop := ∀ path value, schema path value = [] → value.isObject = false

theorem leafy_string (least : Nat) (most : Option Nat) (pattern : Option Pattern) :
    Leafy (stringSchema least most pattern) := by
  intro path value clean
  obtain ⟨text, rfl, -⟩ := stringSchema_nil.mp clean
  rfl

theorem leafy_number (types : List String) (whole : Bool) (most : Option ℚ) : Leafy (numberSchema types whole most) := by
  intro path value clean
  obtain ⟨number, q, rfl, -⟩ := numberSchema_nil.mp clean
  rfl

theorem leafy_enum (values : List String) : Leafy (enumSchema values) := by
  intro path value clean
  obtain ⟨text, -, rfl⟩ := enumSchema_nil.mp clean
  rfl

def PathsAre (schema : Schema) (admits : List String → Prop) : Prop :=
  ∀ path value, value.WellFormed → schema path value = [] → ∀ leaf ∈ leaves value, admits leaf.1

theorem Leafy.pathsAre {schema : Schema} {admits : List String → Prop} (leafy : Leafy schema) (root : admits []) :
    PathsAre schema admits := by
  intro path value _ clean leaf member
  rw [leaves_leaf (leafy path value clean) leaf member]
  exact root

theorem pathsAre_object {least : Nat} {required : List String} {properties : List (String × Schema)}
    {extension : Option ((String → Bool) × Schema)} {admits : List String → Prop}
    (each : ∀ property ∈ properties, PathsAre property.2 fun rest => admits (property.1 :: rest))
    (more : ∀ rule ∈ extension, ∀ name, rule.1 name = true → PathsAre rule.2 fun rest => admits (name :: rest)) :
    PathsAre (objectSchema least required properties extension) admits := by
  intro path value formed clean leaf member
  obtain ⟨plain, members, rfl, -, -, names, fields, others⟩ := objectSchema_nil.mp clean
  obtain - | - | - | - | - | - | - | ⟨distinct, formed⟩ := formed
  obtain ⟨entry, listed, rest, found, spelled⟩ := mem_leavesOf.mp member
  rw [spelled]
  rcases names entry listed with named | ⟨rule, ruled, admitted⟩
  · obtain ⟨property, known, same⟩ := List.mem_map.mp named
    have held : Value.field property.1 members = entry.2 := field_of_mem distinct (same ▸ listed)
    have clean := fields property known (by rw [held, isDefined_of_leaf found])
    rw [held] at clean
    exact same ▸ each property known _ _ (formed entry listed) clean _ found
  · exact more rule ruled entry.1 admitted _ _ (formed entry listed) (others rule ruled entry listed admitted) _ found

/-- One or more letters, digits or underscores. -/
def word (name : String) : Bool :=
  allOf1 (fun c => c.isAlpha || Timestamp.isDigit c || c = '_') name.toList

def wordPaths : Grammar := .names fun name => word name = true

def attributionPaths : Grammar :=
  .block
    [("environment", .leaf), ("user_id", .leaf), ("account_id", .leaf), ("subscription_id", .leaf),
      ("feature_id", .leaf), ("labels", .names fun name => labelPattern name = true)]

def usagePaths : Grammar := .block [("llm", wordPaths), ("tool", wordPaths)]

def costPaths : Grammar :=
  .block
    [("total_cost", .leaf), ("currency", .leaf), ("llm", wordPaths), ("tool", wordPaths), ("original_cost", .leaf),
      ("discount_amount", .leaf), ("discount_percent", .leaf)]

/-- The paths to the fields of a record. -/
def recordPaths : Grammar :=
  .block
    [("spec_version", .leaf), ("record_id", .leaf), ("emitter", wordPaths), ("corrects", .leaf), ("timing", wordPaths),
      ("resource", wordPaths), ("run", wordPaths), ("attribution", attributionPaths), ("usage", usagePaths),
      ("cost", costPaths)]

theorem recordPaths_separated : Separated recordPaths := by
  have attribution : Separated attributionPaths := by
    refine .block (by decide) (by decide +kernel) ?_
    simp [Separated.leaf, Separated.names]
  have usage : Separated usagePaths := by
    refine .block (by decide) (by decide +kernel) ?_
    simp [wordPaths, Separated.names]
  have cost : Separated costPaths := by
    refine .block (by decide) (by decide +kernel) ?_
    simp [wordPaths, Separated.leaf, Separated.names]
  refine .block (by decide) (by decide +kernel) ?_
  simp [wordPaths, attribution, usage, cost, Separated.leaf, Separated.names]

theorem extensionPattern_word {name : String} (admitted : extensionPattern name = true) : word name = true := by
  obtain ⟨rest, spelled, chars⟩ := extensionPattern_inv admitted
  have letters : ∀ c ∈ rest, (c.isAlpha || Timestamp.isDigit c || decide (c = '_')) = true := by
    intro c member
    rcases chars c member with (lower | digit) | rfl
    · have alpha : c.isAlpha = (c.isUpper || c.isLower) := rfl
      simp [alpha, lower]
    · simp [digit]
    · decide
  rw [word, spelled, allOf1, List.all_cons, List.all_cons, List.all_eq_true.mpr letters, List.isEmpty_cons]
  decide

/-- A block without nested objects, whose names are words. -/
theorem pathsAre_flat {least : Nat} {required : List String} {properties : List (String × Schema)}
    {extension : Option ((String → Bool) × Schema)} (words : ∀ name ∈ properties.map Prod.fst, word name = true)
    (each : ∀ property ∈ properties, Leafy property.2)
    (more : ∀ rule ∈ extension, Leafy rule.2 ∧ rule.1 = extensionPattern) :
    PathsAre (objectSchema least required properties extension) (Admits wordPaths) := by
  refine pathsAre_object (fun property listed => ?_) fun rule listed name admitted => ?_
  · exact (each property listed).pathsAre (.name (words _ (List.mem_map_of_mem listed)))
  · obtain ⟨leafy, same⟩ := more rule listed
    rw [same] at admitted
    exact leafy.pathsAre (.name (extensionPattern_word admitted))

/-- A block whose grammar has a child for each of its names. -/
theorem pathsAre_block {least : Nat} {required : List String} {properties : List (String × Schema)}
    {children : List (String × Grammar)}
    (pairs : List.Forall₂ (fun property child => property.1 = child.1 ∧ PathsAre property.2 (Admits child.2)) properties children) :
    PathsAre (objectSchema least required properties none) (Admits (.block children)) := by
  refine pathsAre_object (fun property listed path value formed clean leaf member => ?_) (by simp)
  obtain ⟨child, childListed, same, paths⟩ : ∃ child ∈ children, property.1 = child.1 ∧ PathsAre property.2 (Admits child.2) := by
    clear path value formed clean leaf member
    induction pairs with
    | nil => cases listed
    | cons pair _ ih =>
      rcases List.mem_cons.mp listed with rfl | later
      · exact ⟨_, List.mem_cons_self, pair⟩
      · obtain ⟨child, member, found⟩ := ih later
        exact ⟨child, List.mem_cons_of_mem _ member, found⟩
  exact same ▸ .child childListed (paths path value formed clean leaf member)

theorem pathsAre_labels : PathsAre labelsSchema (Admits (.names fun name => labelPattern name = true)) := by
  intro path value formed clean leaf member
  obtain ⟨plain, members, rfl, -, names, values⟩ := labelsSchema_nil.mp clean
  obtain ⟨entry, listed, rest, found, spelled⟩ := mem_leavesOf.mp member
  obtain ⟨text, held, -⟩ := values entry listed
  rw [held] at found
  obtain rfl : rest = [] := (Prod.mk.inj (List.mem_singleton.mp found)).1
  rw [spelled]
  exact .name (names entry listed).2

theorem pathsAre_string (least : Nat) (most : Option Nat) (pattern : Option Pattern) :
    PathsAre (stringSchema least most pattern) (Admits .leaf) := (leafy_string least most pattern).pathsAre .leaf

theorem pathsAre_number (types : List String) (whole : Bool) (most : Option ℚ) :
    PathsAre (numberSchema types whole most) (Admits .leaf) := (leafy_number types whole most).pathsAre .leaf

theorem pathsAre_enum (values : List String) : PathsAre (enumSchema values) (Admits .leaf) :=
  (leafy_enum values).pathsAre .leaf

theorem pathsAre_attribution : PathsAre attributionSchema (Admits attributionPaths) := by
  have fields : PathsAre attributionObject (Admits attributionPaths) := by
    refine pathsAre_block ?_
    simp [anyText, someText, pathsAre_string, pathsAre_enum, pathsAre_labels]
  exact fun path value formed clean => fields path value formed (List.append_eq_nil_iff.mp clean).2

theorem pathsAre_usage : PathsAre usageSchema (Admits usagePaths) := by
  have llm : PathsAre llmUsageSchema (Admits wordPaths) := by
    refine pathsAre_flat (by decide +kernel) ?_ ?_ <;>
      simp [integer, amount, extensionSchema, extensionNumber, leafy_number]
  have tool : PathsAre toolUsageSchema (Admits wordPaths) := by
    refine pathsAre_flat (by decide +kernel) ?_ ?_ <;>
      simp [integer, amount, someText, extensionSchema, extensionNumber, leafy_number, leafy_string]
  refine pathsAre_block ?_
  simp [llm, tool]

theorem pathsAre_cost : PathsAre costSchema (Admits costPaths) := by
  have llm : PathsAre llmCostSchema (Admits wordPaths) := by
    refine pathsAre_flat (by decide +kernel) ?_ ?_ <;> simp [amount, leafy_number]
  have tool : PathsAre toolCostSchema (Admits wordPaths) := by
    refine pathsAre_flat (by decide +kernel) ?_ ?_ <;> simp [amount, someText, leafy_number, leafy_string]
  refine pathsAre_block ?_
  simp [llm, tool, amount, matching, pathsAre_number, pathsAre_string]

theorem pathsAre_record : PathsAre recordObject (Admits recordPaths) := by
  have emitter : PathsAre emitterSchema (Admits wordPaths) := by
    refine pathsAre_flat (by decide +kernel) ?_ ?_ <;> simp [someText, leafy_enum, leafy_string]
  have timing : PathsAre timingSchema (Admits wordPaths) := by
    refine pathsAre_flat (by decide +kernel) ?_ ?_ <;> simp [timestampSchema, integer, leafy_number, leafy_string]
  have resource : PathsAre resourceSchema (Admits wordPaths) := by
    refine pathsAre_flat (by decide +kernel) ?_ ?_ <;> simp [matching, someText, anyText, leafy_enum, leafy_string]
  have run : PathsAre runSchema (Admits wordPaths) := by
    refine pathsAre_flat (by decide +kernel) ?_ ?_ <;>
      simp [idText, someText, anyText, integer, leafy_enum, leafy_string, leafy_number]
  refine pathsAre_block ?_
  simp [recordProperties, matching, idText, pathsAre_string, emitter, timing, resource, run, pathsAre_attribution,
    pathsAre_usage, pathsAre_cost]

/-! What the values of a record are. -/

/-- Strings, finite numbers and plain objects, of which members may be undefined; what is
called `labels` holds strings only. The key is that of the value. -/
inductive Shaped : String → Value → Prop
  | undefined (key : String) : Shaped key .undefined
  | string (key text : String) : Shaped key (.string text)
  | number (key : String) {number : Double} (finite : number.isFinite = true) : Shaped key (.number number)
  | labels {members : List (String × Value)} (texts : ∀ entry ∈ members, ∃ text, entry.2 = .string text) :
      Shaped "labels" (.object true members)
  | object {key : String} {members : List (String × Value)} (other : key ≠ "labels")
      (each : ∀ entry ∈ members, Shaped entry.1 entry.2) : Shaped key (.object true members)

/-- The leaves are strings and finite numbers. -/
theorem Shaped.leaf {key : String} (shaped : Shaped key value) : ∀ leaf ∈ leaves value,
    (∃ text, leaf.2 = .string text) ∨ ∃ number, leaf.2 = .number number ∧ number.isFinite = true := by
  induction shaped with
  | undefined key => exact nofun
  | string key text =>
    intro leaf member
    rw [(Prod.mk.inj (List.mem_singleton.mp member)).2]
    exact .inl ⟨text, rfl⟩
  | number key finite =>
    intro leaf member
    rw [(Prod.mk.inj (List.mem_singleton.mp member)).2]
    exact .inr ⟨_, rfl, finite⟩
  | labels texts =>
    intro leaf member
    obtain ⟨entry, listed, rest, found, -⟩ := mem_leavesOf.mp member
    obtain ⟨text, held⟩ := texts entry listed
    rw [held] at found
    rw [(Prod.mk.inj (List.mem_singleton.mp found)).2]
    exact .inl ⟨text, rfl⟩
  | object _ _ ih =>
    intro leaf member
    obtain ⟨entry, listed, rest, found, -⟩ := mem_leavesOf.mp member
    exact ih entry listed (rest, leaf.2) found

theorem Shaped.field {key : String} (shaped : Shaped key (.object plain members)) (other : key ≠ "labels") (name : String) :
    Shaped name (Value.field name members) := by
  obtain - | - | - | - | ⟨-, each⟩ := shaped
  · exact absurd rfl other
  · by_cases defined : (Value.field name members).isDefined = true
    · exact each _ (mem_of_field defined)
    · cases value : Value.field name members with
      | undefined => exact .undefined name
      | _ => simp [value, Value.isDefined] at defined

def Shapes (key : String) (schema : Schema) : Prop :=
  ∀ path value, value.WellFormed → value.Plain → schema path value = [] → Shaped key value

theorem shapes_string (key : String) (least : Nat) (most : Option Nat) (pattern : Option Pattern) :
    Shapes key (stringSchema least most pattern) := by
  intro path value _ _ clean
  obtain ⟨text, rfl, -⟩ := stringSchema_nil.mp clean
  exact .string key text

theorem shapes_number (key : String) (types : List String) (whole : Bool) (most : Option ℚ) :
    Shapes key (numberSchema types whole most) := by
  intro path value _ _ clean
  obtain ⟨number, q, rfl, finite, -⟩ := numberSchema_nil.mp clean
  refine .number key ?_
  cases number <;> simp_all [finiteValue, Double.isFinite]

theorem shapes_enum (key : String) (values : List String) : Shapes key (enumSchema values) := by
  intro path value _ _ clean
  obtain ⟨text, -, rfl⟩ := enumSchema_nil.mp clean
  exact .string key text

theorem shapes_labels : Shapes "labels" labelsSchema := by
  intro path value _ flat clean
  obtain ⟨plain, members, rfl, -, -, values⟩ := labelsSchema_nil.mp clean
  obtain - | - | - | - | - | - | flat := flat
  refine .labels fun entry member => ?_
  obtain ⟨text, held, -⟩ := values entry member
  exact ⟨text, held⟩

theorem shapes_object {key : String} {least : Nat} {required : List String} {properties : List (String × Schema)}
    {extension : Option ((String → Bool) × Schema)} (ordinary : key ≠ "labels")
    (each : ∀ property ∈ properties, Shapes property.1 property.2)
    (more : ∀ rule ∈ extension, ∀ name, Shapes name rule.2) :
    Shapes key (objectSchema least required properties extension) := by
  intro path value formed flat clean
  obtain ⟨plain, members, rfl, -, -, names, fields, others⟩ := objectSchema_nil.mp clean
  obtain - | - | - | - | - | - | - | ⟨distinct, formed⟩ := formed
  obtain - | - | - | - | - | - | flat := flat
  refine .object ordinary fun entry member => ?_
  rcases names entry member with listed | ⟨rule, listed, admitted⟩
  · obtain ⟨property, listed, same⟩ := List.mem_map.mp listed
    have held : Value.field property.1 members = entry.2 := field_of_mem distinct (same ▸ member)
    by_cases defined : entry.2.isDefined = true
    · have clean := fields property listed (by rw [held, defined])
      rw [held] at clean
      exact same ▸ each property listed _ _ (formed entry member) (flat entry member) clean
    · cases value : entry.2 with
      | undefined => exact .undefined _
      | _ => simp [value, Value.isDefined] at defined
  · exact more rule listed _ _ _ (formed entry member) (flat entry member) (others rule listed entry member admitted)

theorem shapes_attribution : Shapes "attribution" attributionSchema := by
  have fields : Shapes "attribution" attributionObject := by
    refine shapes_object (by decide) ?_ (by simp)
    simp [anyText, someText, shapes_string, shapes_enum, shapes_labels]
  exact fun path value formed flat clean => fields path value formed flat (List.append_eq_nil_iff.mp clean).2

theorem shapes_usage : Shapes "usage" usageSchema := by
  have llm : Shapes "llm" llmUsageSchema := by
    refine shapes_object (by decide) ?_ ?_ <;> simp [integer, amount, extensionSchema, extensionNumber, shapes_number]
  have tool : Shapes "tool" toolUsageSchema := by
    refine shapes_object (by decide) ?_ ?_ <;>
      simp [integer, amount, someText, extensionSchema, extensionNumber, shapes_number, shapes_string]
  refine shapes_object (by decide) ?_ (by simp)
  simp [llm, tool]

theorem shapes_cost : Shapes "cost" costSchema := by
  have llm : Shapes "llm" llmCostSchema := by
    refine shapes_object (by decide) ?_ ?_ <;> simp [amount, shapes_number]
  have tool : Shapes "tool" toolCostSchema := by
    refine shapes_object (by decide) ?_ ?_ <;> simp [amount, someText, shapes_number, shapes_string]
  refine shapes_object (by decide) ?_ (by simp)
  simp [llm, tool, amount, matching, shapes_number, shapes_string]

theorem shapes_record : Shapes "" recordObject := by
  have emitter : Shapes "emitter" emitterSchema := by
    refine shapes_object (by decide) ?_ ?_ <;> simp [someText, shapes_enum, shapes_string]
  have timing : Shapes "timing" timingSchema := by
    refine shapes_object (by decide) ?_ ?_ <;> simp [timestampSchema, integer, shapes_number, shapes_string]
  have resource : Shapes "resource" resourceSchema := by
    refine shapes_object (by decide) ?_ ?_ <;> simp [matching, someText, anyText, shapes_enum, shapes_string]
  have run : Shapes "run" runSchema := by
    refine shapes_object (by decide) ?_ ?_ <;>
      simp [idText, someText, anyText, integer, shapes_enum, shapes_string, shapes_number]
  refine shapes_object (by decide) ?_ (by simp)
  simp [recordProperties, matching, idText, shapes_string, emitter, timing, resource, run, shapes_attribution,
    shapes_usage, shapes_cost]

/-! A record and its view as JSON. -/

theorem asJson_eq_string {key : Option String} {text : String} (same : asJson key value = .string text) :
    value = .string text := by
  cases value <;> first | exact same | cases same

/-- What the view is made of, the value is made of. -/
theorem shaped_of_view (formed : value.WellFormed) (flat : value.Plain) :
    ∀ key view, (view = some key ∨ (view = none ∧ key ≠ "labels")) → Shaped key (asJson view value) → Shaped key value := by
  induction value using Value.induct with
  | object plain members ih =>
    intro key view named shaped
    obtain - | - | - | - | - | - | - | ⟨distinct, formed⟩ := formed
    obtain - | - | - | - | - | - | flat := flat
    have kept : ∀ entry ∈ members, (view = some "labels" ∨ entry.2.isDefined = true) →
        (entry.1, asJson (some entry.1) entry.2) ∈ fromEntries (asJsonMembers (view = some "labels") members) := by
      intro entry member kept
      refine (fromEntries_perm (asJsonMembers_nodup distinct)).mem_iff.mpr ?_
      rw [asJsonMembers_eq]
      exact List.mem_map.mpr ⟨entry, List.mem_filter.mpr ⟨member, by simpa using kept⟩, rfl⟩
    rw [asJson] at shaped
    obtain - | - | - | texts | ⟨other, each⟩ := shaped
    · have labels : view = some "labels" := by simpa using named
      refine .labels fun entry member => ?_
      obtain ⟨text, held⟩ := texts _ (kept entry member (.inl labels))
      exact ⟨text, asJson_eq_string held⟩
    · refine .object other fun entry member => ?_
      by_cases defined : entry.2.isDefined = true
      · exact ih entry member (formed entry member) (flat entry member) _ _ (.inl rfl)
          (each _ (kept entry member (.inr defined)))
      · cases value : entry.2 with
        | undefined => exact .undefined _
        | _ => simp [value, Value.isDefined] at defined
  | _ => exact fun _ _ _ shaped => shaped

/-- Strings, finite numbers and plain objects, of which members may be undefined. -/
inductive Encodable : Value → Prop
  | undefined : Encodable .undefined
  | string (text : String) : Encodable (.string text)
  | number {number : Double} (finite : number.isFinite = true) : Encodable (.number number)
  | object {members : List (String × Value)} (each : ∀ entry ∈ members, Encodable entry.2) :
      Encodable (.object true members)

theorem Shaped.encodable {key : String} (shaped : Shaped key value) : Encodable value := by
  induction shaped with
  | undefined key => exact .undefined
  | string key text => exact .string text
  | number key finite => exact .number finite
  | labels texts =>
    refine .object fun entry member => ?_
    obtain ⟨text, held⟩ := texts entry member
    exact held ▸ .string text
  | object _ _ ih => exact .object ih

theorem leavesOf_asJson {all : Bool} (each : ∀ entry ∈ members, ∀ key, (leaves (asJson key entry.2)).Perm (leaves entry.2)) :
    (leavesOf (asJsonMembers all members)).Perm (leavesOf members) := by
  induction members with
  | nil => exact .refl _
  | cons entry rest ih =>
    obtain ⟨name, value⟩ := entry
    obtain ⟨first, others⟩ := List.forall_mem_cons.mp each
    rw [asJsonMembers]
    split
    · exact ((first _).map _).append (ih others)
    next dropped =>
      cases value with
      | undefined => exact ih others
      | _ => simp [Value.isDefined] at dropped

/-- The view of a value as JSON has its leaves. -/
theorem leaves_asJson (formed : value.WellFormed) : ∀ key, (leaves (asJson key value)).Perm (leaves value) := by
  induction value using Value.induct with
  | object plain members ih =>
    intro key
    obtain - | - | - | - | - | - | - | ⟨distinct, formed⟩ := formed
    have listed := fromEntries_perm (@asJsonMembers_nodup members (key = some "labels" : Bool) distinct)
    exact (leavesOf_perm listed).trans (leavesOf_asJson fun entry member => ih entry member (formed entry member))
  | _ => exact fun _ => .refl _

/-- A record whose view as JSON the schema accepts. -/
structure SchemaValid (record : Value) : Prop where
  formed : record.WellFormed
  flat : record.Plain
  clean : schemaErrors (asJson none record) = []

namespace SchemaValid

variable {record : Value}

theorem view (valid : SchemaValid record) : recordObject [] (asJson none record) = [] :=
  (List.append_eq_nil_iff.mp valid.clean).2

theorem shaped (valid : SchemaValid record) : Shaped "" record :=
  shaped_of_view valid.formed valid.flat "" none (.inr ⟨rfl, by decide⟩) <|
    shapes_record [] _ (asJson_wellFormed valid.formed none) (asJson_plain valid.formed valid.flat none) valid.view

theorem encodable (valid : SchemaValid record) : Encodable record := valid.shaped.encodable

theorem admits (valid : SchemaValid record) : ∀ leaf ∈ leaves record, Admits recordPaths leaf.1 := fun leaf member =>
  pathsAre_record [] _ (asJson_wellFormed valid.formed none) valid.view leaf
    ((leaves_asJson valid.formed none).mem_iff.mpr member)

/-- A joined name leads to the same field in every record. -/
theorem injective {record' : Value} (valid : SchemaValid record) (valid' : SchemaValid record')
    (under : Underscores separator) :
    ∀ p ∈ leaves record, ∀ q ∈ leaves record', joined separator p.1 = joined separator q.1 → p.1 = q.1 :=
  fun p member q found => joined_injective under recordPaths_separated (valid.admits p member) (valid'.admits q found)

theorem nodup (valid : SchemaValid record) (under : Underscores separator) :
    ((leaves record).map fun leaf => joined separator leaf.1).Nodup := by
  refine List.Nodup.map_on (fun p member q found same => ?_) (leaves_nodup valid.formed)
  have path := valid.injective valid under p member q found same
  exact Prod.ext path (leaves_functional valid.formed (path ▸ member) found)

theorem isObject (valid : SchemaValid record) : record.isObject = true := by
  obtain ⟨plain, members, same, -⟩ := objectSchema_nil.mp valid.view
  cases record <;> first | rfl | cases same

end SchemaValid

/-- No name of a property is that of the prototype. -/
theorem joined_ordinary {path : List String} (admits : Admits recordPaths path) (separator : String) :
    joined separator path ≠ "__proto__" := by
  intro same
  obtain - | - | @⟨_, name, _, rest, listed, -⟩ := admits
  have heads : ∀ name ∈ recordProperties.map Prod.fst, name.toList.head?.any (fun c => c ≠ '_') = true := by
    decide +kernel
  obtain ⟨c, head, letter⟩ := (Option.any_eq_true _ _).mp (heads name (List.mem_map_of_mem (f := Prod.fst) listed))
  have chars := congrArg String.toList same
  rw [joined_cons, List.eq_cons_of_mem_head? head] at chars
  exact of_decide_eq_true letter (List.cons.inj chars).1

end Audr.JsRecord
