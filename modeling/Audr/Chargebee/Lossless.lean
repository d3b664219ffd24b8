import Audr.Chargebee.Events
import Audr.Chargebee.Flatten

/-! Flattening loses nothing, where no label is lost to the prototype. -/

namespace Audr.Chargebee

open JsRecord Paths Properties

variable {objects : Objects} {separator key : String} {keep : String → Bool} {value record : Value}
  {members : List (String × Value)}

/-- Objects that keep what is set under the names `keep` admits. -/
structure Lawful (objects : Objects) (keep : String → Bool) : Prop where
  set : ∀ {V : Type} (entries : List (String × V)) (name : String) (value : V), name ∉ entries.map Prod.fst →
    objects.set entries name value = if keep name then entries ++ [(name, value)] else entries
  listed : ∀ {V : Type} (entries : List (String × V)), (objects.listed entries).Perm entries
  mapped : ∀ {V W : Type} (f : V → W) (entries : List (String × V)),
    objects.listed (mapValues f entries) = mapValues f (objects.listed entries)
  ordinary : ∀ name, name ≠ "__proto__" → keep name = true

theorem plainObjects_lawful (stringify : Value → String) : Lawful (plainObjects stringify) (· ≠ "__proto__") where
  set entries name value fresh := by
    by_cases prototype : name = "__proto__"
    · simp [plainObjects, put, prototype]
    · simp [plainObjects, put, prototype, assign_of_notMem fresh]
  listed := enumerate_perm
  mapped f entries := enumerate_mapValues f
  ordinary name other := by simpa using other

theorem dicts_lawful (dumps : Value → Option String) : Lawful (PyChargebee.dicts dumps) fun _ => true where
  set _ _ _ fresh := assign_of_notMem fresh
  listed := .refl
  mapped _ _ := rfl
  ordinary _ _ := rfl

/-- The members whose rewritten names are kept, under these names. -/
def kept {V : Type} (keep : String → Bool) (labels : List (String × V)) : List (String × V) :=
  (labels.filter fun entry => keep (rewrite entry.1)).map fun entry => (rewrite entry.1, entry.2)

theorem kept_mapValues {V W : Type} (f : V → W) (labels : List (String × V)) :
    kept keep (mapValues f labels) = mapValues f (kept keep labels) := by
  simp [kept, mapValues, List.filter_map, Function.comp_def]

theorem rewriteFrom_eq {V : Type} (lawful : Lawful objects keep) (path : List String) (labels : List (String × V)) :
    ∀ rewritten : List (String × V), (rewritten.map Prod.fst).Nodup → (∀ entry ∈ rewritten, keep entry.1 = true) →
      rewriteFrom objects path rewritten labels =
        if ((rewritten ++ kept keep labels).map Prod.fst).Nodup then .ok (objects.listed (rewritten ++ kept keep labels))
        else .error (collision path) := by
  induction labels with
  | nil =>
    intro rewritten distinct _
    simp [rewriteFrom, kept, distinct]
  | cons entry rest ih =>
    obtain ⟨key, value⟩ := entry
    intro rewritten distinct all
    rw [rewriteFrom]
    by_cases twice : rewrite key ∈ rewritten.map Prod.fst
    · obtain ⟨entry, member, same⟩ := List.mem_map.mp twice
      have keeps : keep (rewrite key) = true := same ▸ all entry member
      have repeated : ¬((rewritten ++ kept keep ((key, value) :: rest)).map Prod.fst).Nodup := by
        intro nodup
        rw [List.map_append, List.nodup_append] at nodup
        exact nodup.2.2 _ twice _ (by simp [kept, keeps]) rfl
      rw [if_pos twice, if_neg repeated]
    · rw [if_neg twice, lawful.set _ _ _ twice]
      by_cases keeps : keep (rewrite key) = true
      · have step := ih (rewritten ++ [(rewrite key, value)])
          (by
            rw [List.map_append, List.nodup_append]
            exact ⟨distinct, by simp, fun a member b new same => twice (by simp_all)⟩)
          (by simpa [or_imp, forall_and, keeps] using all)
        rw [if_pos keeps, step]
        simp [kept, keeps]
      · rw [if_neg keeps, ih rewritten distinct all]
        simp [kept, keeps]

/-- Two labels kept under one name. -/
inductive Collides (keep : String → Bool) : String → Value → Prop
  | labels {plain : Bool} {members : List (String × Value)} (repeated : ¬((kept keep members).map Prod.fst).Nodup) :
      Collides keep "labels" (.object plain members)
  | inside {key : String} {plain : Bool} {members : List (String × Value)} {entry : String × Value}
      (ordinary : key ≠ "labels") (member : entry ∈ members) (inner : Collides keep entry.1 entry.2) :
      Collides keep key (.object plain members)

/-- A path below a key with the keys of labels rewritten. -/
def rewrittenPath (key : String) : List String → List String
  | [] => []
  | name :: rest => (if key = "labels" then rewrite name else name) :: rewrittenPath name rest

def keptPath (keep : String → Bool) (key : String) : List String → Bool
  | [] => true
  | name :: rest => (key ≠ "labels" || keep (rewrite name)) && keptPath keep name rest

def scalar (value : Value) : Json Double := (scalar? value).getD .null

/-- The properties a value below a key is flattened to. -/
def properties (keep : String → Bool) (separator key : String) (path : List String) (value : Value) : Output :=
  ((leaves value).filter fun leaf => keptPath keep key leaf.1).map fun leaf =>
    (joined separator (path ++ rewrittenPath key leaf.1), scalar leaf.2)

theorem properties_leaf (leaf : leaves value = [([], value)]) (path : List String) :
    properties keep separator key path value = [(joined separator path, scalar value)] := by
  have kept : ([([], value)] : List (List String × Value)).filter (fun leaf => keptPath keep key leaf.1) = [([], value)] := rfl
  rw [properties, leaf, kept]
  simp [rewrittenPath]

theorem properties_object {plain : Bool} (ordinary : key ≠ "labels") (path : List String) :
    properties keep separator key path (.object plain members) =
      members.flatMap fun entry => properties keep separator entry.1 (path ++ [entry.1]) entry.2 := by
  simp only [properties, leaves, leavesOf_eq, List.filter_flatMap, List.map_flatMap, List.filter_map, List.map_map]
  refine List.flatMap_congr fun entry _ => ?_
  simp [Function.comp_def, inside, keptPath, rewrittenPath, ordinary]

theorem properties_labels {plain : Bool} (texts : ∀ entry ∈ members, ∃ text, entry.2 = .string text)
    (path : List String) : properties keep separator "labels" path (.object plain members) =
      (kept keep members).map fun entry => (joined separator (path ++ [entry.1]), scalar entry.2) := by
  have flat : leavesOf members = members.map fun entry => ([entry.1], entry.2) := by
    rw [leavesOf_eq]
    induction members with
    | nil => rfl
    | cons entry rest ih =>
      obtain ⟨⟨text, held⟩, others⟩ := List.forall_mem_cons.mp texts
      rw [List.flatMap_cons, ih others, held]
      simp [leaves, inside, held]
  simp only [properties, leaves, flat, kept, List.filter_map, List.map_map]
  simp [Function.comp_def, keptPath, rewrittenPath]

/-- A step that sets properties, one after the other. -/
def SetsAll (objects : Objects) (step : Output → Except String Output) (expected : Output) : Prop :=
  ∃ found : Output, found.Perm expected ∧
    ∀ output, step output = .ok (found.foldl (fun output entry => objects.set output entry.1 entry.2) output)

theorem flattenInto_sets {path : List String} {items : List (String × Value)} {expected : String × Value → Output}
    (each : ∀ item ∈ items, SetsAll objects (flattenItem objects separator item.2 item.1 (path ++ [item.1])) (expected item)) :
    SetsAll objects (flattenInto path (mapValues (flattenItem objects separator) items)) (items.flatMap expected) := by
  induction items with
  | nil => exact ⟨[], .refl _, fun output => rfl⟩
  | cons item rest ih =>
    obtain ⟨⟨first, listed, sets⟩, others⟩ := List.forall_mem_cons.mp each
    obtain ⟨later, more, follow⟩ := ih others
    refine ⟨first ++ later, listed.append more, fun output => ?_⟩
    rw [mapValues_cons, flattenInto, sets, List.foldl_append]
    exact follow _

theorem flattenItems_eq (members : List (String × Value)) :
    flattenItems objects separator members = mapValues (flattenItem objects separator) members := by
  induction members with
  | nil => rfl
  | cons entry rest ih =>
    obtain ⟨name, value⟩ := entry
    rw [flattenItems, ih, mapValues_cons]

theorem flattenItem_object (key : String) (path : List String) (output : Output) :
    flattenItem objects separator (.object true members) key path output =
      (if key = "labels" then rewriteLabelKeys objects (flattenItems objects separator members) path
        else .ok (flattenItems objects separator members)) >>= fun nested => flattenInto path nested output := by
  rw [flattenItem]
  by_cases labels : key = "labels" <;> simp [labels, labelsKey]

/-- Without labels that collide, a value is flattened to its properties. -/
theorem flattenItem_sets (lawful : Lawful objects keep) (shaped : Shaped key value) (free : ¬Collides keep key value) :
    ∀ path, SetsAll objects (flattenItem objects separator value key path) (properties keep separator key path value) := by
  induction shaped with
  | undefined key => exact fun path => ⟨[], .refl _, fun output => rfl⟩
  | string key text =>
    intro path
    rw [properties_leaf rfl]
    exact ⟨_, .refl _, fun output => rfl⟩
  | number key _ =>
    intro path
    rw [properties_leaf rfl]
    exact ⟨_, .refl _, fun output => rfl⟩
  | @labels members texts =>
    intro path
    have distinct : ((kept keep members).map Prod.fst).Nodup := by
      by_contra repeated
      exact free (.labels repeated)
    have rewritten : rewriteLabelKeys objects (flattenItems objects separator members) path =
        .ok (mapValues (flattenItem objects separator) (objects.listed (kept keep members))) := by
      rw [rewriteLabelKeys, rewriteFrom_eq lawful path _ [] (by simp) (by simp), List.nil_append, flattenItems_eq,
        kept_mapValues, map_fst_mapValues, if_pos distinct, lawful.mapped]
    have order := lawful.listed (kept keep members)
    obtain ⟨found, listed, sets⟩ := @flattenInto_sets objects separator path
      (objects.listed (kept keep members))
      (fun entry => [(joined separator (path ++ [entry.1]), scalar entry.2)]) (by
        intro entry member
        obtain ⟨source, inside, rfl⟩ := List.mem_map.mp (order.mem_iff.mp member)
        obtain ⟨text, held⟩ := texts source (List.mem_filter.mp inside).1
        refine ⟨_, .refl _, fun output => ?_⟩
        simp [held, flattenItem, scalar, scalar?])
    refine ⟨found, ?_, fun output => ?_⟩
    · rw [properties_labels texts]
      rw [← List.map_eq_flatMap] at listed
      exact listed.trans (order.map _)
    · rw [flattenItem_object, if_pos rfl, rewritten]
      exact sets output
  | @object key members ordinary each ih =>
    intro path
    have steps := @flattenInto_sets objects separator path members
      (fun entry => properties keep separator entry.1 (path ++ [entry.1]) entry.2)
      fun entry member => ih entry member (fun inner => free (.inside ordinary member inner)) _
    obtain ⟨found, listed, sets⟩ := steps
    refine ⟨found, ?_, fun output => ?_⟩
    · rw [properties_object ordinary]
      exact listed
    · rw [flattenItem_object, if_neg ordinary, flattenItems_eq]
      exact sets output

/-- A step that refuses labels. -/
def Refuses (step : Output → Except String Output) : Prop := ∀ output, ∃ path, step output = .error (collision path)

theorem flattenInto_refuses {path : List String} {items : List (String × Value)}
    (each : ∀ item ∈ items, Refuses (flattenItem objects separator item.2 item.1 (path ++ [item.1])) ∨
      ∃ expected, SetsAll objects (flattenItem objects separator item.2 item.1 (path ++ [item.1])) expected)
    (refused : ∃ item ∈ items, Refuses (flattenItem objects separator item.2 item.1 (path ++ [item.1]))) :
    Refuses (flattenInto path (mapValues (flattenItem objects separator) items)) := by
  induction items with
  | nil =>
    obtain ⟨_, member, -⟩ := refused
    cases member
  | cons item rest ih =>
    intro output
    obtain ⟨head, others⟩ := List.forall_mem_cons.mp each
    rw [mapValues_cons, flattenInto]
    by_cases first : Refuses (flattenItem objects separator item.2 item.1 (path ++ [item.1]))
    · obtain ⟨place, raised⟩ := first output
      exact ⟨place, by rw [raised]; rfl⟩
    · obtain ⟨expected, found, -, sets⟩ := head.resolve_left first
      obtain ⟨other, member, refused⟩ := refused
      rcases List.mem_cons.mp member with rfl | later
      · exact absurd refused first
      · rw [sets]
        exact ih others ⟨other, later, refused⟩ _

/-- Labels that collide are refused. -/
theorem flattenItem_refuses (lawful : Lawful objects keep) (shaped : Shaped key value) (collides : Collides keep key value) :
    ∀ path, Refuses (flattenItem objects separator value key path) := by
  induction shaped with
  | undefined key => cases collides
  | string key text => cases collides
  | number key _ => cases collides
  | @labels members texts =>
    intro path output
    obtain repeated | ⟨ordinary, -, -⟩ := collides
    · refine ⟨path, ?_⟩
      have rewritten : rewriteLabelKeys objects (flattenItems objects separator members) path = .error (collision path) := by
        rw [rewriteLabelKeys, rewriteFrom_eq lawful path _ [] (by simp) (by simp), List.nil_append, flattenItems_eq,
          kept_mapValues, map_fst_mapValues, if_neg repeated]
      rw [flattenItem_object, if_pos rfl, rewritten]
      rfl
    · exact absurd rfl ordinary
  | @object key members ordinary each ih =>
    intro path output
    rw [flattenItem_object, if_neg ordinary, flattenItems_eq]
    obtain - | ⟨-, member, inner⟩ := collides
    · exact absurd rfl ordinary
    · refine flattenInto_refuses (fun entry listed => ?_) ⟨_, member, ih _ member inner _⟩ output
      by_cases collides : Collides keep entry.1 entry.2
      · exact .inl (ih entry listed collides _)
      · exact .inr ⟨_, flattenItem_sets lawful (each entry listed) collides _⟩

/-! The names of a record's properties. -/

theorem rewrite_word {name : String} (label : labelPattern name = true) : word (rewrite name) = true := by
  simp only [labelPattern, allOf1, Bool.and_eq_true, List.all_eq_true, Bool.not_eq_true', List.isEmpty_eq_false_iff] at label
  simp only [word, rewrite, String.toList_ofList, allOf1, Bool.and_eq_true, List.all_map, List.all_eq_true, Bool.not_eq_true',
    List.isEmpty_eq_false_iff, ne_eq, List.map_eq_nil_iff]
  refine ⟨label.1, fun c member => ?_⟩
  have char := label.2 c member
  by_cases dot : c = '.' ∨ c = '-'
  · simp only [Function.comp_apply, if_pos dot]
    decide
  · simp only [Function.comp_apply, if_neg dot]
    rw [not_or] at dot
    simpa [dot] using char

theorem labelPattern_of_word {name : String} (spelled : word name = true) : labelPattern name = true := by
  simp only [labelPattern, word, allOf1, Bool.and_eq_true, List.all_eq_true, Bool.or_eq_true] at spelled ⊢
  exact ⟨spelled.1, fun c member => .inl (.inl (spelled.2 c member))⟩

/-- Paths whose names are words, but for the keys of labels. -/
inductive Worded : String → Grammar → Prop
  | leaf (key : String) : Worded key .leaf
  | names {key : String} (ordinary : key ≠ "labels") : Worded key (.names fun name => word name = true)
  | labels : Worded "labels" (.names fun name => labelPattern name = true)
  | block {key : String} {children : List (String × Grammar)} (ordinary : key ≠ "labels")
      (words : ∀ child ∈ children, word child.1 = true) (each : ∀ child ∈ children, Worded child.1 child.2) :
      Worded key (.block children)

theorem recordPaths_worded : Worded "" recordPaths := by
  have attribution : Worded "attribution" attributionPaths := by
    refine .block (by decide) (by decide +kernel) ?_
    simp [Worded.leaf, Worded.labels]
  have usage : Worded "usage" usagePaths := by
    refine .block (by decide) (by decide +kernel) ?_
    simp [wordPaths, Worded.names]
  have cost : Worded "cost" costPaths := by
    refine .block (by decide) (by decide +kernel) ?_
    simp [wordPaths, Worded.leaf, Worded.names]
  refine .block (by decide) (by decide +kernel) ?_
  simp [wordPaths, attribution, usage, cost, Worded.leaf, Worded.names]

theorem Worded.rewritten {grammar : Grammar} {path : List String} (worded : Worded key grammar)
    (admits : Admits grammar path) :
    Admits grammar (rewrittenPath key path) ∧ ∀ name ∈ rewrittenPath key path, word name = true := by
  induction admits generalizing key with
  | leaf => exact ⟨.leaf, by simp [rewrittenPath]⟩
  | @name kind name kinds =>
    cases worded with
    | names ordinary =>
      rw [rewrittenPath, if_neg ordinary]
      exact ⟨.name kinds, by simpa [rewrittenPath] using kinds⟩
    | labels =>
      rw [rewrittenPath, if_pos rfl]
      have spelled := rewrite_word kinds
      exact ⟨.name (labelPattern_of_word spelled), by simpa [rewrittenPath] using spelled⟩
  | @child children name grammar rest listed _ ih =>
    obtain - | - | - | ⟨ordinary, words, each⟩ := worded
    obtain ⟨admits, spelled⟩ := ih (each _ listed)
    rw [rewrittenPath, if_neg ordinary]
    exact ⟨.child listed admits, List.forall_mem_cons.mpr ⟨words _ listed, spelled⟩⟩

theorem joined_chars (under : Underscores separator) {path : List String} (words : ∀ name ∈ path, word name = true) :
    ∀ c ∈ (joined separator path).toList, (c.isAlpha || c.isDigit || decide (c = '_')) = true := by
  induction path with
  | nil => simp [joined]
  | cons name rest ih =>
    obtain ⟨first, others⟩ := List.forall_mem_cons.mp words
    intro c member
    rw [joined_cons, List.mem_append] at member
    rcases member with inside | later
    · simp only [word, allOf1, Bool.and_eq_true, List.all_eq_true] at first
      simpa [Timestamp.isDigit_eq] using first.2 c inside
    · cases rest with
      | nil => cases later
      | cons second more =>
        rcases List.mem_append.mp later with sep | deeper
        · simp [under.2 c sep]
        · exact ih others c deeper

/-- The joined name of a field is the name of a property. -/
theorem joined_propertyName (under : Underscores separator) {path : List String} (admits : Admits recordPaths path)
    (words : ∀ name ∈ path, word name = true) : propertyName (joined separator path) = true := by
  have chars := joined_chars under words
  obtain - | - | @⟨_, name, _, rest, listed, -⟩ := admits
  have heads : ∀ name ∈ recordProperties.map Prod.fst, name.toList.head?.any Char.isAlpha = true := by decide +kernel
  obtain ⟨c, head, letter⟩ := (Option.any_eq_true _ _).mp (heads name (List.mem_map_of_mem (f := Prod.fst) listed))
  have spelled := joined_cons separator name rest
  rw [List.eq_cons_of_mem_head? head, List.cons_append] at spelled
  rw [spelled, List.forall_mem_cons] at chars
  rw [propertyName, spelled]
  simp only [letter, Bool.true_and, List.all_eq_true]
  exact chars.2

/-- No field has a reserved name. -/
theorem joined_unreserved (under : Underscores separator) {path : List String} (admits : Admits recordPaths path) :
    joined separator path ∉ reservedPropertyNames := by
  obtain - | - | @⟨_, name, grammar, rest, listed, inner⟩ := admits
  intro reserved
  by_cases usage : name = "usage"
  · subst usage
    -- Of the reserved names, only `usage_timestamp` starts like a field of the usage.
    have only : ∀ reserved ∈ reservedPropertyNames, "usage".toList <+: reserved.toList →
        reserved.toList = "usage".toList ++ "_timestamp".toList := by decide +kernel
    have spelled := only _ reserved (by rw [joined_cons]; exact List.prefix_append _ _)
    obtain rfl : grammar = usagePaths := by simpa using listed
    obtain - | - | @⟨_, block, _, more, known, -⟩ := inner
    obtain ⟨sep, underscore⟩ := under.cons
    have after : tail separator (block :: more) = separator.toList ++ (joined separator (block :: more)).toList := rfl
    rw [joined_cons, List.append_cancel_left_eq, after, joined_cons, underscore] at spelled
    have rest : sep ++ (block.toList ++ tail separator more) = "timestamp".toList := (List.cons.inj spelled).2
    cases sep with
    | cons c others =>
      have letter : c = '_' := under.2 c (by simp [underscore])
      rw [letter] at rest
      cases (List.cons.inj rest).1
    | nil =>
      rcases List.mem_cons.mp known with llm | tool
      · rw [(Prod.mk.inj llm).1] at rest
        cases (List.cons.inj rest).1
      · rw [(Prod.mk.inj (List.mem_singleton.mp tool)).1] at rest
        cases (List.cons.inj (List.cons.inj rest).2).1
  · have blocks : ∀ block ∈ recordProperties.map Prod.fst, block ≠ "usage" →
        ∀ reserved ∈ reservedPropertyNames, ¬block.toList <+: reserved.toList := by decide +kernel
    refine blocks name (List.mem_map_of_mem (f := Prod.fst) listed) usage _ reserved ?_
    rw [joined_cons]
    exact List.prefix_append _ _

end Audr.Chargebee
