import Audr.Chargebee.Lossless

/-! Which records flatten without loss, and to what: those whose labels stay apart. -/

namespace Audr.Chargebee

open JsRecord Paths Properties

variable {objects : Objects} {separator key : String} {keep : String → Bool} {value record : Value}
  {members : List (String × Value)} {path : List String}

/-- Distinct members are kept under distinct names unless two that are kept are rewritten alike. -/
theorem nodup_kept (distinct : (members.map Prod.fst).Nodup) : ((kept keep members).map Prod.fst).Nodup ↔
    ∀ a ∈ members, ∀ b ∈ members, keep (rewrite a.1) = true → rewrite a.1 = rewrite b.1 → a = b := by
  have names : (kept keep members).map Prod.fst =
      (members.filter fun entry => keep (rewrite entry.1)).map fun entry => rewrite entry.1 := by
    simp [kept, Function.comp_def]
  rw [names]
  constructor
  · intro nodup a first b second keeps same
    have both : ∀ entry ∈ members, rewrite a.1 = rewrite entry.1 → entry ∈ members.filter fun entry => keep (rewrite entry.1) :=
      fun entry member alike => List.mem_filter.mpr ⟨member, alike ▸ keeps⟩
    exact List.inj_on_of_nodup_map nodup (both a first rfl) (both b second same) same
  · intro apart
    refine List.Nodup.map_on (fun a first b second same => ?_) ((List.Nodup.of_map _ distinct).filter _)
    obtain ⟨first, keeps⟩ := List.mem_filter.mp first
    exact apart a first b (List.mem_filter.mp second).1 keeps same

/-- Where no labels collide, the rewritten paths are apart. -/
theorem rewritten_injective (formed : value.WellFormed) (shaped : Shaped key value) (free : ¬Collides keep key value) :
    ∀ p ∈ leaves value, ∀ q ∈ leaves value, keptPath keep key p.1 = true →
      rewrittenPath key p.1 = rewrittenPath key q.1 → p = q := by
  have single : ∀ leaf : Value, leaf.isObject = false → ∀ p ∈ leaves leaf, ∀ q ∈ leaves leaf, p = q :=
    fun leaf other p first q second => (leaves_leaf other p first).trans (leaves_leaf other q second).symm
  induction shaped with
  | undefined key => exact fun p first q second _ _ => single _ rfl p first q second
  | string key text => exact fun p first q second _ _ => single _ rfl p first q second
  | number key _ => exact fun p first q second _ _ => single _ rfl p first q second
  | @labels members texts =>
    obtain - | - | - | - | - | - | - | ⟨distinct, formed⟩ := formed
    have apart : ((kept keep members).map Prod.fst).Nodup := by
      by_contra repeated
      exact free (.labels repeated)
    intro p first q second keeps same
    obtain ⟨a, listed, rest, found, spelled⟩ := mem_leavesOf.mp first
    obtain ⟨b, listed', rest', found', spelled'⟩ := mem_leavesOf.mp second
    obtain ⟨text, held⟩ := texts a listed
    obtain ⟨text', held'⟩ := texts b listed'
    rw [held] at found
    rw [held'] at found'
    obtain ⟨rfl, value⟩ := Prod.mk.inj (List.mem_singleton.mp found)
    obtain ⟨rfl, value'⟩ := Prod.mk.inj (List.mem_singleton.mp found')
    rw [spelled] at keeps
    rw [spelled, spelled'] at same
    have entry : a = b := (nodup_kept distinct).mp apart a listed b listed' (by simpa [keptPath] using keeps)
      (by simpa [rewrittenPath] using same)
    refine Prod.ext ?_ ?_
    · rw [spelled, spelled', entry]
    · rw [value, value', ← held, ← held', entry]
  | @object key members ordinary each ih =>
    obtain - | - | - | - | - | - | - | ⟨distinct, formed⟩ := formed
    intro p first q second keeps same
    obtain ⟨a, listed, rest, found, spelled⟩ := mem_leavesOf.mp first
    obtain ⟨b, listed', rest', found', spelled'⟩ := mem_leavesOf.mp second
    rw [spelled, keptPath, Bool.and_eq_true] at keeps
    rw [spelled, spelled', rewrittenPath, rewrittenPath, if_neg ordinary, if_neg ordinary] at same
    obtain ⟨name, deeper⟩ := List.cons.inj same
    obtain rfl := List.inj_on_of_nodup_map distinct listed listed' name
    have inner := ih a listed (formed a listed) (fun collides => free (.inside ordinary listed collides)) _ found _ found'
      keeps.2 deeper
    refine Prod.ext ?_ (Prod.mk.inj inner).2
    rw [spelled, spelled', (Prod.mk.inj inner).1]

/-- Labels that collide give two leaves one path. -/
theorem Collides.leaves (shaped : Shaped key value) (formed : value.WellFormed) (collides : Collides keep key value) :
    ∃ p ∈ leaves value, ∃ q ∈ leaves value, p.1 ≠ q.1 ∧ keptPath keep key p.1 = true ∧
      rewrittenPath key p.1 = rewrittenPath key q.1 := by
  induction collides with
  | @labels plain members repeated =>
    obtain - | - | - | - | - | - | - | ⟨distinct, formed⟩ := formed
    obtain - | - | - | texts | ⟨other, -⟩ := shaped
    · rw [nodup_kept distinct] at repeated
      push Not at repeated
      obtain ⟨a, first, b, second, keeps, same, differ⟩ := repeated
      obtain ⟨text, held⟩ := texts a first
      obtain ⟨text', held'⟩ := texts b second
      refine ⟨([a.1], a.2), mem_leavesOf.mpr ⟨a, first, [], by simp [held, JsRecord.leaves], rfl⟩, ([b.1], b.2),
        mem_leavesOf.mpr ⟨b, second, [], by simp [held', JsRecord.leaves], rfl⟩, fun path => ?_, ?_, ?_⟩
      · exact differ (List.inj_on_of_nodup_map distinct first second (List.cons.inj path).1)
      · simp [keptPath, keeps]
      · simp [rewrittenPath, same]
    · exact absurd rfl other
  | @inside key plain members entry ordinary member _ ih =>
    obtain - | - | - | - | - | - | - | ⟨distinct, formed⟩ := formed
    obtain - | - | - | - | ⟨-, each⟩ := shaped
    · exact absurd rfl ordinary
    · obtain ⟨p, first, q, second, differ, keeps, same⟩ := ih (each entry member) (formed entry member)
      refine ⟨(entry.1 :: p.1, p.2), mem_leavesOf.mpr ⟨entry, member, p.1, first, rfl⟩, (entry.1 :: q.1, q.2),
        mem_leavesOf.mpr ⟨entry, member, q.1, second, rfl⟩, fun path => ?_, ?_, ?_⟩
      · exact differ (List.cons.inj path).2
      · simp [keptPath, ordinary, keeps]
      · simp [rewrittenPath, ordinary, same]

/-- A path of a record has names of the schema only, or is that of a label. -/
theorem path_cases (admits : Admits recordPaths path) :
    (rewrittenPath "" path = path ∧ ∀ keep, keptPath keep "" path = true) ∨
      ∃ label, path = ["attribution", "labels", label] := by
  have words : ∀ {name : String} {rest : List String}, name ≠ "labels" → Admits wordPaths rest →
      rewrittenPath name rest = rest ∧ ∀ keep, keptPath keep name rest = true := by
    intro name rest ordinary admits
    obtain - | ⟨kind⟩ | - := admits
    exact ⟨by simp [rewrittenPath, ordinary], fun keep => by simp [keptPath, ordinary]⟩
  have ends : ∀ {name : String} {rest : List String}, Admits .leaf rest →
      rewrittenPath name rest = rest ∧ ∀ keep, keptPath keep name rest = true := by
    intro name rest admits
    cases admits
    exact ⟨rfl, fun keep => rfl⟩
  have further : ∀ {key name : String} {rest : List String}, key ≠ "labels" →
      (rewrittenPath name rest = rest ∧ ∀ keep, keptPath keep name rest = true) →
      rewrittenPath key (name :: rest) = name :: rest ∧ ∀ keep, keptPath keep key (name :: rest) = true := by
    intro key name rest ordinary inner
    obtain ⟨same, keeps⟩ := inner
    exact ⟨by simp [rewrittenPath, ordinary, same], fun keep => by simp [keptPath, ordinary, keeps keep]⟩
  have blocks : ∀ {name : String} {children : List (String × Grammar)} {rest : List String}, name ≠ "labels" →
      (∀ child ∈ children, child.1 ≠ "labels" ∧ child.2 = wordPaths ∨ child.2 = .leaf) → Admits (.block children) rest →
      rewrittenPath name rest = rest ∧ ∀ keep, keptPath keep name rest = true := by
    intro name children rest ordinary each admits
    obtain - | - | @⟨_, child, grammar, more, listed, inner⟩ := admits
    rcases each _ listed with ⟨other, rfl⟩ | rfl
    · exact further ordinary (words other inner)
    · exact further ordinary (ends inner)
  obtain - | - | @⟨_, name, grammar, rest, listed, inner⟩ := admits
  by_cases attribution : name = "attribution"
  · subst attribution
    obtain rfl : grammar = attributionPaths := by simpa using listed
    obtain - | - | @⟨_, child, grammar, more, listed, inner⟩ := inner
    by_cases labels : child = "labels"
    · subst labels
      obtain rfl : grammar = .names fun name => labelPattern name = true := by simpa using listed
      cases inner
      exact .inr ⟨_, rfl⟩
    · simp only [List.mem_cons, Prod.mk.injEq, labels, false_and, List.not_mem_nil, or_false, ← or_and_right] at listed
      obtain ⟨-, rfl⟩ := listed
      exact .inl (further (by decide) (further (by decide) (ends inner)))
  · left
    simp only [List.mem_cons, Prod.mk.injEq, List.not_mem_nil, or_false] at listed
    refine further (by decide) ?_
    rcases listed with ⟨rfl, rfl⟩ | ⟨rfl, rfl⟩ | ⟨rfl, rfl⟩ | ⟨rfl, rfl⟩ | ⟨rfl, rfl⟩ | ⟨rfl, rfl⟩ | ⟨rfl, rfl⟩ |
      ⟨rfl, rfl⟩ | ⟨rfl, rfl⟩ | ⟨rfl, rfl⟩
    · exact ends inner
    · exact ends inner
    · exact words (by decide) inner
    · exact ends inner
    · exact words (by decide) inner
    · exact words (by decide) inner
    · exact words (by decide) inner
    · exact absurd rfl attribution
    · exact blocks (by decide) (by simp) inner
    · exact blocks (by decide) (by simp) inner

/-- What flattening needs of a record: texts and finite numbers under the names of the schema. -/
structure Flattenable (record : Value) : Prop where
  formed : record.WellFormed
  shaped : Shaped "" record
  admits : ∀ leaf ∈ leaves record, Admits recordPaths leaf.1
  object : ∃ members, record = .object true members

theorem flattenable (valid : SchemaValid record) : Flattenable record := by
  refine ⟨valid.formed, valid.shaped, valid.admits, ?_⟩
  have flat := valid.flat
  have object := valid.isObject
  cases flat with
  | object => exact ⟨_, rfl⟩
  | _ => cases object

/-- The labels of a record are leaves. -/
theorem mem_labelNames (valid : Flattenable record) {label : String} :
    label ∈ labelNames record ↔ ∃ leaf ∈ leaves record, leaf.1 = ["attribution", "labels", label] := by
  have below : ∀ x, (["attribution", "labels"] ++ [label], x) ∈ leaves record ↔
      ([label], x) ∈ leaves (valueAt record ["attribution", "labels"]) := fun x => mem_leaves_valueAt _ valid.formed
  have shaped : Shaped "labels" (valueAt record ["attribution", "labels"]) := by
    have record := valid.shaped
    cases value : ‹Value› with
    | object plain members =>
      rw [value] at record
      rw [valueAt]
      have attribution := record.field (by decide) "attribution"
      cases inner : Value.field "attribution" members with
      | object plain members =>
        rw [inner] at attribution
        exact attribution.field (by decide) "labels"
      | _ => exact .undefined _
    | _ => exact .undefined _
  have names : label ∈ labelNames record ↔ ∃ x, ([label], x) ∈ leaves (valueAt record ["attribution", "labels"]) := by
    rw [labelNames]
    generalize valueAt record ["attribution", "labels"] = labels at shaped
    cases shaped with
    | labels texts =>
      rw [List.mem_map]
      constructor
      · rintro ⟨entry, member, rfl⟩
        obtain ⟨text, held⟩ := texts entry member
        exact ⟨entry.2, mem_leavesOf.mpr ⟨entry, member, [], by simp [held, leaves], rfl⟩⟩
      · rintro ⟨x, member⟩
        obtain ⟨entry, member, rest, -, spelled⟩ := mem_leavesOf.mp member
        exact ⟨entry, member, (List.cons.inj spelled).1.symm⟩
    | object other _ => exact absurd rfl other
    | _ => simp [leaves]
  rw [names]
  constructor
  · rintro ⟨x, member⟩
    exact ⟨_, (below x).mpr member, rfl⟩
  · rintro ⟨⟨path, x⟩, member, rfl⟩
    exact ⟨x, (below x).mp member⟩

theorem collides_iff (valid : Flattenable record) : Collides keep "" record ↔
    ∃ a ∈ labelNames record, ∃ b ∈ labelNames record, a ≠ b ∧ rewrite a = rewrite b ∧ keep (rewrite a) = true := by
  have label : ∀ leaf ∈ leaves record, ∀ name, rewrittenPath "" leaf.1 = ["attribution", "labels", name] →
      ∃ a ∈ labelNames record, leaf.1 = ["attribution", "labels", a] := by
    intro leaf member name rewritten
    rcases path_cases (valid.admits leaf member) with ⟨ordinary, -⟩ | ⟨a, path⟩
    · rw [ordinary] at rewritten
      exact ⟨name, (mem_labelNames valid).mpr ⟨leaf, member, rewritten⟩, rewritten⟩
    · exact ⟨a, (mem_labelNames valid).mpr ⟨leaf, member, path⟩, path⟩
  have spelled : ∀ a, rewrittenPath "" ["attribution", "labels", a] = ["attribution", "labels", rewrite a] := fun a => by
    simp [rewrittenPath]
  constructor
  · intro collides
    obtain ⟨p, first, q, second, differ, keeps, same⟩ := collides.leaves valid.shaped valid.formed
    have labels : ∃ name, rewrittenPath "" p.1 = ["attribution", "labels", name] := by
      rcases path_cases (valid.admits p first) with ⟨ordinary, -⟩ | ⟨a, path⟩
      · rcases path_cases (valid.admits q second) with ⟨ordinary', -⟩ | ⟨b, path⟩
        · exact absurd (ordinary.symm.trans (same.trans ordinary')) differ
        · exact ⟨rewrite b, by rw [same, path, spelled]⟩
      · exact ⟨rewrite a, by rw [path, spelled]⟩
    obtain ⟨name, rewritten⟩ := labels
    obtain ⟨a, named, path⟩ := label p first name rewritten
    obtain ⟨b, named', path'⟩ := label q second name (same ▸ rewritten)
    rw [path, path', spelled, spelled] at same
    rw [path] at keeps
    exact ⟨a, named, b, named', fun equal => differ (by rw [path, path', equal]), by simpa using same,
      by simpa [keptPath] using keeps⟩
  · rintro ⟨a, first, b, second, differ, same, keeps⟩
    by_contra free
    obtain ⟨p, found, path⟩ := (mem_labelNames valid).mp first
    obtain ⟨q, found', path'⟩ := (mem_labelNames valid).mp second
    have equal := rewritten_injective valid.formed valid.shaped free p found q found'
      (by simp [path, keptPath, keeps]) (by simp [path, path', rewrittenPath, same])
    rw [equal, path'] at path
    exact differ (by simpa using path.symm)

/-- Properties under distinct names are set one after the other. -/
theorem Lawful.foldl (lawful : Lawful objects keep) {entries : Output} : ∀ output : Output,
    ((output ++ entries).map Prod.fst).Nodup → (∀ entry ∈ entries, keep entry.1 = true) →
      entries.foldl (fun output entry => objects.set output entry.1 entry.2) output = output ++ entries := by
  induction entries with
  | nil => exact fun output _ _ => (List.append_nil output).symm
  | cons entry rest ih =>
    intro output distinct keeps
    obtain ⟨first, others⟩ := List.forall_mem_cons.mp keeps
    have fresh : entry.1 ∉ output.map Prod.fst := by
      intro present
      rw [List.map_append, List.map_cons, List.nodup_append] at distinct
      exact distinct.2.2 _ present _ List.mem_cons_self rfl
    rw [List.foldl_cons, lawful.set _ _ _ fresh, if_pos first, ih _ (by simpa using distinct) others]
    simp

theorem flattenBy_eq (valid : Flattenable record) :
    flattenBy objects separator record = (flattenItem objects separator record "" [] []).map objects.listed := by
  obtain ⟨members, rfl⟩ := valid.object
  rw [flattenBy, flattenItem_object, if_neg (by decide)]
  rfl

/-- The properties of a record, each with the value of a field. -/
def fieldProperties (separator : String) (record : Value) : List (String × Option (Json Double)) :=
  (leaves record).map fun leaf => (joined separator (rewrittenPath "" leaf.1), scalar? leaf.2)

/-- What the names of properties have to be. -/
structure Named (output : Output) : Prop where
  distinct : (output.map Prod.fst).Nodup
  names : ∀ entry ∈ output, propertyName entry.1 = true ∧ entry.1 ∉ reservedPropertyNames

theorem properties_named (valid : Flattenable record) (under : Underscores separator) (free : ¬Collides keep "" record) :
    Named (properties keep separator "" [] record) ∧
      ∀ entry ∈ properties keep separator "" [] record, entry.1 ≠ "__proto__" := by
  have rewritten : ∀ leaf ∈ leaves record, Admits recordPaths (rewrittenPath "" leaf.1) ∧
      ∀ name ∈ rewrittenPath "" leaf.1, word name = true :=
    fun leaf member => recordPaths_worded.rewritten (valid.admits leaf member)
  have each : ∀ entry ∈ properties keep separator "" [] record, ∃ leaf ∈ leaves record,
      entry.1 = joined separator (rewrittenPath "" leaf.1) := by
    intro entry member
    obtain ⟨leaf, found, rfl⟩ := List.mem_map.mp member
    exact ⟨leaf, (List.mem_filter.mp found).1, rfl⟩
  refine ⟨⟨?_, fun entry member => ?_⟩, fun entry member => ?_⟩
  · rw [properties, List.map_map]
    refine List.Nodup.map_on (fun p first q second same => ?_) ((leaves_nodup valid.formed).filter _)
    obtain ⟨first, keeps⟩ := List.mem_filter.mp first
    have second := (List.mem_filter.mp second).1
    have paths := joined_injective under recordPaths_separated (rewritten p first).1 (rewritten q second).1 same
    exact rewritten_injective valid.formed valid.shaped free p first q second keeps paths
  · obtain ⟨leaf, found, name⟩ := each entry member
    obtain ⟨admits, words⟩ := rewritten leaf found
    rw [name]
    exact ⟨joined_propertyName under admits words, joined_unreserved under admits⟩
  · obtain ⟨leaf, found, name⟩ := each entry member
    rw [name]
    exact joined_ordinary (rewritten leaf found).1 separator

/-- Without labels that collide, a record is flattened to its properties. -/
theorem flattenBy_ok (lawful : Lawful objects keep) (valid : Flattenable record) (under : Underscores separator)
    (free : ¬Collides keep "" record) :
    ∃ output, flattenBy objects separator record = .ok output ∧ output.Perm (properties keep separator "" [] record) := by
  obtain ⟨named, ordinary⟩ := properties_named valid under free
  obtain ⟨found, listed, sets⟩ := @flattenItem_sets objects separator _ keep _ lawful valid.shaped free []
  have set := @Lawful.foldl objects keep lawful found [] (by simpa using (listed.map Prod.fst).nodup_iff.mpr named.distinct)
    fun entry member => lawful.ordinary _ (ordinary entry (listed.mem_iff.mp member))
  refine ⟨objects.listed found, ?_, (lawful.listed found).trans listed⟩
  rw [flattenBy_eq valid, sets, set]
  rfl

theorem flattenBy_refuses (lawful : Lawful objects keep) (valid : Flattenable record) (collides : Collides keep "" record) :
    ∃ path, flattenBy objects separator record = .error (collision path) := by
  obtain ⟨path, refused⟩ := @flattenItem_refuses objects separator _ keep _ lawful valid.shaped collides [] []
  exact ⟨path, by rw [flattenBy_eq valid, refused]; rfl⟩

/-- Two labels of a record are rewritten to one name. -/
def LabelsCoincide (record : Value) : Prop :=
  ∃ a ∈ labelNames record, ∃ b ∈ labelNames record, a ≠ b ∧ rewrite a = rewrite b

/-- A result that refuses labels that coincide, and otherwise has one property for each field. -/
def Exact (separator : String) (record : Value) : Except String Output → Prop
  | .error message => LabelsCoincide record ∧ ∃ path, message = collision path
  | .ok output => ¬LabelsCoincide record ∧ Named output ∧ (mapValues some output).Perm (fieldProperties separator record)

theorem Named.perm {output output' : Output} (named : Named output) (same : output'.Perm output) : Named output' where
  distinct := (same.map Prod.fst).nodup_iff.mpr named.distinct
  names entry member := named.names entry (same.mem_iff.mp member)

theorem scalar?_leaf (shaped : Shaped key value) : ∀ leaf ∈ leaves value, scalar? leaf.2 = some (scalar leaf.2) := by
  intro leaf member
  obtain ⟨text, held⟩ | ⟨number, held, -⟩ := shaped.leaf leaf member
  · rw [held]
    rfl
  · rw [held]
    rfl

/-- Flattening is exact when no label is lost, or when labels that are not collide. -/
theorem flattenBy_exact (lawful : Lawful objects keep) (valid : Flattenable record) (under : Underscores separator) :
    Exact separator record (flattenBy objects separator record) ↔
      (∀ label ∈ labelNames record, keep (rewrite label) = true) ∨
        ∃ a ∈ labelNames record, ∃ b ∈ labelNames record, a ≠ b ∧ rewrite a = rewrite b ∧ keep (rewrite a) = true := by
  rw [← collides_iff valid]
  by_cases collides : Collides keep "" record
  · obtain ⟨path, refused⟩ := @flattenBy_refuses objects separator keep record lawful valid collides
    obtain ⟨a, first, b, second, differ, same, -⟩ := (collides_iff valid).mp collides
    rw [refused]
    exact iff_of_true ⟨⟨a, first, b, second, differ, same⟩, path, rfl⟩ (.inr collides)
  · obtain ⟨output, flat, listed⟩ := flattenBy_ok lawful valid under collides
    rw [flat, or_iff_left collides]
    constructor
    · rintro ⟨-, -, fields⟩ label member
      obtain ⟨leaf, found, path⟩ := (mem_labelNames valid).mp member
      have length : ((leaves record).filter fun leaf => keptPath keep "" leaf.1).length = (leaves record).length := by
        have lengths := fields.length_eq
        rw [mapValues, List.length_map, listed.length_eq, properties, List.length_map, fieldProperties,
          List.length_map] at lengths
        exact lengths
      have keeps := List.length_filter_eq_length_iff.mp length leaf found
      rw [path] at keeps
      simpa [keptPath] using keeps
    · intro keeps
      have all : ∀ leaf ∈ leaves record, keptPath keep "" leaf.1 = true := by
        intro leaf member
        rcases path_cases (valid.admits leaf member) with ⟨-, kept⟩ | ⟨label, path⟩
        · exact kept keep
        · have named := (mem_labelNames valid).mpr ⟨leaf, member, path⟩
          simp [path, keptPath, keeps label named]
      have fields : mapValues some (properties keep separator "" [] record) = fieldProperties separator record := by
        rw [properties, List.filter_eq_self.mpr all, mapValues, List.map_map, fieldProperties]
        refine List.map_congr_left fun leaf member => ?_
        simp [scalar?_leaf valid.shaped leaf member]
      refine ⟨?_, (properties_named valid under collides).1.perm listed, fields ▸ listed.map _⟩
      rintro ⟨a, first, b, second, differ, same⟩
      exact collides ((collides_iff valid).mpr ⟨a, first, b, second, differ, same, keeps a first⟩)

end Audr.Chargebee
