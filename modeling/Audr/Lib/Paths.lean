import Mathlib.Data.List.Basic
import Mathlib.Data.List.Nodup

/-! Paths of names, joined by a separator of underscores, and when two of them read alike. -/

namespace Audr.Paths

/-- `path.join(separator)`. -/
def joined (separator : String) : List String → String
  | [] => ""
  | [name] => name
  | name :: rest => name ++ separator ++ joined separator rest

/-- One or more underscores. -/
def Underscores (separator : String) : Prop := separator ≠ "" ∧ ∀ c ∈ separator.toList, c = '_'

instance (separator : String) : Decidable (Underscores separator) :=
  decidable_of_iff (separator ≠ "" ∧ separator.toList.all (fun c => decide (c = '_')) = true) (by simp [Underscores])

/-- A name that does not start with another and an underscore. -/
def Apart (block name : String) : Prop := ¬block.toList ++ ['_'] <+: name.toList

instance (block name : String) : Decidable (Apart block name) := inferInstanceAs (Decidable ¬_)

variable {separator a b : String} {p q : List String}

/-- What a joined path has after its first name. -/
def tail (separator : String) : List String → List Char
  | [] => []
  | rest => separator.toList ++ (joined separator rest).toList

theorem joined_cons (separator a : String) (p : List String) :
    (joined separator (a :: p)).toList = a.toList ++ tail separator p := by
  cases p <;> simp [joined, tail]

theorem Underscores.cons (under : Underscores separator) : ∃ rest, separator.toList = '_' :: rest := by
  obtain ⟨nonempty, chars⟩ := under
  cases spelled : separator.toList with
  | nil => exact absurd (String.toList_eq_nil_iff.mp spelled) nonempty
  | cons c rest => exact ⟨rest, by rw [chars c (by simp [spelled])]⟩

theorem tail_eq_nil (under : Underscores separator) : tail separator p = [] ↔ p = [] := by
  obtain ⟨rest, spelled⟩ := under.cons
  cases p <;> simp [tail, spelled]

theorem tail_injective (under : Underscores separator) (same : tail separator p = tail separator q) :
    (p = [] ↔ q = []) ∧ joined separator p = joined separator q := by
  have empty : p = [] ↔ q = [] := by
    rw [← tail_eq_nil under, same, tail_eq_nil under]
  refine ⟨empty, ?_⟩
  cases p with
  | nil => rw [empty.mp rfl]
  | cons a p =>
    cases q with
    | nil => cases empty.mpr rfl
    | cons b q => exact String.toList_inj.mp (List.append_cancel_left same)

theorem prefix_of_longer {spelled : List Char} (under : Underscores separator) (longer : b.toList = a.toList ++ spelled)
    (same : tail separator p = spelled ++ tail separator q) (differ : a ≠ b) :
    p ≠ [] ∧ a.toList ++ ['_'] <+: b.toList := by
  cases spelled with
  | nil => exact absurd (String.toList_inj.mp (by simpa using longer.symm)) differ
  | cons c rest =>
    obtain ⟨more, sep⟩ := under.cons
    cases p with
    | nil => cases same
    | cons first path =>
      have start : c = '_' := by
        simp only [tail, sep] at same
        exact (List.cons.inj same).1.symm
      refine ⟨nofun, rest, ?_⟩
      rw [longer, start]
      simp

/-- Joined paths that read alike start with the same name and go on alike, unless one of the
names is a block the other name seems to be in. -/
theorem joined_head (under : Underscores separator) (same : joined separator (a :: p) = joined separator (b :: q))
    (left : a ≠ b → p ≠ [] → Apart a b) (right : b ≠ a → q ≠ [] → Apart b a) :
    a = b ∧ (p = [] ↔ q = []) ∧ joined separator p = joined separator q := by
  have spelled : a.toList ++ tail separator p = b.toList ++ tail separator q := by
    rw [← joined_cons, ← joined_cons, same]
  by_cases equal : a = b
  · subst equal
    exact ⟨rfl, tail_injective under (List.append_cancel_left spelled)⟩
  · exfalso
    rcases List.append_eq_append_iff.mp spelled with ⟨more, longer, rest⟩ | ⟨more, longer, rest⟩
    · obtain ⟨inside, long⟩ := prefix_of_longer under longer rest equal
      exact left equal inside long
    · obtain ⟨inside, long⟩ := prefix_of_longer under longer rest (Ne.symm equal)
      exact right (Ne.symm equal) inside long

/-- What paths there are: one that ends, one that ends after a name of a kind, or one that goes
on after one of the names listed. -/
inductive Grammar where
  | leaf
  | names (kind : String → Prop)
  | block (children : List (String × Grammar))

inductive Admits : Grammar → List String → Prop
  | leaf : Admits .leaf []
  | name {kind : String → Prop} {name : String} (kinds : kind name) : Admits (.names kind) [name]
  | child {children : List (String × Grammar)} {name : String} {grammar : Grammar} {rest : List String}
      (listed : (name, grammar) ∈ children) (admits : Admits grammar rest) : Admits (.block children) (name :: rest)

/-- Names none of which starts with another and an underscore. -/
def AllApart (names : List String) : Prop := ∀ a ∈ names, ∀ b ∈ names, a ≠ b → Apart a b

instance (names : List String) : Decidable (AllApart names) :=
  inferInstanceAs (Decidable (∀ a ∈ names, ∀ b ∈ names, a ≠ b → Apart a b))

inductive Separated : Grammar → Prop
  | leaf : Separated .leaf
  | names (kind : String → Prop) : Separated (.names kind)
  | block {children : List (String × Grammar)} (distinct : (children.map Prod.fst).Nodup)
      (apart : AllApart (children.map Prod.fst)) (each : ∀ child ∈ children, Separated child.2) :
      Separated (.block children)

/-- A path can be told from its joined names. -/
theorem joined_injective {grammar : Grammar} (under : Underscores separator) (separated : Separated grammar)
    (left : Admits grammar p) (right : Admits grammar q) (same : joined separator p = joined separator q) : p = q := by
  induction left generalizing q with
  | leaf =>
    cases right
    rfl
  | name _ =>
    cases right
    exact congrArg (fun name => [name]) same
  | @child children name grammar rest listed _ ih =>
    obtain - | - | @⟨_, name', grammar', rest', listed', admits'⟩ := right
    obtain - | - | ⟨distinct, apart, each⟩ := separated
    have known := List.mem_map_of_mem (f := Prod.fst) listed
    have known' := List.mem_map_of_mem (f := Prod.fst) listed'
    obtain ⟨head, -, deeper⟩ := joined_head under same (fun differ _ => apart _ known _ known' differ)
      fun differ _ => apart _ known' _ known differ
    have child := List.inj_on_of_nodup_map distinct listed listed' head
    obtain ⟨rfl, rfl⟩ := Prod.mk.inj child
    exact congrArg _ (ih (each _ listed) admits' deeper)

end Audr.Paths
