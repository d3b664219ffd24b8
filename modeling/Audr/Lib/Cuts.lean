import Mathlib.Data.List.DropRight
import Mathlib.Data.List.TakeWhile

/-! Lists cut at the first item of a kind. -/

namespace Audr.Cuts

variable {α : Type*} {p q : α → Bool} {items front rest : List α}

instance decidableMem (text : List Char) (texts : List (List Char)) : Decidable (text ∈ texts) := inferInstance

/-- Nothing is left of a run of items: what follows is the end, or an item of another kind. -/
def Stops (p : α → Bool) (rest : List α) : Prop := ∀ item ∈ rest.head?, p item = false

theorem stops_nil : Stops p ([] : List α) := by simp [Stops]

theorem stops_cons {item : α} : Stops p (item :: rest) ↔ p item = false := by simp [Stops]

theorem stops_dropWhile : Stops p (items.dropWhile p) := by
  intro item found
  have failed := List.head?_dropWhile_not p items
  rw [found] at failed
  exact failed

/-- A list has one cut. -/
theorem span_unique (all : ∀ item ∈ front, p item = true) (stops : Stops p rest) :
    (front ++ rest).takeWhile p = front ∧ (front ++ rest).dropWhile p = rest := by
  rw [List.takeWhile_append_of_pos all, List.dropWhile_append_of_pos all]
  cases rest with
  | nil => simp
  | cons item tail =>
    have ends := stops_cons.mp stops
    simp [ends]

theorem cut_inj {other remains : List α} (all : ∀ item ∈ front, p item = true) (stops : Stops p rest)
    (others : ∀ item ∈ other, p item = true) (halts : Stops p remains) (same : front ++ rest = other ++ remains) :
    front = other ∧ rest = remains := by
  have first := span_unique all stops
  rw [same] at first
  have second := span_unique others halts
  exact ⟨first.1.symm.trans second.1, first.2.symm.trans second.2⟩

/-- What is filtered out must not be what the list is cut at. -/
theorem takeWhile_filter (kept : ∀ item, q item = false → p item = true) :
    (items.filter q).takeWhile p = (items.takeWhile p).filter q := by
  induction items with
  | nil => rfl
  | cons item tail ih =>
    by_cases stays : q item = true
    · by_cases inside : p item = true <;> simp [stays, inside, ih]
    · have out : q item = false := by simpa using stays
      simp [out, kept item out, ih]

theorem dropWhile_filter (kept : ∀ item, q item = false → p item = true) :
    (items.filter q).dropWhile p = (items.dropWhile p).filter q := by
  induction items with
  | nil => rfl
  | cons item tail ih =>
    by_cases stays : q item = true
    · by_cases inside : p item = true <;> simp [stays, inside, ih]
    · have out : q item = false := by simpa using stays
      simp [out, kept item out, ih]

variable [DecidableEq α] {mark : α}

/-- What stands before the first mark. -/
def before (mark : α) (items : List α) : List α := items.takeWhile fun item => item ≠ mark

/-- What stands after the first mark; nothing where there is none. -/
def after (mark : α) (items : List α) : List α := (items.dropWhile fun item => item ≠ mark).drop 1

theorem not_mem_before : mark ∉ before mark items := by
  intro inside
  simpa using List.mem_takeWhile_imp inside

theorem mem_of_mem_before {item : α} (inside : item ∈ before mark items) : item ∈ items :=
  (List.takeWhile_prefix _).subset inside

theorem mem_of_mem_after {item : α} (inside : item ∈ after mark items) : item ∈ items :=
  (List.dropWhile_suffix _).subset (List.mem_of_mem_drop inside)

theorem before_cons_after (found : mark ∈ items) : items = before mark items ++ mark :: after mark items := by
  have stops : Stops (fun item => item ≠ mark) (items.dropWhile fun item => item ≠ mark) := stops_dropWhile
  unfold before after
  cases cut : items.dropWhile fun item => item ≠ mark with
  | nil =>
    rw [List.dropWhile_eq_nil_iff] at cut
    simpa using cut mark found
  | cons item tail =>
    rw [cut, stops_cons] at stops
    have same : item = mark := by simpa using stops
    conv_lhs => rw [← List.takeWhile_append_dropWhile (p := fun item => decide (item ≠ mark)) (l := items), cut, same]
    rfl

theorem before_eq_self (absent : mark ∉ items) : before mark items = items ∧ after mark items = [] := by
  have all : ∀ item ∈ items, decide (item ≠ mark) = true := by
    intro item inside
    rw [decide_eq_true_eq]
    rintro rfl
    exact absent inside
  have cut := @span_unique α _ items [] all stops_nil
  rw [List.append_nil] at cut
  exact ⟨cut.1, by rw [after, cut.2, List.drop_nil]⟩

theorem before_append (absent : mark ∉ front) : before mark (front ++ mark :: rest) = front ∧ after mark (front ++ mark :: rest) = rest := by
  have all : ∀ item ∈ front, decide (item ≠ mark) = true := by
    intro item inside
    rw [decide_eq_true_eq]
    rintro rfl
    exact absent inside
  have cut := @span_unique α _ front (mark :: rest) all (stops_cons.mpr (by simp))
  exact ⟨cut.1, by rw [after, cut.2, List.drop_one, List.tail_cons]⟩

/-- Nothing stands after the first mark: there is none, or it is the last item. -/
theorem after_eq_nil : after mark items = [] ↔ items = before mark items ∨ items = before mark items ++ [mark] := by
  by_cases found : mark ∈ items
  · have cut := before_cons_after found
    constructor
    · intro none
      rw [none] at cut
      exact .inr cut
    · rintro (same | same)
      · exact absurd (same ▸ found) not_mem_before
      · rw [same, (before_append not_mem_before).2]
  · simp [before_eq_self found]

end Audr.Cuts
