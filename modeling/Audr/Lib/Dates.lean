import Audr.Lib.Calendar
import Mathlib.Data.List.GetD

/-! The date of a day, found year by year and then month by month. -/

namespace Audr.Calendar

/-- The part a position falls in, where parts of some lengths follow each other, and the
position within it. -/
def locate : List Nat → Nat → Nat × Nat
  | [], n => (0, n)
  | length :: rest, n =>
      if n < length then (0, n)
      else
        let found := locate rest (n - length)
        (found.1 + 1, found.2)

theorem locate_spec {lengths : List Nat} {n : Nat} (inside : n < lengths.sum) :
    (locate lengths n).1 < lengths.length ∧ (locate lengths n).2 < lengths.getD (locate lengths n).1 0 ∧
      (lengths.take (locate lengths n).1).sum + (locate lengths n).2 = n := by
  induction lengths generalizing n with
  | nil => simp at inside
  | cons length rest ih =>
    rw [List.sum_cons] at inside
    by_cases first : n < length
    · simp [locate, first]
    · have found := @ih (n - length) (by omega)
      simp only [locate, if_neg first, List.length_cons, List.getD_cons_succ, List.take_succ_cons, List.sum_cons]
      omega

/-- A position within a part is found there. -/
theorem locate_eq {lengths : List Nat} {index rest : Nat} (inside : rest < lengths.getD index 0) :
    locate lengths ((lengths.take index).sum + rest) = (index, rest) := by
  induction lengths generalizing index with
  | nil => simp at inside
  | cons length more ih =>
    cases index with
    | zero =>
      have first : rest < length := inside
      simp [locate, first]
    | succ index =>
      rw [List.getD_cons_succ] at inside
      have beyond : ¬length + (more.take index).sum + rest < length := by omega
      have left : length + (more.take index).sum + rest - length = (more.take index).sum + rest := by omega
      rw [List.take_succ_cons, List.sum_cons, locate, if_neg beyond, left, ih inside]

/-- The last year a date can have. -/
def lastYear : Nat := 9999

def yearLengths : List Nat := (List.range lastYear).map fun earlier => yearLength (earlier + 1)

structure Date where
  year : Nat
  month : Nat
  day : Nat
  deriving DecidableEq, Repr

/-- The date of a day, counted from the first of January of the year 1. -/
def date (n : Nat) : Date :=
  let year := locate yearLengths n
  let month := locate (monthLengths (year.1 + 1)) year.2
  ⟨year.1 + 1, month.1 + 1, month.2 + 1⟩

theorem sum_take_yearLengths {count : Nat} (few : count ≤ lastYear) :
    (yearLengths.take count).sum = daysBeforeYear (count + 1) := by
  induction count with
  | zero => rfl
  | succ count ih =>
    have inside : count < lastYear := few
    have here : yearLengths[count]? = some (yearLength (count + 1)) := by simp [yearLengths, inside]
    have split : yearLengths.take (count + 1) = yearLengths.take count ++ [yearLength (count + 1)] := by
      rw [List.take_add_one, here]
      rfl
    rw [split, List.sum_append, ih (by omega), @daysBeforeYear_succ (count + 1) (by omega)]
    rfl

theorem sum_monthLengths (year : Nat) : (monthLengths year).sum = yearLength year := by
  unfold monthLengths yearLength
  split <;> rfl

/-- The date of a day exists, and is the date of that day. -/
theorem date_spec {n : Nat} (inside : n < daysBeforeYear (lastYear + 1)) :
    (1 ≤ (date n).year ∧ (date n).year ≤ lastYear) ∧ (1 ≤ (date n).month ∧ (date n).month ≤ 12) ∧
      (1 ≤ (date n).day ∧ (date n).day ≤ monthLength (date n).year (date n).month) ∧
      dayNumber (date n).year (date n).month (date n).day = n := by
  have whole : yearLengths.sum = daysBeforeYear (lastYear + 1) := by
    have length : yearLengths.length = lastYear := by simp [yearLengths]
    rw [← sum_take_yearLengths (Nat.le_refl lastYear), ← length, List.take_length]
  obtain ⟨year, rest, before⟩ := @locate_spec yearLengths n (by rw [whole]; exact inside)
  have count : yearLengths.length = lastYear := by simp [yearLengths]
  rw [count] at year
  have long : yearLengths.getD (locate yearLengths n).1 0 = yearLength ((locate yearLengths n).1 + 1) := by
    rw [List.getD_eq_getElem _ _ (by rw [count]; exact year)]
    simp [yearLengths]
  rw [long, ← sum_monthLengths] at rest
  rw [sum_take_yearLengths (by omega)] at before
  obtain ⟨month, day, earlier⟩ := locate_spec rest
  have twelve : (monthLengths ((locate yearLengths n).1 + 1)).length = 12 := rfl
  rw [twelve] at month
  simp only [date, dayNumber, monthLength, daysBeforeMonth, Nat.add_sub_cancel]
  omega

/-- The date of the day of a date is that date. -/
theorem date_dayNumber {year month day : Nat} (years : 1 ≤ year ∧ year ≤ lastYear) (months : 1 ≤ month ∧ month ≤ 12)
    (days : 1 ≤ day ∧ day ≤ monthLength year month) : date (dayNumber year month day) = ⟨year, month, day⟩ := by
  have within : day - 1 < (monthLengths year).getD (month - 1) 0 := by
    have last : day ≤ (monthLengths year).getD (month - 1) 0 := days.2
    omega
  have twelve : (monthLengths year).length = 12 := rfl
  have short : daysBeforeMonth year month + (day - 1) < yearLength year := by
    have whole : (monthLengths year).sum = ((monthLengths year).take (month - 1)).sum +
        ((monthLengths year).drop (month - 1)).sum := by rw [← List.sum_append, List.take_append_drop]
    have rest : (monthLengths year).getD (month - 1) 0 ≤ ((monthLengths year).drop (month - 1)).sum := by
      rw [List.drop_eq_getElem_cons (by omega), List.sum_cons, List.getD_eq_getElem _ _ (by omega)]
      omega
    rw [← sum_monthLengths, whole, daysBeforeMonth]
    omega
  have here : daysBeforeMonth year month + (day - 1) < yearLengths.getD (year - 1) 0 := by
    have count : yearLengths.length = lastYear := by simp [yearLengths]
    have bound : year - 1 < yearLengths.length := by omega
    have long : yearLengths[year - 1] = yearLength year := by
      simp only [yearLengths, List.getElem_map, List.getElem_range]
      rw [Nat.sub_add_cancel years.1]
    rw [List.getD_eq_getElem _ _ bound, long]
    exact short
  have before : (yearLengths.take (year - 1)).sum = daysBeforeYear year := by
    rw [sum_take_yearLengths (by omega), Nat.sub_add_cancel years.1]
  have found := locate_eq here
  rw [before, ← Nat.add_assoc] at found
  rw [date, dayNumber, found, Nat.sub_add_cancel years.1, daysBeforeMonth, locate_eq within, Nat.sub_add_cancel months.1,
    Nat.sub_add_cancel days.1]

end Audr.Calendar
