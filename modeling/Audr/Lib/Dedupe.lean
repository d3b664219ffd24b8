import Mathlib.Data.List.Perm.Basic

/-! Lists without their repetitions, as far as a function of their items tells them apart. -/

namespace Audr.Dedupe

variable {A B : Type*} [DecidableEq A] {f : A → B} {item : A} {items other front middle back : List A}

theorem nodup_eraseDups : items.eraseDups.Nodup := by
  induction length : items.length using Nat.strongRecOn generalizing items with
  | ind size ih =>
    cases items with
    | nil => simp
    | cons item rest =>
      have shorter : (rest.filter fun other => !other == item).length < size := by
        have bound := List.length_filter_le (fun other => !other == item) rest
        rw [← length, List.length_cons]
        omega
      rw [List.eraseDups_cons, List.nodup_cons]
      exact ⟨by simp, ih _ shorter rfl⟩

theorem eraseDups_perm (same : ∀ item, item ∈ items ↔ item ∈ other) : items.eraseDups.Perm other.eraseDups := by
  apply (List.perm_ext_iff_of_nodup nodup_eraseDups nodup_eraseDups).mpr
  intro item
  rw [List.mem_eraseDups, List.mem_eraseDups]
  exact same item

theorem removeAll_congr (same : ∀ item, item ∈ items ↔ item ∈ other) : back.removeAll items = back.removeAll other := by
  apply List.filter_congr
  intro item _
  rw [Bool.eq_iff_iff]
  simp [same item]

theorem mem_removeAll : item ∈ back.removeAll items ↔ item ∈ back ∧ item ∉ items := by
  simp [List.removeAll]

/-- A stretch of items that look the same may be replaced by any other of the same items. -/
theorem map_eraseDups_swap {b : B} (same : ∀ item, item ∈ middle ↔ item ∈ other) (flat : ∀ item ∈ middle, f item = b) :
    (front ++ middle ++ back).eraseDups.map f = (front ++ other ++ back).eraseDups.map f := by
  have kept : ∀ item, item ∈ middle.removeAll front ↔ item ∈ other.removeAll front := by
    intro item
    rw [mem_removeAll, mem_removeAll, same]
  have alike : ∀ {stretch : List A}, (∀ item ∈ stretch, item ∈ middle) →
      (stretch.removeAll front).eraseDups.map f = List.replicate (stretch.removeAll front).eraseDups.length b := by
    intro stretch inside
    apply List.eq_replicate_iff.mpr
    refine ⟨List.length_map _, ?_⟩
    intro look found
    obtain ⟨item, member, rfl⟩ := List.mem_map.mp found
    exact flat item (inside item (mem_removeAll.mp (List.mem_eraseDups.mp member)).1)
  have rest : back.removeAll (front ++ middle) = back.removeAll (front ++ other) := by
    apply removeAll_congr
    intro item
    rw [List.mem_append, List.mem_append, same]
  rw [List.eraseDups_append, List.eraseDups_append, List.eraseDups_append, List.eraseDups_append, rest]
  rw [List.map_append, List.map_append, List.map_append, List.map_append]
  rw [alike fun _ => id, alike fun item => (same item).mpr, (eraseDups_perm kept).length_eq]

end Audr.Dedupe
