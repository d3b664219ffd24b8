import Audr.JsRecord.Leaves

/-! Values up to empty objects: two with the same leaves are equal. -/

namespace Audr.JsRecord

variable {a b : Value} {members more : List (String × Value)}

mutual

/-- A value without the members that hold nothing: undefined ones, and objects without a leaf. -/
def prune : Value → Value
  | .object plain members => .object plain (pruneMembers members)
  | value => value

def pruneMembers : List (String × Value) → List (String × Value)
  | [] => []
  | (name, value) :: rest =>
      if (leaves value).isEmpty then pruneMembers rest else (name, prune value) :: pruneMembers rest

end

theorem pruneMembers_eq : pruneMembers members =
    (members.filter fun entry => !(leaves entry.2).isEmpty).map fun entry => (entry.1, prune entry.2) := by
  induction members with
  | nil => rfl
  | cons entry rest ih =>
    obtain ⟨name, value⟩ := entry
    rw [pruneMembers, ih]
    by_cases bare : (leaves value).isEmpty = true <;> simp [bare]

theorem mem_pruneMembers {entry : String × Value} : entry ∈ pruneMembers members ↔
    ∃ source ∈ members, leaves source.2 ≠ [] ∧ (source.1, prune source.2) = entry := by
  simp [pruneMembers_eq, and_assoc]

theorem pruneMembers_names {name : String} : name ∈ (pruneMembers members).map Prod.fst ↔
    ∃ leaf ∈ leavesOf members, leaf.1.head? = some name := by
  constructor
  · intro named
    obtain ⟨entry, member, rfl⟩ := List.mem_map.mp named
    obtain ⟨source, listed, filled, rfl⟩ := mem_pruneMembers.mp member
    obtain ⟨leaf, found⟩ := List.exists_mem_of_ne_nil _ filled
    exact ⟨inside source.1 leaf, mem_leavesOf.mpr ⟨source, listed, leaf.1, found, rfl⟩, rfl⟩
  · rintro ⟨leaf, member, head⟩
    obtain ⟨entry, listed, rest, found, spelled⟩ := mem_leavesOf.mp member
    rw [spelled] at head
    have same : entry.1 = name := Option.some.inj head
    exact same ▸ List.mem_map.mpr ⟨_, mem_pruneMembers.mpr ⟨entry, listed, List.ne_nil_of_mem found, rfl⟩, rfl⟩

theorem pruneMembers_nodup (distinct : (members.map Prod.fst).Nodup) : ((pruneMembers members).map Prod.fst).Nodup := by
  rw [pruneMembers_eq, List.map_map]
  exact distinct.sublist ((List.filter_sublist).map Prod.fst)

theorem eq_of_leaf {value : Value} (member : ([], value) ∈ leaves b) : b = value := by
  cases b with
  | object plain members =>
    obtain ⟨_, -, _, -, spelled⟩ := mem_leavesOf.mp member
    cases spelled
  | undefined => cases member
  | _ => simpa [leaves] using (List.mem_singleton.mp member).symm

/-- Values with the same leaves are equal but for what holds nothing. -/
theorem deepEqual_of_leaves (left : a.WellFormed) (right : b.WellFormed) (ours : Encodable a) (theirs : Encodable b)
    (same : (leaves a).Perm (leaves b)) (filled : leaves a ≠ [] ∨ (a.isObject = true ∧ b.isObject = true)) :
    Value.DeepEqual (prune a) (prune b) := by
  induction a using Value.induct generalizing b with
  | string text =>
    rw [eq_of_leaf (same.mem_iff.mp (List.mem_singleton.mpr rfl))]
    exact .string text
  | number number =>
    rw [eq_of_leaf (same.mem_iff.mp (List.mem_singleton.mpr rfl))]
    exact .number (.inl rfl)
  | undefined => simp [leaves, Value.isObject] at filled
  | object plain members ih =>
    have object : b.isObject = true := by
      rcases filled with filled | filled
      · obtain ⟨found, member⟩ := List.exists_mem_of_ne_nil _ filled
        refine isObject_of_path (same.mem_iff.mp member) ?_
        obtain ⟨_, -, _, -, spelled⟩ := mem_leavesOf.mp member
        rw [spelled]
        exact List.cons_ne_nil _ _
      · exact filled.2
    cases b with
    | object plain more =>
      obtain - | - | - | - | - | - | - | ⟨distinct, formed⟩ := left
      obtain - | - | - | - | - | - | - | ⟨distinct', formed'⟩ := right
      obtain - | - | - | each := ours
      obtain - | - | - | each' := theirs
      refine .object ?_ fun name x y one two => ?_
      · refine (List.perm_ext_iff_of_nodup (pruneMembers_nodup distinct) (pruneMembers_nodup distinct')).mpr fun name => ?_
        rw [pruneMembers_names, pruneMembers_names]
        exact exists_congr fun found => and_congr same.mem_iff Iff.rfl
      · obtain ⟨first, listed, filled, spelled⟩ := mem_pruneMembers.mp one
        obtain ⟨second, listed', filled', spelled'⟩ := mem_pruneMembers.mp two
        obtain ⟨rfl, rfl⟩ := Prod.mk.inj spelled
        obtain ⟨name, rfl⟩ := Prod.mk.inj spelled'
        have deeper : (leaves first.2).Perm (leaves second.2) := by
          refine (List.perm_ext_iff_of_nodup (leaves_nodup (formed first listed))
            (leaves_nodup (formed' second listed'))).mpr fun found => ?_
          rw [mem_leaves_member distinct listed, mem_leaves_member distinct' listed', name]
          exact same.mem_iff
        exact ih first listed (formed first listed) (formed' second listed') (each first listed) (each' second listed')
          deeper (.inl filled)
    | _ => cases object
  | _ => cases ours

end Audr.JsRecord
