import Mathlib.Data.Multiset.Range
import Mathlib.Algebra.Order.Group.Multiset
import Mathlib.Logic.Relation

/-! A ledger issues numbered tokens, holds each of them, and closes each with one
final mark. It is the abstract account of anything that promises to end every
item it takes in exactly one terminal state. -/

namespace Audr.Accounts

/-- Tokens `0 .. issued - 1`, each held or closed. -/
structure Ledger (κ : Type*) where
  issued : Nat
  held : Multiset Nat
  closed : List (Nat × κ)

variable {κ : Type*}

/-- The tokens closed so far, oldest first. -/
def Ledger.closedTokens (ledger : Ledger κ) : List Nat := ledger.closed.map Prod.fst

/-- Take in one new token. -/
def Ledger.issue (ledger : Ledger κ) : Ledger κ :=
  { ledger with issued := ledger.issued + 1, held := ledger.issued ::ₘ ledger.held }

/-- Close a held token with its final mark. -/
def Ledger.close (ledger : Ledger κ) (token : Nat) (mark : κ) : Ledger κ :=
  { ledger with held := ledger.held.erase token, closed := ledger.closed ++ [(token, mark)] }

/-- The two things that may happen to a ledger. -/
inductive Step : Ledger κ → Ledger κ → Prop where
  | issue (ledger : Ledger κ) : Step ledger ledger.issue
  | close (ledger : Ledger κ) (token : Nat) (mark : κ) (known : token ∈ ledger.held) :
      Step ledger (ledger.close token mark)

/-- Any number of steps. -/
abbrev Steps : Ledger κ → Ledger κ → Prop := Relation.ReflTransGen Step

/-- Every token issued is held or closed, and none of them twice. -/
def Ledger.Balanced (ledger : Ledger κ) : Prop :=
  ledger.held + (ledger.closedTokens : Multiset Nat) = Multiset.range ledger.issued

theorem balanced_step {before after : Ledger κ} (step : Step before after)
    (balanced : before.Balanced) : after.Balanced := by
  cases step with
  | issue =>
    change (before.issued ::ₘ before.held) + _ = Multiset.range (before.issued + 1)
    rw [Multiset.cons_add, Multiset.range_succ]
    exact congrArg _ balanced
  | close token mark known =>
    have tokens : before.held.erase token + ((before.closedTokens ++ [token] : List Nat) : Multiset Nat) =
        before.held + (before.closedTokens : Multiset Nat) := by
      rw [← Multiset.coe_add, Multiset.coe_singleton, add_comm _ ({token} : Multiset Nat), ← add_assoc,
        add_comm _ ({token} : Multiset Nat), Multiset.singleton_add, Multiset.cons_erase known]
    have marks : (before.close token mark).closedTokens = before.closedTokens ++ [token] := by
      simp [Ledger.close, Ledger.closedTokens]
    unfold Ledger.Balanced
    rw [marks]
    exact tokens.trans balanced

theorem balanced_steps {before after : Ledger κ} (steps : Steps before after)
    (balanced : before.Balanced) : after.Balanced := by
  induction steps with
  | refl => exact balanced
  | tail _ step ih => exact balanced_step step ih

/-- A mark once made stays: the closed list only grows. -/
theorem closed_prefix {before after : Ledger κ} (steps : Steps before after) :
    before.closed <+: after.closed := by
  induction steps with
  | refl => exact List.prefix_refl _
  | tail _ step ih =>
    cases step with
    | issue => exact ih
    | close => exact ih.trans (List.prefix_append _ _)

theorem issued_le {before after : Ledger κ} (steps : Steps before after) :
    before.issued ≤ after.issued := by
  induction steps with
  | refl => exact le_rfl
  | tail _ step ih =>
    cases step with
    | issue => exact ih.trans (Nat.le_succ _)
    | close => exact ih

namespace Ledger.Balanced

variable {ledger : Ledger κ}

/-- Conservation: what was issued is what is held and what was closed. -/
theorem card_eq (balanced : ledger.Balanced) :
    ledger.issued = ledger.held.card + ledger.closed.length := by
  have sizes := congrArg Multiset.card balanced
  simp only [Multiset.card_add, Multiset.coe_card, Ledger.closedTokens, List.length_map,
    Multiset.card_range] at sizes
  exact sizes.symm

theorem nodup (balanced : ledger.Balanced) :
    (ledger.held + (ledger.closedTokens : Multiset Nat)).Nodup := by
  rw [show _ = _ from balanced]
  exact Multiset.nodup_range _

/-- No token is closed twice. -/
theorem closed_nodup (balanced : ledger.Balanced) : ledger.closedTokens.Nodup :=
  Multiset.coe_nodup.mp (Multiset.nodup_add.mp balanced.nodup).2.1

theorem held_nodup (balanced : ledger.Balanced) : ledger.held.Nodup :=
  (Multiset.nodup_add.mp balanced.nodup).1

/-- A closed token is no longer held. -/
theorem not_held (balanced : ledger.Balanced) {token : Nat} (closed : token ∈ ledger.closedTokens) :
    token ∉ ledger.held := fun held =>
  Multiset.disjoint_left.mp (Multiset.nodup_add.mp balanced.nodup).2.2 held
    (Multiset.mem_coe.mpr closed)

theorem lt_issued (balanced : ledger.Balanced) {token : Nat} :
    token < ledger.issued ↔ token ∈ ledger.held ∨ token ∈ ledger.closedTokens := by
  rw [← Multiset.mem_range, ← show _ = _ from balanced, Multiset.mem_add, Multiset.mem_coe]

/-- With nothing held, every token issued has been closed. -/
theorem all_closed (balanced : ledger.Balanced) (empty : ledger.held = 0) {token : Nat}
    (known : token < ledger.issued) : token ∈ ledger.closedTokens := by
  rcases balanced.lt_issued.mp known with held | closed
  · rw [empty] at held
    exact absurd held (Multiset.notMem_zero _)
  · exact closed

end Ledger.Balanced

end Audr.Accounts
