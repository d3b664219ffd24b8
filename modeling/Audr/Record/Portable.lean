import Audr.Record.Blocks
import Audr.Record.Validate

/-! Which blocks written in Python the schema admits: what Pydantic has checked is nearly all it
asks for. -/

namespace Audr.Record

open Fields (present)
open JsRecord (Rule objectRule textRule enumRule amountRule integerRule finiteValue extensionPattern)
open Vocabulary (word words)

variable {library : Library} {fields : List (String × Option Dump)} {extra : List (String × Python.Number)}

/-! What encoding has found finite. -/

/-- `_clean` lets a value through. -/
def Cleans (library : Library) (dump : Dump) : Prop := ∃ plain, clean library dump = .ok plain

theorem cleans_dict {members : List (String × Dump)} (cleans : Cleans library (.dict members)) :
    ∀ entry ∈ members, Cleans library entry.2 := by
  obtain ⟨plain, cleaned⟩ := cleans
  obtain ⟨values, each, -⟩ := map_eq_ok.mp cleaned
  rw [cleanMembers_eq, sequence_eq_ok] at each
  intro entry member
  clear cleaned
  induction each with
  | nil => cases member
  | cons pair rest ih =>
    rename_i first value entries values
    rcases List.mem_cons.mp member with rfl | later
    · exact ⟨value.2, pair.2⟩
    · exact ih later

theorem cleans_moment {moment : Moment} (cleans : Cleans library (.datetime moment)) :
    0 ≤ moment.utc ∧ moment.utc < momentsEnd := by
  obtain ⟨plain, cleaned⟩ := cleans
  obtain ⟨text, written, -⟩ := map_eq_ok.mp cleaned
  unfold toRfc3339Ms at written
  split at written
  next inside => exact inside
  next => cases written

/-! Texts and words. -/

/-- An extension begins as no field of the schema does. -/
theorem extensionKey_head {key : String} (matched : extensionKey key = true) : ∃ rest, key.toList = 'x' :: '_' :: rest := by
  have head : ∀ {text : List Char}, extensionPattern (String.ofList text) = true → ∃ rest, text = 'x' :: '_' :: rest := by
    intro text admitted
    obtain ⟨rest, spelled, -⟩ := JsRecord.extensionPattern_inv admitted
    rw [String.toList_ofList] at spelled
    exact ⟨rest, spelled⟩
  rw [extensionKey, pyEnd, Bool.or_eq_true, Bool.and_eq_true] at matched
  rcases matched with direct | ⟨-, shorter⟩
  · exact head direct
  · obtain ⟨rest, spelled⟩ := head shorter
    obtain ⟨more, longer⟩ := List.dropLast_prefix key.toList
    exact ⟨rest ++ more, by rw [← longer, spelled]; rfl⟩

theorem counted_sensible {number : Python.Number} (counted : Counted number) : Sensible number := by
  cases number with
  | int n => exact counted
  | float value =>
    intro q same
    obtain ⟨r, finite, nonneg, representable⟩ := counted
    rw [same] at finite
    cases finite
    exact ⟨nonneg, representable⟩

/-- No field's name begins as an extension's does. -/
def NoExtension (fields : List (String × Option Dump)) : Prop := ∀ name ∈ fields.map Prod.fst, name.toList.head? ≠ some 'x'

theorem Extensions.separate (extra : Extensions) (distinct : (fields.map Prod.fst).Nodup) (none : NoExtension fields) :
    Separate fields extra.entries := by
  refine ⟨distinct, extra.distinct, ?_⟩
  intro entry member listed
  obtain ⟨rest, spelled⟩ := extensionKey_head (extra.named entry member)
  exact none entry.1 listed (by rw [spelled]; rfl)

end Audr.Record
