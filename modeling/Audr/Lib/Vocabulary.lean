import Mathlib.Data.List.Nodup

/-! Closed vocabularies: the words that stand for the members of a type. -/

namespace Audr

class Vocabulary (E : Type) where
  members : List E
  word : E → String
  complete : ∀ e, e ∈ members
  distinct : (members.map word).Nodup

namespace Vocabulary

variable {E : Type} [Vocabulary E]

def words (E : Type) [Vocabulary E] : List String := (members (E := E)).map word

/-- The member a text is the word of. -/
def ofWord (text : String) : Option E := (members (E := E)).find? fun e => word e = text

theorem word_injective : Function.Injective (word (E := E)) :=
  fun a b same => List.inj_on_of_nodup_map distinct (complete a) (complete b) same

theorem ofWord_word (e : E) : ofWord (word e) = some e := by
  have found : ((members (E := E)).find? fun other => word other = word e).isSome = true :=
    List.find?_isSome.mpr ⟨e, complete e, by simp⟩
  obtain ⟨other, searched⟩ := Option.isSome_iff_exists.mp found
  have same : word other = word e := by simpa using List.find?_some searched
  rw [ofWord, searched, word_injective same]

end Vocabulary

end Audr
