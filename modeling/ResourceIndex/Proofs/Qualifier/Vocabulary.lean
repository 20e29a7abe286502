import ResourceIndex.Proofs.Text.Plain
import ResourceIndex.Qualifier.Vocabulary

/-!
# Lawful vocabularies

A vocabulary lists all its values, no two of them are spelled alike, and its words are of lowercase letters and digits.
So reading a word finds the value that is spelled so, and no other.
-/

namespace ResourceIndex

class LawfulVocabulary (α : Type) [Vocabulary α] : Prop where
  mem_all : ∀ a : α, a ∈ Vocabulary.all
  nodup_words : ((Vocabulary.all : List α).map Vocabulary.word).Nodup
  plain_words : ∀ a ∈ (Vocabulary.all : List α), Text.IsPlain (Vocabulary.word a).toList

namespace Vocabulary

variable {α : Type} [Vocabulary α] [LawfulVocabulary α]

theorem word_injective : Function.Injective (word : α → String) := fun a b h =>
  List.inj_on_of_nodup_map LawfulVocabulary.nodup_words (LawfulVocabulary.mem_all a) (LawfulVocabulary.mem_all b) h

theorem ofWord?_eq_some_iff {w : List Char} {a : α} : ofWord? w = some a ↔ (word a).toList = w := by
  constructor
  · intro h
    simpa using List.find?_some h
  · rintro rfl
    cases h : ofWord? (α := α) (word a).toList with
    | none =>
      have hnone := List.find?_eq_none.mp h a (LawfulVocabulary.mem_all a)
      simp at hnone
    | some b =>
      have hb : (word b).toList = (word a).toList := by simpa using List.find?_some h
      rw [word_injective (String.toList_inj.mp hb)]

theorem isPlain_word (a : α) : Text.IsPlain (word a).toList :=
  LawfulVocabulary.plain_words a (LawfulVocabulary.mem_all a)

end Vocabulary

instance : LawfulVocabulary LayoutDirection := ⟨by rintro ⟨⟩ <;> decide, by decide, by decide⟩
instance : LawfulVocabulary ScreenSize := ⟨by rintro ⟨⟩ <;> decide, by decide, by decide⟩
instance : LawfulVocabulary ScreenRatio := ⟨by rintro ⟨⟩ <;> decide, by decide, by decide⟩
instance : LawfulVocabulary Orientation := ⟨by rintro ⟨⟩ <;> decide, by decide, by decide⟩
instance : LawfulVocabulary UiMode := ⟨by rintro ⟨⟩ <;> decide, by decide, by decide⟩
instance : LawfulVocabulary NightMode := ⟨by rintro ⟨⟩ <;> decide, by decide, by decide⟩
instance : LawfulVocabulary Density := ⟨by rintro ⟨⟩ <;> decide, by decide, by decide⟩
instance : LawfulVocabulary Touchscreen := ⟨by rintro ⟨⟩ <;> decide, by decide, by decide⟩
instance : LawfulVocabulary KeyboardState := ⟨by rintro ⟨⟩ <;> decide, by decide, by decide⟩
instance : LawfulVocabulary TextInput := ⟨by rintro ⟨⟩ <;> decide, by decide, by decide⟩
instance : LawfulVocabulary NavigationState := ⟨by rintro ⟨⟩ <;> decide, by decide, by decide⟩
instance : LawfulVocabulary Navigation := ⟨by rintro ⟨⟩ <;> decide, by decide, by decide⟩

end ResourceIndex
