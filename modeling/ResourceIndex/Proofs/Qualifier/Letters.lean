import ResourceIndex.Proofs.Qualifier.Lexeme

/-!
# The letters of a qualifier

Without its digits a qualifier segment is left with the fixed letters of its dimension, with the two letters of a
language, or with the `r` and two letters of a region. No two dimensions share such letters, so the letters alone tell
which dimension a segment can belong to, and the lexical classes of different dimensions are disjoint.
-/

namespace ResourceIndex

/-- The characters of a segment that are no digits, in lower case. -/
def letters (seg : List Char) : List Char :=
  (seg.map Char.toLower).filter (!·.isDigit)

theorem mem_letters_of_mem {c : Char} {seg : List Char} (h : c ∈ seg) (hdigit : c.toLower.isDigit = false) :
    c.toLower ∈ letters seg := by
  rw [letters, List.mem_filter, hdigit]
  exact ⟨List.mem_map_of_mem h, rfl⟩

theorem filter_of_isNumeral {least most : Nat} {ds : List Char} (h : Text.IsNumeral least most ds) :
    ds.filter (!·.isDigit) = [] := by
  rw [List.filter_eq_nil_iff]
  intro c hc
  rw [h.isDigit c hc]
  decide

theorem filter_of_isLower {cs : List Char} (h : ∀ c ∈ cs, c.isLower = true) : cs.filter (!·.isDigit) = cs := by
  rw [List.filter_eq_self]
  intro c hc
  rw [Bool.not_eq_true', Bool.eq_false_iff]
  exact Text.not_isDigit_of_isLower (h c hc)

/-! ### Each kind of segment -/

section Kinds

variable {word : String} {least most : Nat} {seg ds as bs : List Char}

theorem IsCode.letters_eq (h : IsCode word least most seg ds) : letters seg = word.toList.filter (!·.isDigit) := by
  rw [letters, h.1, List.filter_append, filter_of_isNumeral h.2, List.append_nil]

theorem IsExtent.letters_eq (h : IsExtent word seg ds) :
    letters seg = word.toList.filter (!·.isDigit) ++ ['d', 'p'] := by
  rw [letters, h.1, List.filter_append, List.filter_append, filter_of_isNumeral h.2, List.append_nil]
  rfl

theorem IsSides.letters_eq (h : IsSides seg as bs) : letters seg = ['x'] := by
  rw [letters, h.1, List.filter_append, List.filter_cons_of_pos (by decide), filter_of_isNumeral h.2.1,
    filter_of_isNumeral h.2.2, List.nil_append]

theorem IsLetterPair.map_toLower_eq (h : IsLetterPair seg) :
    ∃ a b, seg.map Char.toLower = [a, b] ∧ ∀ c ∈ [a, b], c.isLower = true := by
  obtain ⟨a, b, rfl, ha, hb⟩ := h
  rw [← Char.isLower_toLower_eq_isAlpha] at ha hb
  exact ⟨a.toLower, b.toLower, rfl, by simp [ha, hb]⟩

theorem IsCapitalPair.isLetterPair (h : IsCapitalPair seg) : IsLetterPair seg := by
  obtain ⟨a, b, rfl, ha, hb⟩ := h
  exact ⟨a, b, rfl, by rw [Char.isAlpha, ha, Bool.true_or], by rw [Char.isAlpha, hb, Bool.true_or]⟩

end Kinds

def wordLetters (α : Type) [Vocabulary α] : List (List Char) :=
  (Vocabulary.all : List α).map fun v => (Vocabulary.word v).toList.filter (!·.isDigit)

theorem IsWord.letters_mem {α : Type} [Vocabulary α] [LawfulVocabulary α] {seg : List Char} {v : α}
    (h : IsWord seg v) : letters seg ∈ wordLetters α := by
  rw [letters, h]
  exact List.mem_map_of_mem (LawfulVocabulary.mem_all v)

namespace Dimension

/-! ### The dimension of given letters -/

/-- The letters of the segments of a dimension; those of a language or a region are not fixed. -/
def fixedLetters : Dimension → List (List Char)
  | .countryCode => ["mcc".toList]
  | .networkCode => ["mnc".toList]
  | .language | .region => []
  | .layoutDirection => wordLetters LayoutDirection
  | .smallestWidth => ["swdp".toList]
  | .screenWidth => ["wdp".toList]
  | .screenHeight => ["hdp".toList]
  | .screenSize => wordLetters ScreenSize
  | .screenRatio => wordLetters ScreenRatio
  | .orientation => wordLetters Orientation
  | .uiMode => wordLetters UiMode
  | .nightMode => wordLetters NightMode
  | .density => wordLetters Density
  | .touchscreen => wordLetters Touchscreen
  | .keyboardState => wordLetters KeyboardState
  | .textInput => wordLetters TextInput
  | .navigationState => wordLetters NavigationState
  | .navigation => wordLetters Navigation
  | .screenDimension => ["x".toList]
  | .version => ["v".toList]

/-- The dimension whose segments have these letters. -/
def ofLetters? : List Char → Option Dimension
  | [_, _] => some .language
  | ['r', _, _] => some .region
  | cs => all.find? fun d => cs ∈ d.fixedLetters

theorem ofLetters?_of_mem_fixedLetters {d : Dimension} : ∀ cs ∈ d.fixedLetters, ofLetters? cs = some d := by
  cases d <;> decide

theorem isLower_of_mem_fixedLetters {d : Dimension} : ∀ cs ∈ d.fixedLetters, cs.all Char.isLower = true := by
  cases d <;> decide

namespace Fits

variable {d e : Dimension} {seg : List Char}

theorem letters_mem (h : d.Fits seg) (hlanguage : d ≠ .language) (hregion : d ≠ .region) :
    letters seg ∈ d.fixedLetters := by
  cases d with
  | language => exact absurd rfl hlanguage
  | region => exact absurd rfl hregion
  | countryCode | networkCode | version =>
    obtain ⟨ds, hcode⟩ := h
    rw [IsCode.letters_eq hcode]
    decide
  | smallestWidth | screenWidth | screenHeight =>
    obtain ⟨ds, hextent⟩ := h
    rw [IsExtent.letters_eq hextent]
    decide
  | screenDimension =>
    obtain ⟨as, bs, hsides⟩ := h
    rw [IsSides.letters_eq hsides]
    decide
  | _ =>
    obtain ⟨v, hword⟩ := h
    exact IsWord.letters_mem hword

/-- The letters of a segment are lowercase letters that determine its dimension. -/
theorem letters_spec (h : d.Fits seg) :
    (∀ c ∈ letters seg, c.isLower = true) ∧ ofLetters? (letters seg) = some d := by
  by_cases hlanguage : d = .language
  · subst hlanguage
    obtain ⟨a, b, hseg, hlower⟩ := IsLetterPair.map_toLower_eq h
    rw [letters, hseg, filter_of_isLower hlower]
    exact ⟨hlower, rfl⟩
  by_cases hregion : d = .region
  · subst hregion
    obtain ⟨cs, rfl, hcapitals⟩ := h
    obtain ⟨a, b, hcs, hlower⟩ := IsLetterPair.map_toLower_eq (IsCapitalPair.isLetterPair hcapitals)
    have hseg : ('r' :: cs).map Char.toLower = ['r', a, b] := congrArg ('r' :: ·) hcs
    have hall : ∀ c ∈ ['r', a, b], c.isLower = true := List.forall_mem_cons.mpr ⟨by decide, hlower⟩
    rw [letters, hseg, filter_of_isLower hall]
    exact ⟨hall, rfl⟩
  have hmem := h.letters_mem hlanguage hregion
  exact ⟨List.all_eq_true.mp (isLower_of_mem_fixedLetters _ hmem), ofLetters?_of_mem_fixedLetters _ hmem⟩

/-- A segment is in the lexical class of at most one dimension. -/
theorem unique (hd : d.Fits seg) (he : e.Fits seg) : d = e :=
  Option.some.inj (hd.letters_spec.2.symm.trans he.letters_spec.2)

theorem ne_nil (h : d.Fits seg) : seg ≠ [] := by
  rintro rfl
  have hnone : ofLetters? (letters []) = none := by decide
  rw [h.letters_spec.2] at hnone
  exact nomatch hnone

theorem dash_not_mem (h : d.Fits seg) : '-' ∉ seg := by
  intro hdash
  have hmem : '-'.toLower ∈ letters seg := mem_letters_of_mem hdash (by decide)
  exact absurd (h.letters_spec.1 _ hmem) (by decide)

end Fits

end Dimension

end ResourceIndex
