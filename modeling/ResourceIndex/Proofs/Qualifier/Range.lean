import ResourceIndex.Proofs.Qualifier.Lexeme

/-!
# Ranges of qualifier values

A value that a segment denotes lies in the range of its dimension: a code or a size has no more digits than its segments
may have, a language is two small letters and a region two capitals, and the larger screen side comes first. The values
in range are also the ones that are written as a segment that denotes them.
-/

namespace ResourceIndex.Dimension

/-- The value is in the range of its dimension. -/
def Valid (d : Dimension) (v : d.Value) : Prop :=
  match d, v with
  | .countryCode, v => v.toNat ≤ 999
  | .networkCode, v => v.toNat ≤ 999
  | .language, v => ∃ a b, v.toList = [a, b] ∧ a.isLower = true ∧ b.isLower = true
  | .region, v => ∃ a b, v.toList = [a, b] ∧ a.isUpper = true ∧ b.isUpper = true
  | .smallestWidth, v => v.toNat ≤ 99999
  | .screenWidth, v => v.toNat ≤ 99999
  | .screenHeight, v => v.toNat ≤ 99999
  | .screenDimension, v => v.large.toNat ≤ 99999 ∧ v.small.toNat ≤ 99999 ∧ v.small.toNat ≤ v.large.toNat
  | .version, v => v.toNat ≤ 9999
  | _, _ => True

/-! ### Denoted values -/

theorem le_of_isNumeral {least most n : Nat} {ds : List Char} (hn : n = Text.decimal ds)
    (hds : Text.IsNumeral least most ds) : n ≤ 10 ^ most - 1 := by
  have hlt := hds.decimal_lt
  omega

theorem Denotes.valid {d : Dimension} {seg : List Char} {v : d.Value} (h : d.Denotes seg v) : d.Valid v := by
  cases d with
  | countryCode | networkCode | version =>
    obtain ⟨ds, hcode, hv⟩ := h
    exact le_of_isNumeral hv hcode.2
  | smallestWidth | screenWidth | screenHeight =>
    obtain ⟨ds, hextent, hv⟩ := h
    exact le_of_isNumeral hv hextent.2
  | language =>
    obtain ⟨⟨a, b, rfl, ha, hb⟩, hv⟩ := h
    rw [← Char.isLower_toLower_eq_isAlpha] at ha hb
    exact ⟨a.toLower, b.toLower, hv, ha, hb⟩
  | region => exact h.2
  | screenDimension =>
    obtain ⟨as, bs, hsides, hlarge, hsmall⟩ := h
    have has := le_of_isNumeral rfl hsides.2.1
    have hbs := le_of_isNumeral rfl hsides.2.2
    rw [Valid, hlarge, hsmall]
    exact ⟨max_le has hbs, min_le_of_left_le has, min_le_max⟩
  | _ => exact trivial

/-! ### Written values -/

theorem isCode_codeSegment {word : String} {least most width n : Nat} (hword : Text.IsPlain word.toList)
    (hleast : least ≤ max width 1) (hwidth : width ≤ most) (hmost : 0 < most) (hn : n < 10 ^ most) :
    IsCode word least most (codeSegment word width n) (Text.paddedDigits width n) := by
  have hnumeral := Text.isNumeral_paddedDigits hwidth hmost hn
  refine ⟨(hword.append hnumeral.isPlain).map_toLower, ?_⟩
  exact ⟨hleast.trans hnumeral.least_le, hnumeral.le_most, hnumeral.isDigit⟩

theorem isNumeral_digits {n : Nat} (hn : n ≤ 99999) : Text.IsNumeral 1 5 (Text.digits n) := by
  rw [Text.digits_eq_paddedDigits]
  exact Text.isNumeral_paddedDigits (Nat.zero_le _) (by decide) (Nat.lt_succ_of_le hn)

theorem decimal_digits (n : Nat) : Text.decimal (Text.digits n) = n := by
  rw [Text.digits_eq_paddedDigits, Text.decimal_paddedDigits]

theorem isExtent_extentSegment {word : String} {n : UInt32} (hword : Text.IsPlain word.toList) (hn : n.toNat ≤ 99999) :
    IsExtent word (extentSegment word n) (Text.digits n.toNat) := by
  have hnumeral := isNumeral_digits hn
  have hdp : Text.IsPlain ['d', 'p'] := by decide
  exact ⟨((hword.append hnumeral.isPlain).append hdp).map_toLower, hnumeral⟩

theorem isSides_write {v : ScreenDimension} (hlarge : v.large.toNat ≤ 99999) (hsmall : v.small.toNat ≤ 99999) :
    IsSides (screenDimension.write v) (Text.digits v.large.toNat) (Text.digits v.small.toNat) := by
  have hfirst := isNumeral_digits hlarge
  have hsecond := isNumeral_digits hsmall
  have hx : Text.IsPlain ['x'] := by decide
  have hplain := hfirst.isPlain.append (hx.append hsecond.isPlain)
  exact ⟨hplain.map_toLower, hfirst, hsecond⟩

theorem Valid.denotes_write {d : Dimension} {v : d.Value} (h : d.Valid v) : d.Denotes (d.write v) v := by
  cases d with
  | countryCode | networkCode | version =>
    refine ⟨_, isCode_codeSegment ?_ ?_ ?_ ?_ (Nat.lt_succ_of_le h), (Text.decimal_paddedDigits _ _).symm⟩ <;> decide
  | smallestWidth | screenWidth | screenHeight =>
    exact ⟨_, isExtent_extentSegment (by decide) h, (decimal_digits _).symm⟩
  | language =>
    obtain ⟨a, b, hv, ha, hb⟩ := h
    have hplain : Text.IsPlain v.toList := by
      rw [hv]
      exact List.forall_mem_cons.mpr ⟨.inl ha, List.forall_mem_singleton.mpr (.inl hb)⟩
    have hpair : IsLetterPair v.toList :=
      ⟨a, b, hv, by rw [Char.isAlpha, ha, Bool.or_true], by rw [Char.isAlpha, hb, Bool.or_true]⟩
    exact ⟨hpair, hplain.map_toLower.symm⟩
  | region => exact ⟨rfl, h⟩
  | screenDimension =>
    obtain ⟨hlarge, hsmall, horder⟩ := h
    refine ⟨_, _, isSides_write hlarge hsmall, ?_, ?_⟩
    · rw [decimal_digits, decimal_digits, max_eq_left horder]
    · rw [decimal_digits, decimal_digits, min_eq_right horder]
  | _ => exact (Vocabulary.isPlain_word v).map_toLower

end ResourceIndex.Dimension
