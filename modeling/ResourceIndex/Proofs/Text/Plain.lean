import ResourceIndex.Proofs.Text.Numeral

/-!
# Plain text

The words and numbers of a canonical folder name are plain: lowercase ASCII letters and digits, which are their own
lowercase form.
-/

namespace ResourceIndex.Text

/-- The text consists of lowercase letters and digits. -/
def IsPlain (cs : List Char) : Prop :=
  ∀ c ∈ cs, c.isLower = true ∨ c.isDigit = true

instance (cs : List Char) : Decidable (IsPlain cs) :=
  List.decidableBAll _ cs

theorem not_isUpper_of_isDigit {c : Char} (h : c.isDigit = true) : ¬c.isUpper = true := by
  intro hupper
  have hlast : c.toNat ≤ 57 := (Char.isDigit_iff_toNat.mp h).2
  have hfirst : 65 ≤ c.toNat := by
    simp only [Char.isUpper, decide_eq_true_iff] at hupper
    exact UInt32.le_iff_toNat_le.mp hupper.1
  omega

theorem not_isDigit_of_isLower {c : Char} (h : c.isLower = true) : ¬c.isDigit = true := by
  intro hdigit
  have hlast : c.toNat ≤ 57 := (Char.isDigit_iff_toNat.mp hdigit).2
  have hfirst : 97 ≤ c.toNat := by
    simp only [Char.isLower, Bool.and_eq_true, decide_eq_true_iff] at h
    exact UInt32.le_iff_toNat_le.mp h.1
  omega

theorem IsNumeral.isPlain {least most : Nat} {cs : List Char} (h : IsNumeral least most cs) : IsPlain cs :=
  fun c hc => .inr (h.isDigit c hc)

namespace IsPlain

variable {cs ds : List Char}

theorem append (hcs : IsPlain cs) (hds : IsPlain ds) : IsPlain (cs ++ ds) := fun c hc =>
  (List.mem_append.mp hc).elim (hcs c) (hds c)

theorem map_toLower (h : IsPlain cs) : cs.map Char.toLower = cs := by
  have hid : ∀ c ∈ cs, c.toLower = id c := by
    intro c hc
    obtain hlower | hdigit := h c hc
    · exact Char.toLower_eq_of_not_isUpper (Char.not_isUpper_of_isLower hlower)
    · exact Char.toLower_eq_of_not_isUpper (not_isUpper_of_isDigit hdigit)
  rw [List.map_congr_left hid, List.map_id]

end IsPlain

end ResourceIndex.Text
