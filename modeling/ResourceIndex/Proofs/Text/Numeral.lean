import Mathlib
import ResourceIndex.Text.Number

/-!
# Decimal numerals

A numeral is a run of ASCII digits of bounded length, and it is read as the number that it denotes, leading zeros or
not. A number that is written, padded or not, is a numeral that denotes it. Numerals short enough for a machine word are
never refused because of their value.
-/

namespace ResourceIndex.Text

/-- A run of `least` to `most` decimal digits. -/
structure IsNumeral (least most : Nat) (cs : List Char) : Prop where
  least_le : least ≤ cs.length
  le_most : cs.length ≤ most
  isDigit : ∀ c ∈ cs, c.isDigit = true

/-- The number that a numeral denotes. -/
def decimal (cs : List Char) : Nat :=
  Nat.ofDigitChars 10 cs 0

theorem digitsValue_eq_decimal (cs : List Char) : digitsValue cs = decimal cs :=
  Nat.ofDigitChars_eq_foldl.symm

theorem number?_eq_some_iff {least most : Nat} {cs : List Char} {n : Nat} :
    number? least most cs = some n ↔ IsNumeral least most cs ∧ n = decimal cs := by
  rw [number?, ← digitsValue_eq_decimal]
  split
  next h =>
    exact ⟨fun heq => ⟨⟨h.1, h.2.1, List.all_eq_true.mp h.2.2⟩, (Option.some.inj heq).symm⟩,
      fun h => congrArg some h.2.symm⟩
  next h => exact ⟨nofun, fun hn => absurd ⟨hn.1.least_le, hn.1.le_most, List.all_eq_true.mpr hn.1.isDigit⟩ h⟩

/-! ### Values -/

theorem toNat_sub_zero_lt {c : Char} (h : c.isDigit = true) : c.toNat - '0'.toNat < 10 := by
  have hlast : c.toNat ≤ 57 := (Char.isDigit_iff_toNat.mp h).2
  have hzero : '0'.toNat = 48 := rfl
  omega

theorem decimal_lt {cs : List Char} (h : ∀ c ∈ cs, c.isDigit = true) : decimal cs < 10 ^ cs.length := by
  induction cs with
  | nil => exact Nat.one_pos
  | cons c cs ih =>
    rw [List.forall_mem_cons] at h
    have hdigit := toNat_sub_zero_lt h.1
    have hrest : decimal cs < 10 ^ cs.length := ih h.2
    calc decimal (c :: cs)
        = 10 ^ cs.length * (c.toNat - '0'.toNat) + decimal cs := by
          rw [decimal, Nat.ofDigitChars_cons, Nat.mul_zero, Nat.zero_add, Nat.ofDigitChars_eq_ofDigitChars_zero,
            decimal]
      _ < 10 ^ cs.length * (c.toNat - '0'.toNat) + 10 ^ cs.length := Nat.add_lt_add_left hrest _
      _ = 10 ^ cs.length * (c.toNat - '0'.toNat + 1) := by rw [Nat.mul_succ]
      _ ≤ 10 ^ cs.length * 10 := Nat.mul_le_mul_left _ hdigit
      _ = 10 ^ (c :: cs).length := by rw [List.length_cons, Nat.pow_succ]

theorem IsNumeral.decimal_lt {least most : Nat} {cs : List Char} (h : IsNumeral least most cs) :
    decimal cs < 10 ^ most :=
  Nat.lt_of_lt_of_le (Text.decimal_lt h.isDigit) (Nat.pow_le_pow_right (by decide) h.le_most)

/-! ### Written numbers -/

theorem isNumeral_paddedDigits {width most n : Nat} (hwidth : width ≤ most) (hmost : 0 < most) (hn : n < 10 ^ most) :
    IsNumeral (max width 1) most (paddedDigits width n) where
  least_le := by
    have hpos : 0 < (Nat.toDigits 10 n).length := Nat.length_toDigits_pos
    rw [paddedDigits, digits, List.length_leftpad]
    omega
  le_most := by
    have hlength : (Nat.toDigits 10 n).length ≤ most := (Nat.length_toDigits_le_iff (by decide) hmost).mpr hn
    rw [paddedDigits, digits, List.length_leftpad]
    omega
  isDigit c hc := by
    rw [paddedDigits, List.leftpad, List.mem_append, List.mem_replicate] at hc
    obtain ⟨-, rfl⟩ | hc := hc
    · rfl
    · exact Nat.isDigit_of_mem_toDigits (by decide) (by decide) hc

theorem decimal_paddedDigits (width n : Nat) : decimal (paddedDigits width n) = n := by
  rw [decimal, paddedDigits, List.leftpad, Nat.ofDigitChars_append, Nat.ofDigitChars_replicate_zero, Nat.mul_zero,
    digits, Nat.ofDigitChars_ten_toDigits]

theorem digits_eq_paddedDigits (n : Nat) : digits n = paddedDigits 0 n := by
  rw [paddedDigits, List.leftpad, Nat.zero_sub, List.replicate_zero, List.nil_append]

/-! ### Machine words -/

theorem word16?_eq_some_iff {n : Nat} {w : UInt16} : word16? n = some w ↔ w.toNat = n := by
  rw [word16?]
  split
  next h =>
    rw [Option.some_inj, ← UInt16.toNat_inj, UInt16.toNat_ofNat_of_lt' h]
    exact eq_comm
  next h => exact ⟨nofun, fun heq => absurd (heq ▸ w.toNat_lt) h⟩

theorem word32?_eq_some_iff {n : Nat} {w : UInt32} : word32? n = some w ↔ w.toNat = n := by
  rw [word32?]
  split
  next h =>
    rw [Option.some_inj, ← UInt32.toNat_inj, UInt32.toNat_ofNat_of_lt' h]
    exact eq_comm
  next h => exact ⟨nofun, fun heq => absurd (heq ▸ w.toNat_lt) h⟩

end ResourceIndex.Text
