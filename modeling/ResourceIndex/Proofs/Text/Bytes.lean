import Mathlib.Data.String.Basic

/-!
# The order of texts

Texts stand in the order of their UTF-8 bytes, as the encoding keeps the order of characters: where two encodings first
differ, the one of the lesser character has the lesser byte, and neither encoding begins with the other.
-/

namespace ResourceIndex.Text

def bytes (text : String) : List UInt8 :=
  text.toUTF8.data.toList

theorem bytes_eq (text : String) : bytes text = text.toList.flatMap String.utf8EncodeChar := by
  have hencode : text.toUTF8 = text.toList.utf8Encode := by
    rw [String.toUTF8, ← String.toByteArray_ofList, String.ofList_toList]
  rw [bytes, hencode, List.utf8Encode, List.data_toByteArray]

theorem ofNat_lt_iff (a b : Nat) : UInt8.ofNat a < UInt8.ofNat b ↔ a % 256 < b % 256 := by
  rw [UInt8.lt_iff_toNat_lt, UInt8.toNat_ofNat', UInt8.toNat_ofNat']

theorem ofNat_eq_iff (a b : Nat) : UInt8.ofNat a = UInt8.ofNat b ↔ a % 256 = b % 256 := by
  rw [← UInt8.toNat_inj, UInt8.toNat_ofNat', UInt8.toNat_ofNat']

/-- A byte holds a mark and some bits. -/
theorem mod_add_mod_of_le {size mark : Nat} (n : Nat) (hsize : 0 < size) (h : size + mark ≤ 256) :
    (n % size + mark) % 256 = n % size + mark := by
  have hlt := Nat.mod_lt n hsize
  exact Nat.mod_eq_of_lt (by omega)

/-- The encodings of two characters differ somewhere, whatever comes behind them. -/
theorem utf8EncodeChar_append_lt {c d : Char} (h : c < d) (cs ds : List UInt8) :
    String.utf8EncodeChar c ++ cs < String.utf8EncodeChar d ++ ds := by
  have hlt : c.val.toNat < d.val.toNat := h
  have hd : d.val.toNat < 0x110000 := by
    obtain hvalid | hvalid := d.valid <;> omega
  -- the bits of a byte are digits to the base 64
  have hdigit (n : Nat) : n / 4096 = n / 64 / 64 ∧ n / 262144 = n / 64 / 64 / 64 := by omega
  simp only [String.utf8EncodeChar]
  split_ifs <;>
    simp only [List.cons_append, List.nil_append, List.cons_lt_cons_iff, ofNat_lt_iff, ofNat_eq_iff,
      mod_add_mod_of_le, Nat.reduceLT, Nat.reduceAdd, Nat.reduceLeDiff, hdigit] <;>
    omega

theorem flatMap_utf8EncodeChar_lt {cs ds : List Char} (h : cs < ds) :
    cs.flatMap String.utf8EncodeChar < ds.flatMap String.utf8EncodeChar := by
  induction cs generalizing ds with
  | nil =>
    cases ds with
    | nil => exact absurd h (List.lt_irrefl _)
    | cons d ds =>
      obtain ⟨first, others, hfirst⟩ := List.exists_cons_of_ne_nil (String.utf8EncodeChar_ne_nil (c := d))
      rw [List.flatMap_cons, hfirst]
      exact .nil
  | cons c cs ih =>
    cases ds with
    | nil => exact absurd h (List.not_lt_nil _)
    | cons d ds =>
      rw [List.flatMap_cons, List.flatMap_cons]
      obtain hlt | ⟨rfl, hrest⟩ := List.cons_lt_cons_iff.mp h
      · exact utf8EncodeChar_append_lt hlt _ _
      · exact List.append_left_lt (ih hrest)

/-- Texts stand in the order of their bytes. -/
theorem compare_eq_lt_iff {a b : String} : compare a b = .lt ↔ bytes a < bytes b := by
  have hbytes {a b : String} (h : a < b) : bytes a < bytes b := by
    rw [bytes_eq, bytes_eq]
    exact flatMap_utf8EncodeChar_lt h
  have hcompare : compare a b = .lt ↔ a < b := compareOfLessAndEq_eq_lt
  rw [hcompare]
  refine ⟨hbytes, fun h => ?_⟩
  by_contra hnot
  obtain heq | hlt := (not_lt.mp hnot).eq_or_lt
  · exact absurd h (by rw [heq]; exact List.lt_irrefl _)
  · exact absurd (List.lt_trans h (hbytes hlt)) (List.lt_irrefl _)

end ResourceIndex.Text
