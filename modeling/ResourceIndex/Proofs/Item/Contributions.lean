import Mathlib.Data.List.InsertIdx
import ResourceIndex.Item

/-!
# Contributions of items

An item keeps its variants and their inline flags in two lists of one length. Read together they are the contributions,
which say everything about an item besides its name; every change of an item is a change of its contributions.
-/

namespace ResourceIndex.Item

@[simp] theorem map_variant_contributions (i : Item) : i.contributions.map (·.variant) = i.variants := by
  simpa [contributions, Function.comp_def] using List.map_fst_zip (Nat.le_of_eq i.length_inlineFlags.symm)

@[simp] theorem map_isInline_contributions (i : Item) : i.contributions.map (·.isInline) = i.inlineFlags := by
  simpa [contributions, Function.comp_def] using List.map_snd_zip (Nat.le_of_eq i.length_inlineFlags)

/-- An item is its name and its contributions. -/
theorem ext_contributions {i j : Item} (hname : i.name = j.name) (hcontributions : i.contributions = j.contributions) :
    i = j := by
  apply Item.ext hname
  · rw [← map_variant_contributions, hcontributions, map_variant_contributions]
  · rw [← map_isInline_contributions, hcontributions, map_isInline_contributions]

@[simp] theorem contributions_named (name : String) : (named name).contributions = [] := by
  rfl

@[simp] theorem contributions_add (i : Item) (v : Variant) (isInline : Bool) :
    (i.add v isInline).contributions = i.contributions ++ [⟨v, isInline⟩] := by
  simp [contributions, add, List.zip_append i.length_inlineFlags.symm]

@[simp] theorem contributions_reset (i : Item) : i.reset.contributions = [] := by
  rfl

private theorem zip_eraseIdx {α β : Type} (xs : List α) (ys : List β) (n : Nat) :
    (xs.eraseIdx n).zip (ys.eraseIdx n) = (xs.zip ys).eraseIdx n := by
  induction n generalizing xs ys with
  | zero => cases xs <;> cases ys <;> simp
  | succ n ih =>
    cases xs <;> cases ys <;> simp [ih]

/-- A removal takes out the oldest contribution of the source, with its own flag. -/
@[simp] theorem contributions_remove (i : Item) (source : SourceId) :
    (i.remove source).contributions = i.contributions.eraseP (·.variant.source = source) := by
  have hfind : i.contributions.findIdx? (·.variant.source = source) = i.variants.findIdx? (·.source = source) := by
    rw [← map_variant_contributions i, List.findIdx?_map]
    rfl
  rw [List.eraseP_eq_eraseIdx, hfind, remove, remove?]
  cases i.variants.findIdx? (·.source = source) with
  | none => rfl
  | some n => simp [contributions, zip_eraseIdx, List.eraseIdx_map]

@[simp] theorem name_named (name : String) : (named name).name = name := by
  rfl

@[simp] theorem name_add (i : Item) (v : Variant) (isInline : Bool) : (i.add v isInline).name = i.name := by
  rfl

@[simp] theorem name_remove (i : Item) (source : SourceId) : (i.remove source).name = i.name := by
  rw [remove, remove?]
  cases i.variants.findIdx? (·.source = source) <;> rfl

@[simp] theorem name_reset (i : Item) : i.reset.name = i.name := by
  rfl

theorem hasNoVariants_iff (i : Item) : i.hasNoVariants = true ↔ i.contributions = [] := by
  rw [hasNoVariants, ← map_variant_contributions, List.isEmpty_iff, List.map_eq_nil_iff]

theorem alternateCount_add_countP (i : Item) :
    i.alternateCount + i.variants.countP (·.isDefault) = i.variantCount := by
  have hlength := List.length_eq_countP_add_countP Variant.isDefault (l := i.variants)
  simp only [Bool.not_eq_true, Bool.decide_eq_false] at hlength
  rw [variantCount, alternateCount, hlength, Nat.add_comm]

end ResourceIndex.Item
