import ResourceIndex.Proofs.Configuration.Order
import ResourceIndex.Proofs.Item.Contributions

/-!
# Sorted variants

The variants of an item in the order of their configurations are its variants, none missing and none repeated, and
variants of one configuration stand as they arrived. Since the configuration that sets nothing is the least one, the
unqualified variants come first.
-/

namespace ResourceIndex

/-! ### The order of variants -/

theorem Variant.isLE_trans (u v w : Variant) (huv : (compare u.configuration v.configuration).isLE)
    (hvw : (compare v.configuration w.configuration).isLE) : (compare u.configuration w.configuration).isLE :=
  Std.TransOrd.isLE_trans huv hvw

theorem Variant.isLE_total (v w : Variant) :
    ((compare v.configuration w.configuration).isLE || (compare w.configuration v.configuration).isLE) = true :=
  Configuration.isLE_total v.configuration w.configuration

theorem Variant.isDefault_iff {v : Variant} : v.isDefault = true ↔ v.configuration = .empty :=
  Configuration.isDefault_iff

/-- What comes before an unqualified variant is unqualified. -/
theorem Variant.isDefault_of_isLE {v w : Variant} (h : (compare v.configuration w.configuration).isLE)
    (hw : w.isDefault = true) : v.isDefault = true := by
  rw [isDefault_iff] at hw ⊢
  rw [hw] at h
  exact Configuration.eq_empty_of_isLE h

namespace Item

variable {i : Item}

theorem sortedVariants_perm (i : Item) : i.sortedVariants.Perm i.variants :=
  List.mergeSort_perm ..

theorem sortedVariants_ascending (i : Item) :
    i.sortedVariants.Pairwise fun v w => (compare v.configuration w.configuration).isLE :=
  List.pairwise_mergeSort Variant.isLE_trans Variant.isLE_total i.variants

/-- Variants of one configuration stand as they arrived. -/
theorem filter_sortedVariants (i : Item) (c : Configuration) :
    i.sortedVariants.filter (·.configuration = c) = i.variants.filter (·.configuration = c) := by
  have htied : (i.variants.filter (·.configuration = c)).Pairwise
      fun v w => (compare v.configuration w.configuration).isLE := by
    apply List.pairwise_of_forall_mem_list
    intro v hv w hw
    rw [List.mem_filter, decide_eq_true_iff] at hv hw
    rw [hv.2, hw.2, Std.ReflOrd.compare_self]
    rfl
  -- Sorting keeps every part that is ascending already.
  have hkept : (i.variants.filter (·.configuration = c)).Sublist i.sortedVariants :=
    List.sublist_mergeSort Variant.isLE_trans Variant.isLE_total htied List.filter_sublist
  have hfilter := hkept.filter (·.configuration = c)
  rw [List.filter_filter] at hfilter
  simp only [Bool.and_self] at hfilter
  exact (hfilter.eq_of_length (i.sortedVariants_perm.filter _).length_eq.symm).symm

theorem countP_sortedVariants (i : Item) : i.sortedVariants.countP (!·.isDefault) = i.alternateCount :=
  i.sortedVariants_perm.countP_eq _

/-! ### Unqualified variants first -/

theorem sortedVariants_isDefault (i : Item) :
    i.sortedVariants.Pairwise fun v w => w.isDefault = true → v.isDefault = true :=
  i.sortedVariants_ascending.imp Variant.isDefault_of_isLE

theorem filter_isDefault_sortedVariants (i : Item) :
    i.sortedVariants.filter (·.isDefault) = i.variants.filter (·.isDefault) := by
  have hempty : Variant.isDefault = fun v => decide (v.configuration = .empty) := by
    funext v
    rw [Bool.eq_iff_iff, Variant.isDefault_iff, decide_eq_true_iff]
  rw [hempty]
  exact i.filter_sortedVariants .empty

/-- Where what has a property stands first, it is as long a part of the list as there is of it. -/
theorem take_countP_eq_filter {α : Type} {p : α → Bool} {xs : List α}
    (h : xs.Pairwise fun x y => p y = true → p x = true) : xs.take (xs.countP p) = xs.filter p := by
  induction xs with
  | nil => rfl
  | cons x xs ih =>
    obtain ⟨hx, hxs⟩ := List.pairwise_cons.mp h
    by_cases hp : p x = true
    · rw [List.countP_cons_of_pos hp, List.take_succ_cons, List.filter_cons_of_pos hp, ih hxs]
    · have hnone : ∀ y ∈ xs, ¬p y = true := fun y hy hpy => hp (hx y hy hpy)
      rw [List.countP_cons_of_neg hp, List.filter_cons_of_neg hp, List.countP_eq_zero.mpr hnone,
        List.filter_eq_nil_iff.mpr hnone, List.take_zero]

/-- As many of the sorted variants as are unqualified are the unqualified ones. -/
theorem take_sortedVariants (i : Item) :
    i.sortedVariants.take (i.variantCount - i.alternateCount) = i.variants.filter (·.isDefault) := by
  have hcount : i.variantCount - i.alternateCount = i.sortedVariants.countP (·.isDefault) := by
    rw [i.sortedVariants_perm.countP_eq, ← i.alternateCount_add_countP, Nat.add_sub_cancel_left]
  rw [hcount, take_countP_eq_filter i.sortedVariants_isDefault, filter_isDefault_sortedVariants]

/-- The oldest unqualified variant is the first one. -/
theorem head?_sortedVariants {v : Variant} (hv : i.defaultVariant? = some v) : i.sortedVariants.head? = some v := by
  have hhead : (i.sortedVariants.take (i.variantCount - i.alternateCount)).head? = some v := by
    rw [take_sortedVariants, List.head?_filter]
    exact hv
  rw [List.head?_take] at hhead
  exact (Option.ite_none_left_eq_some.mp hhead).2

/-- If any variant is unqualified, the first one is. -/
theorem isDefault_of_head? {v w : Variant} (hv : i.sortedVariants.head? = some v) (hw : w ∈ i.variants)
    (hdefault : w.isDefault) : v.isDefault := by
  obtain ⟨others, hsorted⟩ := List.head?_eq_some_iff.mp hv
  have hfirst := i.sortedVariants_isDefault
  have hmem := i.sortedVariants_perm.mem_iff.mpr hw
  rw [hsorted] at hfirst hmem
  obtain rfl | hw := List.mem_cons.mp hmem
  · exact hdefault
  · exact List.rel_of_pairwise_cons hfirst hw hdefault

/-- The first variant is unqualified exactly if the item has a default. -/
theorem isDefault_head? {v : Variant} (hv : i.sortedVariants.head? = some v) : v.isDefault = i.hasDefault := by
  have hmem : v ∈ i.variants := i.sortedVariants_perm.mem_iff.mp (List.mem_of_mem_head? hv)
  have hfilled : i.variants.isEmpty = false := List.isEmpty_eq_false_iff_exists_mem.mpr ⟨v, hmem⟩
  rw [Bool.eq_iff_iff, hasDefault, hfilled, Bool.false_or, List.any_eq_true]
  constructor
  · intro hdefault
    exact ⟨v, hmem, hdefault⟩
  · rintro ⟨w, hw, hdefault⟩
    exact isDefault_of_head? hv hw hdefault

/-- Sorted, the variants of an item are the same ones in ascending order of their configurations, each configuration in
the order of arrival, the unqualified variants in front and the default variant first. This rests on the order of
configurations: it is total, only equal configurations are equal in it, and those without qualifiers are its least. -/
theorem sortedVariants_default_first (i : Item) :
    i.sortedVariants.Perm i.variants ∧
    (i.sortedVariants.Pairwise fun v w => (compare v.configuration w.configuration).isLE) ∧
    (∀ c, i.sortedVariants.filter (·.configuration = c) = i.variants.filter (·.configuration = c)) ∧
    (i.sortedVariants.Pairwise fun v w => w.isDefault = true → v.isDefault = true) ∧
    i.sortedVariants.take (i.variantCount - i.alternateCount) = i.variants.filter (·.isDefault) ∧
    (∀ v, i.defaultVariant? = some v → i.sortedVariants.head? = some v) ∧
    (∀ a b : Configuration, compare a b = (compare b a).swap) ∧
    (∀ a b c : Configuration, (compare a b).isLE → (compare b c).isLE → (compare a c).isLE) ∧
    (∀ a b : Configuration, compare a b = .eq ↔ a = b) ∧
    ∀ c : Configuration, c.isDefault = true ↔ ∀ a, (compare c a).isLE := by
  refine ⟨i.sortedVariants_perm, i.sortedVariants_ascending, i.filter_sortedVariants, i.sortedVariants_isDefault,
    i.take_sortedVariants, fun _ => head?_sortedVariants, ?_, ?_, ?_, ?_⟩
  · intro a b
    exact Std.OrientedOrd.eq_swap
  · intro a b c hab hbc
    exact Std.TransOrd.isLE_trans hab hbc
  · intro a b
    exact Std.LawfulEqOrd.compare_eq_iff_eq
  · intro c
    exact Configuration.isDefault_iff_isLE

/-- Two unqualified logos among qualified ones, one of them with a language that no folder name can spell. -/
theorem sortedVariants_default_first_logo :
    let a : Variant := ⟨⟨1⟩, ⟨"drawable-land/logo.png"⟩, { orientation := some .landscape }⟩
    let b : Variant := ⟨⟨2⟩, ⟨"drawable/logo.png"⟩, {}⟩
    let c : Variant := ⟨⟨3⟩, ⟨"other/logo.png"⟩, { language := some "" }⟩
    let d : Variant := ⟨⟨4⟩, ⟨"more/drawable/logo.png"⟩, {}⟩
    let i : Item := ⟨"logo", [a, b, c, d], [false, false, false, false], rfl⟩
    i.defaultVariant? = some b ∧ i.sortedVariants.head? = some b ∧ i.sortedVariants.take 2 = [b, d] ∧
      (compare a.configuration c.configuration).isLE ∧ (compare b.configuration a.configuration).isLE ∧
      (compare b.configuration c.configuration).isLE := by
  intro a b c d i
  obtain ⟨-, -, -, -, htake, hhead, -, htrans, -, -⟩ := sortedVariants_default_first i
  have hdefault : i.defaultVariant? = some b := by decide
  have hac : (compare a.configuration c.configuration).isLE := by decide
  have hba : (compare b.configuration a.configuration).isLE := by decide
  exact ⟨hdefault, hhead b hdefault, htake, hac, hba, htrans _ _ _ hba hac⟩

end Item

end ResourceIndex
