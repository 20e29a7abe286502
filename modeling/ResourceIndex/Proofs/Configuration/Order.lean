import ResourceIndex.Proofs.Configuration.RoundTrip

/-!
# The order of configurations

Configurations are compared dimension by dimension, and in each dimension what is open comes before what is set. This is
a linear order, because the order of the values is one in every dimension: only equal configurations compare equal, and
where two differ, the first dimension in which they do decides. The configuration that sets nothing comes before every
other one.
-/

namespace ResourceIndex

open Std

/-! ### Values -/

/-- A comparison by numbers is a linear preorder. -/
theorem transOrd_of_index {α : Type} [Ord α] (index : α → Nat)
    (h : ∀ a b, compare a b = compare (index a) (index b)) : TransOrd α where
  eq_swap {a b} := by rw [h, h]; exact OrientedOrd.eq_swap
  isLE_trans {a b c} hab hbc := by
    rw [h] at hab hbc ⊢
    exact TransOrd.isLE_trans hab hbc

instance : TransOrd LayoutDirection := transOrd_of_index LayoutDirection.ctorIdx fun _ _ => rfl
instance : TransOrd ScreenSize := transOrd_of_index ScreenSize.ctorIdx fun _ _ => rfl
instance : TransOrd ScreenRatio := transOrd_of_index ScreenRatio.ctorIdx fun _ _ => rfl
instance : TransOrd Orientation := transOrd_of_index Orientation.ctorIdx fun _ _ => rfl
instance : TransOrd UiMode := transOrd_of_index UiMode.ctorIdx fun _ _ => rfl
instance : TransOrd NightMode := transOrd_of_index NightMode.ctorIdx fun _ _ => rfl
instance : TransOrd Density := transOrd_of_index Density.ctorIdx fun _ _ => rfl
instance : TransOrd Touchscreen := transOrd_of_index Touchscreen.ctorIdx fun _ _ => rfl
instance : TransOrd KeyboardState := transOrd_of_index KeyboardState.ctorIdx fun _ _ => rfl
instance : TransOrd TextInput := transOrd_of_index TextInput.ctorIdx fun _ _ => rfl
instance : TransOrd NavigationState := transOrd_of_index NavigationState.ctorIdx fun _ _ => rfl
instance : TransOrd Navigation := transOrd_of_index Navigation.ctorIdx fun _ _ => rfl

/-- A comparison by numbers that tell the values apart has no ties. -/
theorem lawfulEqOrd_of_index {α : Type} [Ord α] [ReflOrd α] {index : α → Nat} {ofIndex : Nat → α}
    (hindex : ∀ a, ofIndex (index a) = a) (h : ∀ a b, compare a b = compare (index a) (index b)) : LawfulEqOrd α where
  eq_of_compare {a b} hab := by
    rw [h] at hab
    rw [← hindex a, ← hindex b, LawfulEqOrd.eq_of_compare hab]

instance : LawfulEqOrd LayoutDirection := lawfulEqOrd_of_index LayoutDirection.ofNat_ctorIdx fun _ _ => rfl
instance : LawfulEqOrd ScreenSize := lawfulEqOrd_of_index ScreenSize.ofNat_ctorIdx fun _ _ => rfl
instance : LawfulEqOrd ScreenRatio := lawfulEqOrd_of_index ScreenRatio.ofNat_ctorIdx fun _ _ => rfl
instance : LawfulEqOrd Orientation := lawfulEqOrd_of_index Orientation.ofNat_ctorIdx fun _ _ => rfl
instance : LawfulEqOrd UiMode := lawfulEqOrd_of_index UiMode.ofNat_ctorIdx fun _ _ => rfl
instance : LawfulEqOrd NightMode := lawfulEqOrd_of_index NightMode.ofNat_ctorIdx fun _ _ => rfl
instance : LawfulEqOrd Density := lawfulEqOrd_of_index Density.ofNat_ctorIdx fun _ _ => rfl
instance : LawfulEqOrd Touchscreen := lawfulEqOrd_of_index Touchscreen.ofNat_ctorIdx fun _ _ => rfl
instance : LawfulEqOrd KeyboardState := lawfulEqOrd_of_index KeyboardState.ofNat_ctorIdx fun _ _ => rfl
instance : LawfulEqOrd TextInput := lawfulEqOrd_of_index TextInput.ofNat_ctorIdx fun _ _ => rfl
instance : LawfulEqOrd NavigationState := lawfulEqOrd_of_index NavigationState.ofNat_ctorIdx fun _ _ => rfl
instance : LawfulEqOrd Navigation := lawfulEqOrd_of_index Navigation.ofNat_ctorIdx fun _ _ => rfl

theorem ScreenDimension.compare_eq :
    (compare : ScreenDimension → ScreenDimension → Ordering) = compareLex (compareOn large) (compareOn small) := by
  funext a b
  exact congrArg ((compare a.large b.large).then ·) Ordering.then_eq

instance : TransOrd ScreenDimension := by
  rw [TransOrd, ScreenDimension.compare_eq]
  infer_instance

instance : LawfulEqOrd ScreenDimension where
  eq_of_compare {a b} h := by
    rw [ScreenDimension.compare_eq, compareLex_eq_eq] at h
    obtain ⟨large, small⟩ := a
    obtain ⟨hlarge, hsmall⟩ := h
    obtain rfl : large = b.large := LawfulEqOrd.eq_of_compare hlarge
    obtain rfl : small = b.small := LawfulEqOrd.eq_of_compare hsmall
    rfl

instance transCmp_compareValues (d : Dimension) : TransCmp d.compareValues := by
  cases d
  case countryCode | networkCode => exact inferInstanceAs (TransOrd UInt16)
  case language | region => exact inferInstanceAs (TransOrd String)
  case smallestWidth | screenWidth | screenHeight | version => exact inferInstanceAs (TransOrd UInt32)
  case layoutDirection => exact inferInstanceAs (TransOrd LayoutDirection)
  case screenSize => exact inferInstanceAs (TransOrd ScreenSize)
  case screenRatio => exact inferInstanceAs (TransOrd ScreenRatio)
  case orientation => exact inferInstanceAs (TransOrd Orientation)
  case uiMode => exact inferInstanceAs (TransOrd UiMode)
  case nightMode => exact inferInstanceAs (TransOrd NightMode)
  case density => exact inferInstanceAs (TransOrd Density)
  case touchscreen => exact inferInstanceAs (TransOrd Touchscreen)
  case keyboardState => exact inferInstanceAs (TransOrd KeyboardState)
  case textInput => exact inferInstanceAs (TransOrd TextInput)
  case navigationState => exact inferInstanceAs (TransOrd NavigationState)
  case navigation => exact inferInstanceAs (TransOrd Navigation)
  case screenDimension => exact inferInstanceAs (TransOrd ScreenDimension)

instance lawfulEqCmp_compareValues (d : Dimension) : LawfulEqCmp d.compareValues := by
  cases d
  case countryCode | networkCode => exact inferInstanceAs (LawfulEqOrd UInt16)
  case language | region => exact inferInstanceAs (LawfulEqOrd String)
  case smallestWidth | screenWidth | screenHeight | version => exact inferInstanceAs (LawfulEqOrd UInt32)
  case layoutDirection => exact inferInstanceAs (LawfulEqOrd LayoutDirection)
  case screenSize => exact inferInstanceAs (LawfulEqOrd ScreenSize)
  case screenRatio => exact inferInstanceAs (LawfulEqOrd ScreenRatio)
  case orientation => exact inferInstanceAs (LawfulEqOrd Orientation)
  case uiMode => exact inferInstanceAs (LawfulEqOrd UiMode)
  case nightMode => exact inferInstanceAs (LawfulEqOrd NightMode)
  case density => exact inferInstanceAs (LawfulEqOrd Density)
  case touchscreen => exact inferInstanceAs (LawfulEqOrd Touchscreen)
  case keyboardState => exact inferInstanceAs (LawfulEqOrd KeyboardState)
  case textInput => exact inferInstanceAs (LawfulEqOrd TextInput)
  case navigationState => exact inferInstanceAs (LawfulEqOrd NavigationState)
  case navigation => exact inferInstanceAs (LawfulEqOrd Navigation)
  case screenDimension => exact inferInstanceAs (LawfulEqOrd ScreenDimension)

namespace Configuration

/-! ### Dimension by dimension -/

theorem compareAt_eq (d : Dimension) (a b : Configuration) :
    letI : Ord d.Value := ⟨d.compareValues⟩
    compareAt d a b = compare (a.get d) (b.get d) := by
  rw [compareAt]
  cases a.get d <;> cases b.get d <;> rfl

instance transCmp_compareAt (d : Dimension) : TransCmp (compareAt d) := by
  let : Ord d.Value := ⟨d.compareValues⟩
  have : TransOrd d.Value := transCmp_compareValues d
  have heq : compareAt d = compareOn fun c => c.get d := by
    funext a b
    exact compareAt_eq d a b
  rw [heq]
  infer_instance

/-- In one dimension, only configurations that agree there compare equal. -/
theorem compareAt_eq_eq_iff {d : Dimension} {a b : Configuration} : compareAt d a b = .eq ↔ a.get d = b.get d := by
  let : Ord d.Value := ⟨d.compareValues⟩
  have : LawfulEqOrd d.Value := lawfulEqCmp_compareValues d
  rw [compareAt_eq]
  exact LawfulEqOrd.compare_eq_iff_eq

/-- Compares in some dimensions; the first one with a difference decides. -/
def compareIn (dims : List Dimension) (a b : Configuration) : Ordering :=
  dims.foldr (fun d rest => (compareAt d a b).then rest) .eq

theorem compare_eq_compareIn (a b : Configuration) : compare a b = compareIn Dimension.all a b := by
  rfl

theorem compareIn_cons (d : Dimension) (dims : List Dimension) :
    compareIn (d :: dims) = compareLex (compareAt d) (compareIn dims) := by
  rfl

theorem transCmp_compareIn (dims : List Dimension) : TransCmp (compareIn dims) := by
  induction dims with
  | nil => exact { eq_swap := rfl, isLE_trans := fun _ _ => rfl }
  | cons d dims ih =>
    rw [compareIn_cons]
    infer_instance

instance : TransOrd Configuration :=
  transCmp_compareIn Dimension.all

theorem isLE_total (a b : Configuration) : ((compare a b).isLE || (compare b a).isLE) = true := by
  rw [OrientedOrd.eq_swap (a := b)]
  cases compare a b <;> rfl

theorem compareIn_eq_eq_iff {dims : List Dimension} {a b : Configuration} :
    compareIn dims a b = .eq ↔ ∀ d ∈ dims, a.get d = b.get d := by
  induction dims with
  | nil => exact iff_of_true rfl (List.forall_mem_nil _)
  | cons d dims ih => rw [compareIn_cons, compareLex_eq_eq, compareAt_eq_eq_iff, ih, List.forall_mem_cons]

instance : LawfulEqOrd Configuration where
  eq_of_compare {a b} h := by
    have hagree := compareIn_eq_eq_iff.mp ((compare_eq_compareIn a b).symm.trans h)
    exact ext_get fun d => hagree d d.mem_all

/-- The first of the dimensions in which two configurations differ decides how they compare in all of them. -/
theorem exists_first_difference {dims : List Dimension} {a b : Configuration} (h : compareIn dims a b ≠ .eq) :
    ∃ before d after, dims = before ++ d :: after ∧ (∀ e ∈ before, a.get e = b.get e) ∧ a.get d ≠ b.get d ∧
      compareIn dims a b = compareAt d a b := by
  induction dims with
  | nil => exact absurd rfl h
  | cons d dims ih =>
    rw [compareIn_cons, compareLex] at h ⊢
    by_cases hd : a.get d = b.get d
    · rw [compareAt_eq_eq_iff.mpr hd, Ordering.eq_then] at h ⊢
      obtain ⟨before, e, after, rfl, hbefore, he, hcompare⟩ := ih h
      exact ⟨d :: before, e, after, rfl, List.forall_mem_cons.mpr ⟨hd, hbefore⟩, he, hcompare⟩
    · refine ⟨[], d, dims, rfl, List.forall_mem_nil _, hd, ?_⟩
      cases hcompare : compareAt d a b with
      | eq => exact absurd (compareAt_eq_eq_iff.mp hcompare) hd
      | lt => rfl
      | gt => rfl

/-! ### The least configuration -/

theorem compareAt_empty (d : Dimension) (c : Configuration) :
    compareAt d empty c = if c.get d = none then .eq else .lt := by
  rw [compareAt, get_empty]
  cases c.get d <;> rfl

theorem compareIn_empty (dims : List Dimension) (c : Configuration) :
    compareIn dims empty c = if ∀ d ∈ dims, c.get d = none then .eq else .lt := by
  induction dims with
  | nil => rfl
  | cons d dims ih =>
    rw [compareIn_cons, compareLex, compareAt_empty, ih]
    by_cases hd : c.get d = none
    · simp [hd]
    · simp [hd]

theorem compare_empty (c : Configuration) : compare empty c = if c = empty then .eq else .lt := by
  have hopen : (∀ d ∈ Dimension.all, c.get d = none) ↔ c = empty := by
    constructor
    · intro h
      exact ext_get fun d => (h d (Dimension.mem_all d)).trans (get_empty d).symm
    · rintro rfl d -
      exact get_empty d
  rw [compare_eq_compareIn, compareIn_empty]
  simp only [hopen]

/-- Nothing but the configuration that sets nothing stands before it. -/
theorem eq_empty_of_isLE {c : Configuration} (h : (compare c empty).isLE) : c = empty := by
  by_contra hne
  have hlt : compare empty c = .lt := by rw [compare_empty, if_neg hne]
  rw [OrientedOrd.eq_swap, hlt] at h
  contradiction

theorem isDefault_iff {c : Configuration} : c.isDefault = true ↔ c = empty := by
  rw [isDefault, qualifierCount, beq_iff_eq, List.length_eq_zero_iff, segments_eq_nil_iff]

/-- A configuration without qualifiers is one before which no other stands. -/
theorem isDefault_iff_isLE {c : Configuration} : c.isDefault = true ↔ ∀ a, (compare c a).isLE = true := by
  rw [isDefault_iff]
  constructor
  · intro hc a
    rw [hc, compare_empty]
    split <;> rfl
  · intro hleast
    exact eq_empty_of_isLE (hleast empty)

end Configuration

end ResourceIndex
