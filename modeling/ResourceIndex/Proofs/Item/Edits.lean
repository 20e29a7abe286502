import ResourceIndex.Proofs.Item.Contributions

/-!
# Edits of items

An item keeps its variants and their flags in two lists. However it is edited, it behaves as the one list of its
contributions: a new contribution goes behind all others, a removal takes the oldest one of a source out, together with
its own flag, and a reset leaves none. Everything that an item tells can be read off that list.
-/

namespace ResourceIndex

/-- A change of an item, as it is asked for. -/
inductive Edit where
  | add (v : Variant) (isInline : Bool)
  | remove (v : Variant)
  | reset

namespace Item

/-- Does what is asked for; of a removal it is told whether the item had a variant of that source. -/
def edit (i : Item) : Edit → Option Bool × Item
  | .add v isInline => (none, i.add v isInline)
  | .remove v => (some (i.remove? v.source).isSome, i.remove v.source)
  | .reset => (none, i.reset)

/-- The item behind a sequence of edits. -/
def editAll (i : Item) (edits : List Edit) : Item :=
  edits.foldl (fun i e => (i.edit e).2) i

end Item

namespace Contribution

/-- The edit of a list: behind all others, the oldest of the source out, or everything out. -/
def edit (cs : List Contribution) : Edit → Option Bool × List Contribution
  | .add v isInline => (none, cs ++ [⟨v, isInline⟩])
  | .remove v => (some (cs.any (·.variant.source = v.source)), cs.eraseP (·.variant.source = v.source))
  | .reset => (none, [])

/-- The list behind a sequence of edits. -/
def editAll (cs : List Contribution) (edits : List Edit) : List Contribution :=
  edits.foldl (fun cs e => (edit cs e).2) cs

end Contribution

namespace Item

/-- The two lists of the item are the two sides of the contributions, and every answer of the item is the answer that
the contributions give. -/
structure Reads (i : Item) (cs : List Contribution) : Prop where
  variants : i.variants = cs.map (·.variant)
  inlineFlags : i.inlineFlags = cs.map (·.isInline)
  variantCount : i.variantCount = cs.length
  hasNoVariants : i.hasNoVariants = true ↔ cs = []
  isDeclaredInline : i.isDeclaredInline = true ↔ cs ≠ [] ∧ ∀ c ∈ cs, c.isInline = true
  alternateCount : i.alternateCount + cs.countP (·.variant.isDefault) = i.variantCount
  hasAlternates : i.hasAlternates = true ↔ 0 < i.alternateCount
  hasDefault : i.hasDefault = true ↔ i.variantCount = 0 ∨ i.alternateCount < i.variantCount
  defaultVariant? : i.defaultVariant?.isSome = true ↔ i.hasDefault = true ∧ cs ≠ []
  isEditableDirectly : i.isEditableDirectly = true ↔ i.alternateCount = 0 ∧ (cs = [] ∨ ∃ c ∈ cs, c.isInline = false)

/-! ### Questions -/

theorem length_contributions (i : Item) : i.contributions.length = i.variantCount := by
  rw [variantCount, ← map_variant_contributions, List.length_map]

theorem countP_contributions (i : Item) (p : Variant → Bool) :
    i.contributions.countP (fun c => p c.variant) = i.variants.countP p := by
  rw [← map_variant_contributions, List.countP_map]
  rfl

theorem isDeclaredInline_iff (i : Item) :
    i.isDeclaredInline = true ↔ i.contributions ≠ [] ∧ ∀ c ∈ i.contributions, c.isInline = true := by
  rw [isDeclaredInline, ← map_isInline_contributions, Bool.and_eq_true, Bool.not_eq_true', List.isEmpty_eq_false_iff,
    ne_eq, List.map_eq_nil_iff, List.all_eq_true, List.forall_mem_map]
  rfl

theorem hasAlternates_iff (i : Item) : i.hasAlternates = true ↔ 0 < i.alternateCount := by
  rw [hasAlternates, alternateCount, List.any_eq_true, List.countP_pos_iff]

/-- Some variant is unqualified exactly if not all of them are alternates. -/
theorem any_isDefault_iff (i : Item) : i.variants.any (·.isDefault) = true ↔ i.alternateCount < i.variantCount := by
  rw [List.any_eq_true, ← List.countP_pos_iff, ← i.alternateCount_add_countP, Nat.lt_add_right_iff_pos]

theorem hasDefault_iff (i : Item) : i.hasDefault = true ↔ i.variantCount = 0 ∨ i.alternateCount < i.variantCount := by
  rw [hasDefault, Bool.or_eq_true, any_isDefault_iff, List.isEmpty_iff, ← List.length_eq_zero_iff]
  rfl

theorem isSome_defaultVariant?_iff (i : Item) :
    i.defaultVariant?.isSome = true ↔ i.hasDefault = true ∧ i.contributions ≠ [] := by
  rw [defaultVariant?, List.find?_isSome, ← List.any_eq_true, any_isDefault_iff, hasDefault_iff, ne_eq,
    ← List.length_eq_zero_iff, length_contributions]
  omega

theorem isEditableDirectly_iff (i : Item) :
    i.isEditableDirectly = true ↔
      i.alternateCount = 0 ∧ (i.contributions = [] ∨ ∃ c ∈ i.contributions, c.isInline = false) := by
  have hinline : i.isDeclaredInline = false ↔ i.contributions = [] ∨ ∃ c ∈ i.contributions, c.isInline = false := by
    rw [← Bool.not_eq_true, isDeclaredInline_iff]
    grind
  have halternates : i.hasAlternates = false ↔ i.alternateCount = 0 := by
    rw [← Bool.not_eq_true, hasAlternates_iff]
    omega
  rw [isEditableDirectly, Bool.and_eq_true, Bool.not_eq_true', Bool.not_eq_true', hinline, halternates, and_comm]

/-- An item tells what its contributions tell. -/
theorem reads_contributions (i : Item) : i.Reads i.contributions where
  variants := i.map_variant_contributions.symm
  inlineFlags := i.map_isInline_contributions.symm
  variantCount := i.length_contributions.symm
  hasNoVariants := i.hasNoVariants_iff
  isDeclaredInline := i.isDeclaredInline_iff
  alternateCount := by rw [i.countP_contributions, i.alternateCount_add_countP]
  hasAlternates := i.hasAlternates_iff
  hasDefault := i.hasDefault_iff
  defaultVariant? := i.isSome_defaultVariant?_iff
  isEditableDirectly := i.isEditableDirectly_iff

/-! ### Edits -/

theorem isSome_remove? (i : Item) (source : SourceId) :
    (i.remove? source).isSome = i.contributions.any (·.variant.source = source) := by
  rw [remove?, Option.isSome_map, List.findIdx?_isSome, ← map_variant_contributions, List.any_map]
  rfl

theorem name_edit (i : Item) (e : Edit) : (i.edit e).2.name = i.name := by
  cases e with
  | add v isInline => exact i.name_add v isInline
  | remove v => exact i.name_remove v.source
  | reset => exact i.name_reset

/-- An edit of an item is the edit of its contributions, with the same answer. -/
theorem edit_contributions (i : Item) (e : Edit) :
    ((i.edit e).1, (i.edit e).2.contributions) = Contribution.edit i.contributions e := by
  cases e with
  | add v isInline => rw [edit, contributions_add, Contribution.edit]
  | remove v => rw [edit, contributions_remove, isSome_remove?, Contribution.edit]
  | reset => rw [edit, contributions_reset, Contribution.edit]

theorem name_editAll (i : Item) (edits : List Edit) : (i.editAll edits).name = i.name := by
  induction edits generalizing i with
  | nil => rfl
  | cons e edits ih => exact (ih (i.edit e).2).trans (i.name_edit e)

theorem contributions_editAll (i : Item) (edits : List Edit) :
    (i.editAll edits).contributions = Contribution.editAll i.contributions edits := by
  induction edits generalizing i with
  | nil => rfl
  | cons e edits ih =>
    refine (ih (i.edit e).2).trans ?_
    rw [Contribution.editAll, Contribution.editAll, List.foldl_cons, ← edit_contributions]

/-- Behind every sequence of edits an item reads as the list of contributions that has been edited in the same way, and
answers any next edit as that list does. -/
theorem editAll_reads (i : Item) (edits : List Edit) :
    (i.editAll edits).name = i.name ∧
      (i.editAll edits).Reads (Contribution.editAll i.contributions edits) ∧
      ∀ e, ((i.editAll edits).edit e).1 = (Contribution.edit (Contribution.editAll i.contributions edits) e).1 := by
  rw [← contributions_editAll]
  refine ⟨i.name_editAll edits, (i.editAll edits).reads_contributions, ?_⟩
  intro e
  rw [← edit_contributions]

-- A removal goes by the source, so here it takes the older of two different variants, with its own flag.
example :
    let old : Variant := ⟨⟨1⟩, ⟨"layout/main.xml"⟩, {}⟩
    let young : Variant := ⟨⟨1⟩, ⟨"layout-land/main.xml"⟩, { orientation := some .landscape }⟩
    ((Item.named "ok").editAll [.add old true, .add young false, .remove young]).contributions = [⟨young, false⟩] := by
  decide

end Item

end ResourceIndex
