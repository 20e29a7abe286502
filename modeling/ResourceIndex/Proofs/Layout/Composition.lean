import ResourceIndex.Proofs.Layout.Renaming
import ResourceIndex.Proofs.Table

/-!
# Copies of copies

Two renamings, one after the other, are one renaming: an id that the first one knows gets what the second one makes of
its new name, and any other id is left to the second one. So a copy of a copy is a copy, which leaves out what either of
them does. A renaming that keeps ids apart is undone by the renaming back, unless a reference has led to one of the new
names before.
-/

namespace ResourceIndex.Layout

namespace Renaming

variable {renames : Renaming} {id new : String}

/-- Both renamings, one after the other. -/
def andThen (first second : Renaming) : Renaming :=
  first.map (fun entry => (entry.1, second.nameOf entry.2)) ++ second

theorem lookup_andThen (first second : Renaming) (id : String) :
    (first.andThen second).lookup id = ((first.lookup id).map second.nameOf).or (second.lookup id) := by
  rw [andThen, List.lookup_append, lookup_map_values]

theorem nameOf_andThen (first second : Renaming) (id : String) :
    (first.andThen second).nameOf id = second.nameOf (first.nameOf id) := by
  rw [nameOf, lookup_andThen, nameOf.eq_def first]
  cases first.lookup id with
  | none => rfl
  | some new => rfl

/-- No two ids get one new name. -/
def IsInjective (renames : Renaming) : Prop :=
  ∀ id other new, renames.lookup id = some new → renames.lookup other = some new → id = other

theorem isInjective_of_nodup (h : (renames.map (·.2)).Nodup) : renames.IsInjective := fun _ _ _ hid hother =>
  congrArg Prod.fst (List.inj_on_of_nodup_map h (mem_of_lookup_eq_some hid) (mem_of_lookup_eq_some hother) rfl)

/-- The renaming back. -/
def inverse (renames : Renaming) : Renaming :=
  (renames.filter fun entry => renames.lookup entry.1 = some entry.2).map Prod.swap

theorem mem_inverse : (new, id) ∈ renames.inverse ↔ renames.lookup id = some new := by
  simp only [inverse, List.mem_map, List.mem_filter, decide_eq_true_eq, Prod.exists, Prod.swap_prod_mk, Prod.mk.injEq]
  constructor
  · rintro ⟨_, _, ⟨-, hlookup⟩, rfl, rfl⟩
    exact hlookup
  · exact fun hlookup => ⟨id, new, ⟨mem_of_lookup_eq_some hlookup, hlookup⟩, rfl, rfl⟩

theorem lookup_inverse_eq_some_iff (h : renames.IsInjective) :
    renames.inverse.lookup new = some id ↔ renames.lookup id = some new := by
  refine ⟨fun hlookup => mem_inverse.mp (mem_of_lookup_eq_some hlookup), fun hlookup => ?_⟩
  obtain ⟨other, hother⟩ := exists_lookup_eq_some (List.mem_map_of_mem (f := (·.1)) (mem_inverse.mpr hlookup))
  have hback : renames.lookup other = some new := mem_inverse.mp (mem_of_lookup_eq_some hother)
  rw [hother, h other id new hback hlookup]

/-- Renaming there and back keeps every id that is no new name. -/
theorem nameOf_inverse_nameOf (h : renames.IsInjective) (hid : ∀ other, renames.lookup other ≠ some id) :
    renames.inverse.nameOf (renames.nameOf id) = id := by
  cases hlookup : renames.lookup id with
  | none =>
    have hnone : renames.inverse.lookup id = none :=
      Option.eq_none_iff_forall_ne_some.mpr fun other hother => hid other ((lookup_inverse_eq_some_iff h).mp hother)
    simp only [nameOf, hlookup, Option.getD_none, hnone]
  | some new =>
    simp only [nameOf, hlookup, Option.getD_some, (lookup_inverse_eq_some_iff h).mpr hlookup]

end Renaming

/-! ### Copies -/

variable {attributes : List Attribute} {renames : Renaming}

theorem Attribute.rename_rename (first second : Renaming) (a : Attribute) :
    (a.rename first).rename second = a.rename (first.andThen second) := by
  cases hvalue : IdReference.ofValue? a.value with
  | none => rw [rename_of_ofValue?_eq_none hvalue, rename_of_ofValue?_eq_none hvalue, rename_of_ofValue?_eq_none hvalue]
  | some r =>
    have hfirst : IdReference.ofValue? (a.rename first).value = some { r with name := first.nameOf r.name } := by
      rw [value_rename hvalue, IdReference.ofValue?_toValue]
    have hall : ((a.rename first).rename second).value = (a.rename (first.andThen second)).value := by
      rw [value_rename hfirst, value_rename hvalue, Renaming.nameOf_andThen]
    rw [Attribute.mk.injEq]
    exact ⟨by simp, hall⟩

theorem copyAttributes_copyAttributes (excluded others : List AttributeName) (first second : Renaming)
    (attributes : List Attribute) :
    copyAttributes others second (copyAttributes excluded first attributes) =
      copyAttributes (excluded ++ others) (first.andThen second) attributes := by
  have hkept (a : Attribute) :
      (decide ((a.rename first).name ∉ others) && decide (a.name ∉ excluded)) = decide (a.name ∉ excluded ++ others) := by
    rw [Attribute.name_rename, ← Bool.decide_and, decide_eq_decide, List.mem_append, not_or, and_comm]
  rw [copyAttributes, copyAttributes, copyAttributes, List.filter_map, List.map_map, List.filter_filter]
  simp only [Function.comp_def, Attribute.rename_rename, hkept]

/-- A copy in which every id that is referred to keeps its name is what it was copied from. -/
theorem copyAttributes_nil_eq_self
    (h : ∀ a ∈ attributes, ∀ r, IdReference.ofValue? a.value = some r → renames.nameOf r.name = r.name) :
    copyAttributes [] renames attributes = attributes := by
  have hself : ∀ a ∈ attributes, a.rename renames = a := by
    intro a ha
    cases hvalue : IdReference.ofValue? a.value with
    | none => exact Attribute.rename_of_ofValue?_eq_none hvalue
    | some r => exact Attribute.rename_of_nameOf_eq hvalue (h a ha r hvalue)
  rw [copyAttributes_nil, List.map_congr_left hself, List.map_id']

/-- A copy of a copy is the copy without the attributes that either leaves out, under both renamings, one after the
other; a copy that leaves out and renames nothing is what it was copied from; and a renaming that keeps ids apart is
undone by the renaming back if none of its new names was referred to. -/
theorem copyAttributes_composes (excluded others : List AttributeName) (first second : Renaming)
    (attributes : List Attribute) :
    (copyAttributes others second (copyAttributes excluded first attributes) =
        copyAttributes (excluded ++ others) (first.andThen second) attributes ∧
      ∀ id, (first.andThen second).lookup id = ((first.lookup id).map second.nameOf).or (second.lookup id)) ∧
    copyAttributes [] [] attributes = attributes ∧
    (first.IsInjective →
      (∀ a ∈ attributes, ∀ r, IdReference.ofValue? a.value = some r → ∀ id, first.lookup id ≠ some r.name) →
      copyAttributes [] first.inverse (copyAttributes [] first attributes) = attributes ∧
        ∀ id new, first.inverse.lookup new = some id ↔ first.lookup id = some new) := by
  refine ⟨⟨copyAttributes_copyAttributes excluded others first second attributes, Renaming.lookup_andThen first second⟩,
    copyAttributes_nil_nil attributes, fun hinjective hnew => ⟨?_, fun _ _ => Renaming.lookup_inverse_eq_some_iff hinjective⟩⟩
  rw [copyAttributes_copyAttributes]
  refine copyAttributes_nil_eq_self fun a ha r hvalue => ?_
  rw [Renaming.nameOf_andThen, Renaming.nameOf_inverse_nameOf hinjective (hnew a ha r hvalue)]

/-- Two ids are swapped for names that look like references themselves, and back. -/
theorem copyAttributes_composes_marks :
    let first : Renaming := [("ok", "@id/title"), ("title", "@+id/ok")]
    let attributes : List Attribute := [⟨.id, "@+id/ok"⟩, ⟨⟨some platformUri, "layout_below"⟩, "@id/title"⟩,
      ⟨⟨none, "hint"⟩, "@id"⟩]
    first.IsInjective ∧
      (∀ a ∈ attributes, ∀ r, IdReference.ofValue? a.value = some r → ∀ id, first.lookup id ≠ some r.name) ∧
      copyAttributes [] first attributes = [⟨.id, "@+id/@id/title"⟩,
        ⟨⟨some platformUri, "layout_below"⟩, "@id/@+id/ok"⟩, ⟨⟨none, "hint"⟩, "@id"⟩] ∧
      copyAttributes [] first.inverse (copyAttributes [] first attributes) = attributes := by
  intro first attributes
  have hinjective : first.IsInjective := Renaming.isInjective_of_nodup (by decide)
  have hnames : ∀ a ∈ attributes, ∀ r ∈ IdReference.ofValue? a.value, r.name ∉ first.map (·.2) := by decide
  have hnew : ∀ a ∈ attributes, ∀ r, IdReference.ofValue? a.value = some r → ∀ id, first.lookup id ≠ some r.name :=
    fun a ha r hvalue id hlookup => hnames a ha r hvalue (List.mem_map_of_mem (mem_of_lookup_eq_some hlookup))
  obtain ⟨-, -, hback⟩ := copyAttributes_composes [] [] first [] attributes
  exact ⟨hinjective, hnew, by decide, (hback hinjective hnew).1⟩

end ResourceIndex.Layout
