import ResourceIndex.Layout.Attribute

/-!
# What renaming does to an element

A renaming acts on an attribute through the id that it refers to and through nothing else: the reference keeps its mark
and gets the new name of its id, and a value that refers to no id stays as it is. So a copy declares the new names of
ids that its element declares.
-/

namespace ResourceIndex.Layout

theorem IdReference.toValue_of_ofValue? {value : String} {r : IdReference} (h : ofValue? value = some r) :
    r.toValue = value := by
  apply String.toList_inj.mp
  rw [toValue, String.toList_append]
  rw [ofValue?] at h
  split at h
  next n hn =>
    obtain rfl := Option.some.inj h
    rw [String.toList_ofList, ← Text.isPrefixOf?_eq_some_iff.mp hn]
  next =>
    obtain ⟨n, hn, rfl⟩ := Option.map_eq_some_iff.mp h
    rw [String.toList_ofList, ← Text.isPrefixOf?_eq_some_iff.mp hn]

namespace Renaming

/-- The name of an id behind a renaming. -/
def nameOf (renames : Renaming) (id : String) : String :=
  (renames.lookup id).getD id

theorem nameOf_append (own shared : Renaming) (id : String) :
    nameOf (own ++ shared) id = ((own.lookup id).or (shared.lookup id)).getD id := by
  rw [nameOf, List.lookup_append]

theorem nameOf_append_of_lookup_eq_none {own shared : Renaming} {id : String} (h : own.lookup id = none) :
    nameOf (own ++ shared) id = nameOf shared id := by
  rw [nameOf_append, h, Option.none_or, nameOf]

end Renaming

/-! ### Attributes -/

namespace Attribute

variable {renames : Renaming} {a : Attribute}

@[simp] theorem name_rename : (a.rename renames).name = a.name := by
  rw [rename]
  split
  next => rfl
  next => split <;> rfl

theorem rename_of_ofValue?_eq_none (h : IdReference.ofValue? a.value = none) : a.rename renames = a := by
  rw [rename, h]

theorem value_rename {r : IdReference} (h : IdReference.ofValue? a.value = some r) :
    (a.rename renames).value = { r with name := renames.nameOf r.name }.toValue := by
  simp only [rename, h, Renaming.nameOf]
  cases renames.lookup r.name with
  | none => exact (IdReference.toValue_of_ofValue? h).symm
  | some new => rfl

/-- A reference whose id keeps its name is not touched. -/
theorem rename_of_nameOf_eq {r : IdReference} (hvalue : IdReference.ofValue? a.value = some r)
    (hname : renames.nameOf r.name = r.name) : a.rename renames = a := by
  simp only [rename, hvalue]
  cases hlookup : renames.lookup r.name with
  | none => rfl
  | some new =>
    obtain rfl : new = r.name := by simpa [Renaming.nameOf, hlookup] using hname
    simp only [IdReference.toValue_of_ofValue? hvalue]

theorem rename_nil (a : Attribute) : a.rename [] = a := by
  rw [rename]
  split <;> rfl

theorem declaredId?_rename : (a.rename renames).declaredId? = a.declaredId?.map renames.nameOf := by
  rw [declaredId?, declaredId?, name_rename]
  split
  next =>
    cases h : IdReference.ofValue? a.value with
    | none => rw [rename_of_ofValue?_eq_none h, h]; rfl
    | some r => rw [value_rename h, IdReference.ofValue?_toValue]; rfl
  next => rfl

end Attribute

/-! ### Elements -/

/-- The ids that an element declares, in the order of its attributes. -/
def declaredIds (attributes : List Attribute) : List String :=
  attributes.filterMap Attribute.declaredId?

theorem mem_declaredIds {attributes : List Attribute} {id : String} :
    id ∈ declaredIds attributes ↔ ∃ a ∈ attributes, a.declaredId? = some id :=
  List.mem_filterMap

theorem copyAttributes_nil (renames : Renaming) (attributes : List Attribute) :
    copyAttributes [] renames attributes = attributes.map (·.rename renames) := by
  have hall : attributes.filter (fun a => a.name ∉ ([] : List AttributeName)) = attributes :=
    List.filter_eq_self.mpr fun a _ => decide_eq_true (List.not_mem_nil)
  rw [copyAttributes, hall]

theorem copyAttributes_nil_nil (attributes : List Attribute) : copyAttributes [] [] attributes = attributes := by
  rw [copyAttributes_nil, List.map_congr_left fun a _ => a.rename_nil, List.map_id']

theorem declaredIds_map_rename (renames : Renaming) (attributes : List Attribute) :
    declaredIds (attributes.map (·.rename renames)) = (declaredIds attributes).map renames.nameOf := by
  rw [declaredIds, declaredIds, List.filterMap_map, List.map_filterMap]
  exact congrArg (attributes.filterMap ·) (funext fun a => Attribute.declaredId?_rename)

/-- Without any attributes excluded, a copy declares the new names of its element's ids. -/
theorem declaredIds_copyAttributes_nil (renames : Renaming) (attributes : List Attribute) :
    declaredIds (copyAttributes [] renames attributes) = (declaredIds attributes).map renames.nameOf := by
  rw [copyAttributes_nil, declaredIds_map_rename]

theorem declaredIds_copyAttributes_sublist (excluded : List AttributeName) (renames : Renaming)
    (attributes : List Attribute) :
    (declaredIds (copyAttributes excluded renames attributes)).Sublist
      ((declaredIds attributes).map renames.nameOf) := by
  rw [copyAttributes, declaredIds_map_rename]
  exact (List.filter_sublist.filterMap _).map _

end ResourceIndex.Layout
