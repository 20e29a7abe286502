import Mathlib.Data.Finset.Card
import Mathlib.Data.List.Sort
import ResourceIndex.Declaration.Merged

/-!
# What merging keeps

A list of declarations says of every resource whether it is declared, and whether inline. Merging keeps that answer for
every resource, and leaves a list in strictly ascending order, in which each resource stands once; the two facts
together determine the merged list.
-/

namespace ResourceIndex

/-- Lists in strictly ascending order are equal if they have the same members. -/
theorem eq_of_pairwise_lt {α : Type} {cmp : α → α → Ordering} [Std.OrientedCmp cmp] {l m : List α}
    (hl : l.Pairwise fun a b => cmp a b = .lt) (hm : m.Pairwise fun a b => cmp a b = .lt)
    (hmem : ∀ a, a ∈ l ↔ a ∈ m) : l = m := by
  have hirrefl : Std.Irrefl fun a b => cmp a b = .lt := ⟨fun _ hlt => absurd hlt (Std.OrientedCmp.not_lt_of_lt hlt)⟩
  have hantisymm : Std.Antisymm fun a b => cmp a b = .lt :=
    ⟨fun _ _ hlt hgt => absurd hgt (Std.OrientedCmp.not_lt_of_lt hlt)⟩
  exact hl.eq_of_mem_iff hm hmem

namespace Declaration

/-! ### Order of resources -/

instance : Std.TransCmp compareResource :=
  inferInstanceAs (Std.TransCmp (compareLex (compareOn Declaration.type) (compareOn Declaration.name)))

theorem compareResource_eq_iff {a b : Declaration} :
    compareResource a b = .eq ↔ a.type = b.type ∧ a.name = b.name := by
  simp [compareResource, Ordering.then_eq_eq]

/-- The declarations stand in strictly ascending order of type and name. -/
def Ascending (ds : List Declaration) : Prop :=
  ds.Pairwise fun a b => compareResource a b = .lt

theorem forall_mem_mergeInto {p : Declaration → Prop} {d : Declaration} {ds : List Declaration} (hd : p d)
    (hds : ∀ e ∈ ds, p e) (hinline : ∀ e ∈ ds, ∀ b, p { e with isInline := b }) : ∀ e ∈ mergeInto d ds, p e := by
  induction ds with
  | nil => simpa [mergeInto] using hd
  | cons e es ih =>
    simp only [List.forall_mem_cons] at hds hinline
    rw [mergeInto]
    split
    · simpa only [List.forall_mem_cons] using ⟨hd, hds⟩
    · simpa only [List.forall_mem_cons] using ⟨hinline.1 _, hds.2⟩
    · simpa only [List.forall_mem_cons] using ⟨hds.1, ih hds.2 hinline.2⟩

theorem mergeInto_ascending (d : Declaration) {ds : List Declaration} (h : Ascending ds) :
    Ascending (mergeInto d ds) := by
  induction ds with
  | nil => exact List.pairwise_singleton _ _
  | cons e es ih =>
    obtain ⟨hhead, htail⟩ := List.pairwise_cons.mp h
    rw [mergeInto]
    split
    next hlt =>
      refine List.pairwise_cons.mpr ⟨fun x hx => ?_, h⟩
      rcases List.mem_cons.mp hx with rfl | hx
      · exact hlt
      · exact Std.TransCmp.lt_trans hlt (hhead x hx)
    next => exact List.pairwise_cons.mpr ⟨hhead, htail⟩
    next hgt =>
      have hed : compareResource e d = .lt := Std.OrientedCmp.lt_of_gt hgt
      refine List.pairwise_cons.mpr ⟨?_, ih htail⟩
      exact forall_mem_mergeInto hed hhead fun x hx _ => hhead x hx

theorem merged_ascending (ds : List Declaration) : Ascending (merged ds) := by
  suffices ∀ found, Ascending found → Ascending (ds.foldl (fun found d => mergeInto d found) found) from
    this [] List.Pairwise.nil
  induction ds with
  | nil => exact fun found h => h
  | cons d ds ih => exact fun found h => ih _ (mergeInto_ascending d h)

/-! ### The answer for one resource -/

/-- The declaration is one of this resource. -/
def isOf (d : Declaration) (type : ResourceType) (name : String) : Bool :=
  d.type = type && d.name = name

theorem isOf_iff {d : Declaration} {type : ResourceType} {name : String} :
    d.isOf type name = true ↔ d.type = type ∧ d.name = name := by
  simp [isOf]

/-- Whether a resource is declared inline by every declaration of it, if it is declared at all. -/
def flag? (ds : List Declaration) (type : ResourceType) (name : String) : Option Bool :=
  match ds.filter (·.isOf type name) with
  | [] => none
  | found => some (found.all (·.isInline))

@[simp] theorem flag?_nil (type : ResourceType) (name : String) : flag? [] type name = none := by
  rfl

theorem flag?_cons (d : Declaration) (ds : List Declaration) (type : ResourceType) (name : String) :
    flag? (d :: ds) type name =
      if d.isOf type name then some (d.isInline && (flag? ds type name).getD true) else flag? ds type name := by
  by_cases hd : d.isOf type name = true
  · rw [flag?, List.filter_cons, if_pos hd, if_pos hd, flag?]
    cases ds.filter (·.isOf type name) <;> simp
  · rw [flag?, List.filter_cons, if_neg hd, if_neg hd, flag?]

theorem flag?_eq_none_iff {ds : List Declaration} {type : ResourceType} {name : String} :
    flag? ds type name = none ↔ ∀ d ∈ ds, d.isOf type name = false := by
  induction ds with
  | nil => simp
  | cons d ds ih => cases hd : d.isOf type name <;> simp [flag?_cons, hd, ih]

theorem flag?_append (ds es : List Declaration) (type : ResourceType) (name : String) :
    flag? (ds ++ es) type name =
      match flag? ds type name with
      | none => flag? es type name
      | some b => some (b && (flag? es type name).getD true) := by
  induction ds with
  | nil => rfl
  | cons d ds ih =>
    rw [List.cons_append, flag?_cons, flag?_cons, ih]
    cases d.isOf type name <;> cases flag? ds type name <;> simp [Bool.and_assoc]

theorem flag?_mergeInto (d : Declaration) (ds : List Declaration) (type : ResourceType) (name : String) :
    flag? (mergeInto d ds) type name = flag? (d :: ds) type name := by
  induction ds with
  | nil => rfl
  | cons e es ih =>
    rw [mergeInto]
    split
    · rfl
    next heq =>
      -- the two declarations are of one resource, so that both count for it or neither does
      obtain ⟨htype, hname⟩ := compareResource_eq_iff.mp heq
      have hof : ({ e with isInline := e.isInline && d.isInline } : Declaration).isOf type name = d.isOf type name := by
        simp only [isOf, htype, hname]
      have hof' : e.isOf type name = d.isOf type name := by simp only [isOf, htype, hname]
      rw [flag?_cons, flag?_cons, flag?_cons, hof, hof']
      cases d.isOf type name <;> simp [Bool.and_assoc, Bool.and_left_comm]
    · rw [flag?_cons, ih, flag?_cons, flag?_cons, flag?_cons]
      cases d.isOf type name <;> cases e.isOf type name <;> simp [Bool.and_left_comm]

/-- Merging changes the answer for no resource. -/
theorem flag?_merged (ds : List Declaration) (type : ResourceType) (name : String) :
    flag? (merged ds) type name = flag? ds type name := by
  suffices ∀ found, flag? (ds.foldl (fun found d => mergeInto d found) found) type name =
      flag? (found ++ ds) type name from this []
  induction ds with
  | nil => simp
  | cons d ds ih =>
    intro found
    rw [List.foldl_cons, ih, flag?_append, flag?_mergeInto, flag?_append, flag?_cons, flag?_cons]
    cases d.isOf type name <;> cases flag? found type name <;> simp [Bool.and_assoc, Bool.and_left_comm]

/-! ### Ascending lists -/

theorem Ascending.isOf_eq_false {d : Declaration} {ds : List Declaration} (h : Ascending (d :: ds))
    {type : ResourceType} {name : String} (hd : d.isOf type name = true) : ∀ e ∈ ds, e.isOf type name = false := by
  intro e he
  have hlt := (List.pairwise_cons.mp h).1 e he
  rw [Bool.eq_false_iff]
  intro hof
  rw [isOf_iff] at hd hof
  rw [compareResource_eq_iff.mpr ⟨hd.1.trans hof.1.symm, hd.2.trans hof.2.symm⟩] at hlt
  contradiction

/-- In an ascending list the declarations of a resource are at most one. -/
theorem Ascending.filter_isOf {ds : List Declaration} (h : Ascending ds) (type : ResourceType) (name : String) :
    ds.filter (·.isOf type name) = (flag? ds type name).toList.map fun b => ⟨type, name, b⟩ := by
  induction ds with
  | nil => rfl
  | cons d ds ih =>
    rw [flag?_cons]
    by_cases hd : d.isOf type name = true
    · have hothers := h.isOf_eq_false hd
      obtain ⟨rfl, rfl⟩ := isOf_iff.mp hd
      have hnone : flag? ds d.type d.name = none := flag?_eq_none_iff.mpr hothers
      have hnil : ds.filter (·.isOf d.type d.name) = [] := by simpa using hothers
      rw [List.filter_cons, if_pos hd, if_pos hd, hnil, hnone]
      simp
    · rw [List.filter_cons, if_neg hd, if_neg hd, ih (List.pairwise_cons.mp h).2]

theorem Ascending.mem_iff {ds : List Declaration} (h : Ascending ds) (d : Declaration) :
    d ∈ ds ↔ flag? ds d.type d.name = some d.isInline := by
  have hmem : d ∈ ds ↔ d ∈ ds.filter (·.isOf d.type d.name) := by simp [isOf]
  rw [hmem, h.filter_isOf]
  cases flag? ds d.type d.name with
  | none => simp
  | some b =>
    obtain ⟨type, name, isInline⟩ := d
    simp [eq_comm]

/-- The answers for all resources determine an ascending list. -/
theorem Ascending.eq_of_flag?_eq {ds es : List Declaration} (hds : Ascending ds) (hes : Ascending es)
    (h : ∀ type name, flag? ds type name = flag? es type name) : ds = es := by
  refine eq_of_pairwise_lt hds hes fun d => ?_
  rw [hds.mem_iff, hes.mem_iff, h]

/-! ### Declared resources -/

/-- What is declared. -/
def resource (d : Declaration) : ResourceType × String :=
  (d.type, d.name)

theorem mem_map_resource_iff {ds : List Declaration} {p : ResourceType × String} :
    p ∈ ds.map resource ↔ flag? ds p.1 p.2 ≠ none := by
  rw [ne_eq, flag?_eq_none_iff]
  simp [isOf, resource, Prod.ext_iff]

theorem mem_map_resource_merged (ds : List Declaration) (p : ResourceType × String) :
    p ∈ (merged ds).map resource ↔ p ∈ ds.map resource := by
  rw [mem_map_resource_iff, mem_map_resource_iff, flag?_merged]

theorem Ascending.nodup_map_resource {ds : List Declaration} (h : Ascending ds) : (ds.map resource).Nodup := by
  refine List.pairwise_map.mpr (h.imp fun {a b} hlt heq => ?_)
  rw [compareResource_eq_iff.mpr (Prod.mk.injEq .. ▸ heq)] at hlt
  contradiction

/-- Merged, the declarations are as many as the resources that they declare. -/
theorem length_merged (ds : List Declaration) : (merged ds).length = (ds.map resource).toFinset.card := by
  have hresources : (ds.map resource).toFinset = ((merged ds).map resource).toFinset := by
    ext p
    rw [List.mem_toFinset, List.mem_toFinset, mem_map_resource_merged]
  rw [hresources, List.toFinset_card_of_nodup (merged_ascending ds).nodup_map_resource, List.length_map]

theorem length_merged_le (ds : List Declaration) : (merged ds).length ≤ ds.length := by
  have hlength : (ds.map resource).length = ds.length := List.length_map _
  rw [length_merged, ← hlength]
  exact List.toFinset_card_le _

/-- Merging makes a list shorter, unless each resource is declared once. -/
theorem length_merged_eq_iff (ds : List Declaration) : (merged ds).length = ds.length ↔ (ds.map resource).Nodup := by
  have hlength : (ds.map resource).length = ds.length := List.length_map _
  rw [length_merged, ← hlength]
  exact Multiset.toFinset_card_eq_card_iff_nodup

end Declaration

end ResourceIndex
