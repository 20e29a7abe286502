import Mathlib.Data.List.Nodup
import ResourceIndex.Proofs.Repository.Provided

/-!
# Listings

The listings of a coherent repository show each resource that something provides, and depend on nothing but what
provides the resources. A type is listed if it has such a resource, its items stand in ascending order of their names,
and a rescan counts the others as empty.
-/

namespace ResourceIndex.Repository

variable {r : Repository}

/-! ### Items and contributions -/

theorem find?_of_provided_ne_nil {type : ResourceType} {name : String} (h : r.provided type name ≠ []) :
    ∃ i, r.find? type name = some i ∧ i.contributions = r.provided type name := by
  cases hi : r.find? type name with
  | none => simp [provided, hi] at h
  | some i => exact ⟨i, rfl, (provided_of_find? hi).symm⟩

theorem Coherent.find?_eq_some_iff (hr : r.Coherent) {type : ResourceType} {i : Item} (hi : i.contributions ≠ []) :
    r.find? type i.name = some i ↔ r.provided type i.name = i.contributions := by
  refine ⟨provided_of_find?, fun hprovided => ?_⟩
  obtain ⟨j, hj, hcontributions⟩ := find?_of_provided_ne_nil (hprovided.symm ▸ hi)
  rw [hj, Item.ext_contributions (hr.name_of_find? hj) (hcontributions.trans hprovided)]

theorem Coherent.mem_resources (hr : r.Coherent) {type : ResourceType} {name : String}
    (h : r.provided type name ≠ []) : (type, name) ∈ r.resources := by
  obtain ⟨i, hi, -⟩ := find?_of_provided_ne_nil h
  obtain ⟨k, hk, -⟩ := Option.bind_eq_some_iff.mp hi
  exact List.mem_of_getElem? ((hr type name k).mp hk)

theorem Coherent.provided_of_mem (hr : r.Coherent) {e : Entry} (he : e ∈ r.entries) :
    r.provided e.type e.item.name = e.item.contributions := by
  obtain ⟨n, hn⟩ := List.mem_iff_getElem?.mp he
  have hh : r.handle? e.type e.item.name = some ⟨n⟩ := by
    rw [hr, resources, List.getElem?_map, hn]
    rfl
  rw [provided, find?, hh, Option.bind_some, item?, hn]
  rfl

/-! ### The items of a type -/

theorem Coherent.item?_of_mem_names (hr : r.Coherent) {type : ResourceType} {name : String} {h : Handle}
    (hmem : (name, h) ∈ (r.lookup.names type).toList) : ∃ i, r.item? h = some i ∧ i.name = name := by
  have hh : r.handle? type name = some h := Std.TreeMap.mem_toList_iff_getElem?_eq_some.mp hmem
  obtain ⟨i, -, hi, hname⟩ := hr.find?_eq_some hh
  exact ⟨i, hi, hname⟩

theorem Coherent.mem_ofType (hr : r.Coherent) {type : ResourceType} {i : Item} :
    i ∈ r.ofType type ↔ r.provided type i.name = i.contributions ∧ i.contributions ≠ [] := by
  have hfind : i ∈ (r.lookup.handles type).filterMap r.item? ↔ r.find? type i.name = some i := by
    rw [List.mem_filterMap, find?, Option.bind_eq_some_iff]
    constructor
    · rintro ⟨h, hh, hi⟩
      obtain ⟨⟨name, _⟩, hmem, rfl⟩ := List.mem_map.mp hh
      obtain ⟨j, hj, rfl⟩ := hr.item?_of_mem_names hmem
      obtain rfl := Option.some.inj (hi.symm.trans hj)
      exact ⟨_, Std.TreeMap.mem_toList_iff_getElem?_eq_some.mp hmem, hi⟩
    · rintro ⟨h, hh, hi⟩
      exact ⟨h, List.mem_map.mpr ⟨(i.name, h), Std.TreeMap.mem_toList_iff_getElem?_eq_some.mpr hh, rfl⟩, hi⟩
  have hempty : (!i.hasNoVariants) = true ↔ i.contributions ≠ [] := by
    rw [Bool.not_eq_true', Bool.eq_false_iff, ne_eq, i.hasNoVariants_iff]
  rw [ofType, List.mem_filter, hfind, hempty]
  exact and_congr_left fun hi => hr.find?_eq_some_iff hi

theorem Coherent.ofType_ascending (hr : r.Coherent) (type : ResourceType) :
    (r.ofType type).Pairwise fun i j => compare i.name j.name = .lt := by
  refine List.Pairwise.filter _ ?_
  rw [Lookup.handles, List.filterMap_map, List.pairwise_filterMap]
  refine List.Pairwise.imp_of_mem ?_ (Std.TreeMap.ordered_keys_toList (t := r.lookup.names type))
  rintro ⟨_, h⟩ ⟨_, k⟩ hh hk hlt i hi j hj
  obtain ⟨i', hi', rfl⟩ := hr.item?_of_mem_names hh
  obtain ⟨j', hj', rfl⟩ := hr.item?_of_mem_names hk
  obtain rfl := Option.some.inj (hi.symm.trans hi')
  obtain rfl := Option.some.inj (hj.symm.trans hj')
  exact hlt

/-- Listings of items in ascending order of their names are equal if they list the same items. -/
theorem eq_of_ascending {items others : List Item}
    (hitems : items.Pairwise fun i j => compare i.name j.name = .lt)
    (hothers : others.Pairwise fun i j => compare i.name j.name = .lt) (hmem : ∀ i, i ∈ items ↔ i ∈ others) :
    items = others := by
  have horiented : Std.OrientedCmp fun i j : Item => compare i.name j.name :=
    inferInstanceAs (Std.OrientedCmp (compareOn Item.name))
  exact eq_of_pairwise_lt hitems hothers hmem

/-! ### Types and counts -/

theorem Coherent.any_filled_iff (hr : r.Coherent) {type : ResourceType} :
    (r.entries.any fun e => e.type = type && !e.item.hasNoVariants) = true ↔
      ∃ name, r.provided type name ≠ [] := by
  have hfilled : ∀ e ∈ r.entries, (!e.item.hasNoVariants) = true ↔ r.provided e.type e.item.name ≠ [] := by
    intro e he
    rw [hr.provided_of_mem he, Bool.not_eq_true', Bool.eq_false_iff, ne_eq, e.item.hasNoVariants_iff]
  simp only [List.any_eq_true, Bool.and_eq_true, decide_eq_true_iff]
  constructor
  · rintro ⟨e, he, rfl, hvariants⟩
    exact ⟨e.item.name, (hfilled e he).mp hvariants⟩
  · rintro ⟨name, hprovided⟩
    obtain ⟨e, he, hkey⟩ := List.mem_map.mp (hr.mem_resources hprovided)
    obtain ⟨rfl, rfl⟩ := Prod.mk.injEq .. ▸ hkey
    exact ⟨e, he, rfl, (hfilled e he).mpr hprovided⟩

/-- The listed types are determined by the resources that something provides. -/
theorem Coherent.types_eq {s : Repository} (hr : r.Coherent) (hs : s.Coherent)
    (h : ∀ type, (∃ name, r.provided type name ≠ []) ↔ ∃ name, s.provided type name ≠ []) : r.types = s.types := by
  refine List.filter_congr fun type _ => ?_
  rw [Bool.eq_iff_iff, hr.any_filled_iff, hs.any_filled_iff]
  exact h type

/-- The items that something provides, counted by their resources. -/
theorem Coherent.items_sub_empty (hr : r.Coherent) :
    r.endRescan.result.items - r.endRescan.result.empty =
      (r.resources.filter fun p => r.provided p.1 p.2 ≠ []).length := by
  have hcount : r.entries.countP (fun e => !e.item.hasNoVariants) =
      (r.resources.filter fun p => r.provided p.1 p.2 ≠ []).length := by
    rw [List.countP_eq_length_filter, resources, List.filter_map, List.length_map]
    congr 1
    refine List.filter_congr fun e he => ?_
    rw [Bool.eq_iff_iff, Function.comp_apply, decide_eq_true_iff, hr.provided_of_mem he, Bool.not_eq_true',
      Bool.eq_false_iff, ne_eq, e.item.hasNoVariants_iff]
  have hall := List.length_eq_countP_add_countP (fun e : Entry => e.item.hasNoVariants) (l := r.entries)
  simp only [Bool.not_eq_true, Bool.decide_eq_false] at hall
  change r.entries.length - r.entries.countP (·.item.hasNoVariants) = _
  rw [← hcount]
  omega

theorem Coherent.items_sub_empty_eq {s : Repository} (hr : r.Coherent) (hs : s.Coherent)
    (h : ∀ type name, r.provided type name ≠ [] ↔ s.provided type name ≠ []) :
    r.endRescan.result.items - r.endRescan.result.empty = s.endRescan.result.items - s.endRescan.result.empty := by
  rw [hr.items_sub_empty, hs.items_sub_empty]
  refine List.Perm.length_eq ((List.perm_ext_iff_of_nodup (hr.nodup.filter _) (hs.nodup.filter _)).mpr ?_)
  rintro ⟨type, name⟩
  simp only [List.mem_filter, decide_eq_true_iff]
  constructor
  · rintro ⟨-, hprovided⟩
    exact ⟨hs.mem_resources ((h type name).mp hprovided), (h type name).mp hprovided⟩
  · rintro ⟨-, hprovided⟩
    exact ⟨hr.mem_resources ((h type name).mpr hprovided), (h type name).mpr hprovided⟩

end ResourceIndex.Repository
