import Mathlib.Data.List.Pairwise
import ResourceIndex.Proofs.Repository.Handles
import ResourceIndex.Proofs.Repository.Listing

/-!
# Visiting what is listed

Going over the listed types, and for each type over its listed items, visits every item that something provides, once,
in ascending order by type and then by name. A rescan counts all the others as empty.
-/

namespace ResourceIndex

theorem ResourceType.mem_all (t : ResourceType) : t ∈ all := by
  cases t <;> decide

theorem ResourceType.all_ascending : all.Pairwise fun t u => compare t u = .lt := by
  decide

namespace Repository

variable {r : Repository}

/-- The listed items with their types, type by type. -/
def visited (r : Repository) : List (ResourceType × Item) :=
  r.types.flatMap fun t => (r.ofType t).map (t, ·)

/-- Compares by type, and then by name. -/
def compareListed (p q : ResourceType × Item) : Ordering :=
  (compare p.1 q.1).then (compare p.2.name q.2.name)

theorem Coherent.mem_types (hr : r.Coherent) {type : ResourceType} :
    type ∈ r.types ↔ ∃ name, r.provided type name ≠ [] := by
  rw [types, List.mem_filter, hr.any_filled_iff]
  exact and_iff_right type.mem_all

theorem Coherent.mem_visited_iff (hr : r.Coherent) {type : ResourceType} {i : Item} :
    (type, i) ∈ r.visited ↔ r.provided type i.name = i.contributions ∧ i.contributions ≠ [] := by
  have hpair : (type, i) ∈ r.visited ↔ type ∈ r.types ∧ i ∈ r.ofType type := by
    simp [visited]
  rw [hpair, hr.mem_types, hr.mem_ofType]
  refine and_iff_right_of_imp fun ⟨hprovided, hfilled⟩ => ?_
  exact ⟨i.name, hprovided ▸ hfilled⟩

/-- What is visited are the items with a variant, wherever they stand. -/
theorem Coherent.mem_visited (hr : r.Coherent) {type : ResourceType} {i : Item} :
    (type, i) ∈ r.visited ↔ (∃ h, r.type? h = some type ∧ r.item? h = some i) ∧ i.hasNoVariants = false := by
  have hfilled : i.hasNoVariants = false ↔ i.contributions ≠ [] := by
    rw [Bool.eq_false_iff, ne_eq, i.hasNoVariants_iff]
  rw [hr.mem_visited_iff, hfilled]
  refine and_congr_left fun hne => ⟨fun hprovided => ?_, ?_⟩
  · have hfind := (hr.find?_eq_some_iff hne).mpr hprovided
    obtain ⟨h, hh, hi⟩ := Option.bind_eq_some_iff.mp hfind
    exact ⟨h, (resources_getElem?_eq_some_iff.mp ((hr _ _ _).mp hh)).1, hi⟩
  · rintro ⟨h, htype, hi⟩
    obtain ⟨e, he, rfl⟩ := Option.map_eq_some_iff.mp hi
    obtain rfl : e.type = type := by simpa [type?, he] using htype
    exact hr.provided_of_mem (List.mem_of_getElem? he)

theorem Coherent.visited_ascending (hr : r.Coherent) : r.visited.Pairwise fun p q => compareListed p q = .lt := by
  rw [visited, List.pairwise_flatMap]
  constructor
  · intro type _
    rw [List.pairwise_map]
    refine (hr.ofType_ascending type).imp fun hlt => ?_
    rw [compareListed, Std.ReflOrd.compare_self]
    exact hlt
  · refine (ResourceType.all_ascending.sublist List.filter_sublist).imp fun hlt p hp q hq => ?_
    obtain ⟨i, -, rfl⟩ := List.mem_map.mp hp
    obtain ⟨j, -, rfl⟩ := List.mem_map.mp hq
    rw [compareListed, hlt]
    rfl

theorem Coherent.visited_keys_nodup (hr : r.Coherent) : (r.visited.map fun p => (p.1, p.2.name)).Nodup := by
  rw [List.nodup_iff_pairwise_ne, List.pairwise_map]
  refine hr.visited_ascending.imp fun hlt heq => ?_
  obtain ⟨htype, hname⟩ := Prod.mk.inj heq
  rw [compareListed, htype, hname, Std.ReflOrd.compare_self, Std.ReflOrd.compare_self] at hlt
  contradiction

theorem Coherent.mem_visited_keys (hr : r.Coherent) {p : ResourceType × String} :
    p ∈ r.visited.map (fun p => (p.1, p.2.name)) ↔ r.provided p.1 p.2 ≠ [] := by
  obtain ⟨type, name⟩ := p
  constructor
  · intro hmem
    obtain ⟨⟨_, i⟩, hvisited, heq⟩ := List.mem_map.mp hmem
    obtain ⟨rfl, rfl⟩ := Prod.mk.inj heq
    obtain ⟨hprovided, hne⟩ := hr.mem_visited_iff.mp hvisited
    exact hprovided ▸ hne
  · intro hne
    obtain ⟨i, hi, hcontributions⟩ := find?_of_provided_ne_nil hne
    obtain rfl := hr.name_of_find? hi
    exact List.mem_map.mpr ⟨(type, i), hr.mem_visited_iff.mpr ⟨hcontributions.symm, hcontributions ▸ hne⟩, rfl⟩

/-- A rescan counts the items that are not visited as empty. -/
theorem Coherent.length_visited (hr : r.Coherent) :
    r.visited.length + r.endRescan.result.empty = r.endRescan.result.items := by
  have hkeys : (r.visited.map fun p => (p.1, p.2.name)).Perm
      (r.resources.filter fun p => r.provided p.1 p.2 ≠ []) := by
    refine (List.perm_ext_iff_of_nodup hr.visited_keys_nodup (hr.nodup.filter _)).mpr fun p => ?_
    rw [hr.mem_visited_keys, List.mem_filter, decide_eq_true_iff]
    exact (and_iff_right_of_imp hr.mem_resources).symm
  have hlength := hkeys.length_eq
  rw [List.length_map, ← hr.items_sub_empty] at hlength
  have hle : r.endRescan.result.empty ≤ r.endRescan.result.items := List.countP_le_length
  omega

end Repository

end ResourceIndex
