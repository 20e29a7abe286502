import Mathlib.Data.List.Nodup

/-!
# Tables

A table is a list of keys with their values, and the first entry of a key counts. If no key stands twice, every entry
counts, so that the order of the entries does not matter. Other values, and other keys as long as they stay apart, give
the table that is expected.
-/

namespace ResourceIndex

variable {α β γ : Type} [BEq α] {table other : List (α × β)} {key : α} {value : β}

theorem lookup_map_values (f : β → γ) (table : List (α × β)) (key : α) :
    (table.map fun entry => (entry.1, f entry.2)).lookup key = (table.lookup key).map f := by
  induction table with
  | nil => rfl
  | cons entry table ih =>
    rw [List.map_cons, List.lookup_cons, List.lookup_cons, ih]
    cases key == entry.1 <;> rfl

variable [LawfulBEq α]

theorem mem_of_lookup_eq_some (h : table.lookup key = some value) : (key, value) ∈ table := by
  obtain ⟨before, after, rfl, -⟩ := List.lookup_eq_some_iff.mp h
  exact List.mem_append_right _ List.mem_cons_self

theorem exists_lookup_eq_some (h : key ∈ table.map (·.1)) : ∃ value, table.lookup key = some value := by
  obtain ⟨entry, hentry, rfl⟩ := List.mem_map.mp h
  refine Option.ne_none_iff_exists'.mp fun hnone => ?_
  exact absurd (List.lookup_eq_none_iff.mp hnone entry hentry) (by simp)

theorem lookup_eq_some_iff_mem (h : (table.map (·.1)).Nodup) : table.lookup key = some value ↔ (key, value) ∈ table := by
  refine ⟨mem_of_lookup_eq_some, fun hmem => ?_⟩
  obtain ⟨first, hfirst⟩ := exists_lookup_eq_some (List.mem_map_of_mem hmem)
  have heq : (key, first) = (key, value) := List.inj_on_of_nodup_map h (mem_of_lookup_eq_some hfirst) hmem rfl
  rw [hfirst, (Prod.mk.inj heq).2]

theorem lookup_eq_of_perm (h : table.Perm other) (hnodup : (table.map (·.1)).Nodup) (key : α) :
    table.lookup key = other.lookup key := by
  have hnodup' : (other.map (·.1)).Nodup := (h.map _).nodup hnodup
  refine Option.ext fun value => ?_
  rw [lookup_eq_some_iff_mem hnodup, lookup_eq_some_iff_mem hnodup', h.mem_iff]

/-- New names for the keys do not matter, as far as the key that is looked for stays apart from all others. -/
theorem lookup_map_keys {f : α → α} (h : ∀ entry ∈ table, f key = f entry.1 → key = entry.1) :
    (table.map fun entry => (f entry.1, entry.2)).lookup (f key) = table.lookup key := by
  induction table with
  | nil => rfl
  | cons entry table ih =>
    obtain ⟨hentry, hrest⟩ := List.forall_mem_cons.mp h
    rw [List.map_cons, List.lookup_cons, List.lookup_cons, ih hrest]
    by_cases heq : key = entry.1
    · simp [heq]
    · rw [beq_false_of_ne heq, beq_false_of_ne fun hf => heq (hentry hf)]

end ResourceIndex
