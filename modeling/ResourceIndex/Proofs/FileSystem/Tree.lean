import ResourceIndex.FileSystem.Basic
import ResourceIndex.Proofs.Table

/-!
# Well-formed file trees

In a well-formed tree every location stands once, and every name in it is a name that a path can lead to. Then the
entries of a directory are exactly the nodes right below it, each once, in strictly ascending order of their names.
-/

namespace ResourceIndex.FileSystem

/-- The text can name an entry of a directory: it has no slash, and is neither empty nor a word for the directory itself
or for the one above it. -/
def IsEntryName (name : String) : Prop :=
  '/' ∉ name.toList ∧ name ∉ ["", ".", ".."]

instance (name : String) : Decidable (IsEntryName name) :=
  inferInstanceAs (Decidable (_ ∧ _))

structure WellFormed (fs : FileSystem) : Prop where
  nodup : (fs.nodes.map (·.1)).Nodup
  names : ∀ entry ∈ fs.nodes, ∀ name ∈ entry.1, IsEntryName name
  start : ∀ name ∈ fs.workingDirectory, IsEntryName name

variable {fs : FileSystem} {l : Location} {n : Node} {name : String}

theorem IsEntryName.ofSegment_eq (h : IsEntryName name) : Step.ofSegment name.toList = .child name := by
  simp only [IsEntryName, List.mem_cons, List.not_mem_nil, or_false, not_or] at h
  obtain ⟨-, hempty, hstay, hup⟩ := h
  have hne : ∀ other : String, name ≠ other → name.toList ≠ other.toList := fun _ h heq => h (String.toList_inj.mp heq)
  unfold Step.ofSegment
  split
  next heq => exact absurd heq (hne "" hempty)
  next heq => exact absurd heq (hne "." hstay)
  next heq => exact absurd heq (hne ".." hup)
  next => rw [String.ofList_toList]

/-! ### Nodes -/

theorem WellFormed.node?_eq_some_iff (h : fs.WellFormed) (hl : l ≠ []) :
    fs.node? l = some n ↔ (l, n) ∈ fs.nodes := by
  rw [node?, if_neg hl]
  exact lookup_eq_some_iff_mem h.nodup

theorem isDirectoryAt_iff : fs.isDirectoryAt l ↔ fs.node? l = some .directory := by
  rw [isDirectoryAt, Option.any_eq_true]
  constructor
  · rintro ⟨n, hn, hdirectory⟩
    cases n with
    | directory => exact hn
    | file _ => exact absurd hdirectory (by simp [Node.isDirectory])
    | link _ => exact absurd hdirectory (by simp [Node.isDirectory])
  · exact fun hn => ⟨.directory, hn, rfl⟩

/-! ### Entries -/

/-- A node as an entry of the directory that it stands in. -/
def entryIn? (l : Location) (node : Location × Node) : Option (String × Node) :=
  if node.1.dropLast = l then node.1.getLast?.map fun name => (name, node.2) else none

theorem entries_eq (fs : FileSystem) (l : Location) :
    fs.entries l = (fs.nodes.filterMap (entryIn? l)).mergeSort fun a b => (compare a.1 b.1).isLE := by
  rfl

theorem entryIn?_eq_some_iff {node : Location × Node} :
    entryIn? l node = some (name, n) ↔ node = (l ++ [name], n) := by
  obtain ⟨key, m⟩ := node
  simp only [entryIn?, Option.ite_none_right_eq_some, Option.map_eq_some_iff, Prod.mk.injEq]
  constructor
  · rintro ⟨rfl, last, hlast, rfl, rfl⟩
    obtain ⟨before, rfl⟩ := List.getLast?_eq_some_iff.mp hlast
    simp
  · rintro ⟨rfl, rfl⟩
    simp

theorem WellFormed.mem_entries (h : fs.WellFormed) :
    (name, n) ∈ fs.entries l ↔ fs.node? (l ++ [name]) = some n := by
  rw [h.node?_eq_some_iff (by simp), entries_eq, List.mem_mergeSort, List.mem_filterMap]
  constructor
  · rintro ⟨node, hnode, hentry⟩
    rwa [← entryIn?_eq_some_iff.mp hentry]
  · exact fun hnode => ⟨_, hnode, entryIn?_eq_some_iff.mpr rfl⟩

theorem WellFormed.isEntryName (h : fs.WellFormed) (hn : fs.node? (l ++ [name]) = some n) : IsEntryName name :=
  h.names _ ((h.node?_eq_some_iff (by simp)).mp hn) name (by simp)

/-- Entries that stand in ascending order among the nodes are already in place. -/
theorem entries_eq_of_ascending {entries : List (String × Node)}
    (hfound : fs.nodes.filterMap (entryIn? l) = entries)
    (hascending : entries.Pairwise fun a b => (compare a.1 b.1).isLE) : fs.entries l = entries := by
  rw [entries_eq, hfound]
  exact List.mergeSort_of_pairwise hascending

/-- The names of a directory's entries ascend strictly. -/
theorem WellFormed.entries_ascending (h : fs.WellFormed) (l : Location) :
    (fs.entries l).Pairwise fun a b => compare a.1 b.1 = .lt := by
  have hdistinct : (fs.nodes.filterMap (entryIn? l)).Pairwise fun a b => a.1 ≠ b.1 := by
    refine (List.pairwise_map.mp h.nodup).filterMap _ fun a a' hne b hb b' hb' heq => hne ?_
    rw [entryIn?_eq_some_iff.mp hb, entryIn?_eq_some_iff.mp hb', heq]
  have hsorted : (fs.entries l).Pairwise fun a b => (compare a.1 b.1).isLE := by
    rw [entries_eq]
    refine List.pairwise_mergeSort (fun a b c => Std.TransCmp.isLE_trans) (fun a b => ?_) _
    rw [@Std.OrientedCmp.eq_swap _ compare _ b.1 a.1]
    cases compare a.1 b.1 <;> rfl
  have hentries : (fs.entries l).Pairwise fun a b => a.1 ≠ b.1 := by
    rw [entries_eq]
    exact (List.mergeSort_perm _ _).symm.pairwise hdistinct fun h => h.symm
  refine (hsorted.and hentries).imp fun {a b} ⟨hle, hne⟩ => ?_
  cases hcompare : compare a.1 b.1 with
  | lt => rfl
  | eq => exact absurd (Std.LawfulEqCmp.compare_eq_iff_eq.mp hcompare) hne
  | gt => exact absurd hle (by rw [hcompare]; decide)

end ResourceIndex.FileSystem
