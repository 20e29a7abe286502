import Mathlib.Data.List.Nodup
import ResourceIndex.Proofs.Repository.Live

/-!
# The index of live files

`Indexes` ties a repository to a list of live files: the lookup and the items belong together, the file table holds the
live files and no others, their ids are distinct and were all issued, and each resource is provided by the files that
declare it. Each change of the repository goes with its change of the list.
-/

namespace ResourceIndex.Repository

/-- The repository is the index of these live files. -/
structure Indexes (r : Repository) (live : List LiveFile) : Prop where
  coherent : r.Coherent
  provided : ∀ type name, r.provided type name = live.filterMap (·.contribution? type name)
  file? : ∀ id, r.file? id = (live.find? (·.id = id)).map LiveFile.indexed
  ids_nodup : (live.map (·.id)).Nodup
  id_lt : ∀ f ∈ live, f.id.number < r.nextId

variable {r : Repository} {live : List LiveFile}

theorem indexes_empty : Indexes {} [] where
  coherent := coherent_empty
  provided type name := by simp [provided, find?, handle?]
  file? id := by simp [Repository.file?]
  ids_nodup := List.nodup_nil
  id_lt f hf := by contradiction

theorem Indexes.file?_eq_some (h : r.Indexes live) {f : LiveFile} (hf : f ∈ live) :
    r.file? f.id = some f.indexed := by
  rw [h.file?, (LiveFile.find?_id_eq_some_iff h.ids_nodup).mpr ⟨hf, rfl⟩, Option.map_some]

theorem Indexes.find?_id_of_file?_eq_some (h : r.Indexes live) {id : SourceId} {old : SourceFile}
    (hfile : r.file? id = some old) :
    ∃ f, live.find? (·.id = id) = some f ∧ f ∈ live ∧ f.id = id ∧ f.indexed = old := by
  rw [h.file?] at hfile
  obtain ⟨f, hf, hold⟩ := Option.map_eq_some_iff.mp hfile
  obtain ⟨hmem, hid⟩ := (LiveFile.find?_id_eq_some_iff h.ids_nodup).mp hf
  exact ⟨f, hf, hmem, hid, hold⟩

theorem Indexes.provided_eq_nil_iff (h : r.Indexes live) (type : ResourceType) (name : String) :
    r.provided type name = [] ↔ ∀ f ∈ live, f.declares type name = false := by
  rw [h.provided, List.filterMap_eq_nil_iff]
  refine forall₂_congr fun f _ => ?_
  rw [LiveFile.contribution?]
  cases f.declares type name <;> simp

theorem getElem?_insert_files (files : Std.TreeMap SourceId SourceFile) (id other : SourceId) (f : SourceFile) :
    (files.insert id f)[other]? = if id = other then some f else files[other]? := by
  rw [Std.TreeMap.getElem?_insert]
  simp only [Std.LawfulEqOrd.compare_eq_iff_eq]

theorem getElem?_erase_files (files : Std.TreeMap SourceId SourceFile) (id other : SourceId) :
    (files.erase id)[other]? = if id = other then none else files[other]? := by
  rw [Std.TreeMap.getElem?_erase]
  simp only [Std.LawfulEqOrd.compare_eq_iff_eq]

/-! ### Without a file -/

theorem Indexes.eraseFile (h : r.Indexes live) {f : LiveFile} (hf : f ∈ live) :
    (r.eraseFile f.indexed).Indexes (live.filter (·.id ≠ f.id)) where
  coherent := h.coherent.eraseFile f.indexed
  provided type name := by
    have hdetach := h.coherent.provided_detach (f := f.indexed) (Declaration.merged_ascending f.declarations) type name
    refine hdetach.trans ?_
    rw [h.provided, f.flag?_indexed, LiveFile.filterMap_contribution?_filter]
    cases hdeclares : f.declares type name with
    | true => exact eraseP_source_eq_filter (LiveFile.sources_nodup h.ids_nodup type name) f.id
    | false =>
      -- the file is the only one with its id, and it contributes nothing
      refine (List.filter_eq_self.mpr fun c hc => ?_).symm
      obtain ⟨g, hg, hcontribution⟩ := List.mem_filterMap.mp hc
      rw [decide_eq_true_iff, LiveFile.source_of_mem_contribution? hcontribution]
      intro hid
      obtain rfl : g = f := List.inj_on_of_nodup_map h.ids_nodup hg hf hid
      simp [LiveFile.contribution?, hdeclares] at hcontribution
  file? id := by
    rw [LiveFile.find?_filter_id_ne, Repository.file?, Repository.eraseFile, files_detach]
    have herase := getElem?_erase_files r.files f.id id
    refine herase.trans ?_
    split
    · rfl
    · exact h.file? id
  ids_nodup := h.ids_nodup.sublist (List.filter_sublist.map _)
  id_lt g hg := by
    rw [nextId_eraseFile]
    exact h.id_lt g (List.mem_filter.mp hg).1

/-! ### With a file behind all others -/

theorem Indexes.insertFile (h : r.Indexes live) {f : LiveFile} (hid : f.id ∉ live.map (·.id))
    (hlt : f.id.number < r.nextId) : (r.insertFile f.indexed).repository.Indexes (live ++ [f]) where
  coherent := h.coherent.insertFile f.indexed
  provided type name := by
    have hattach := h.coherent.provided_attach_merged f.variant f.declarations type name
    refine hattach.trans ?_
    rw [h.provided, List.filterMap_append, f.flag?_declarations, List.filterMap_cons, LiveFile.contribution?]
    split <;> rfl
  file? id := by
    have hinsert := getElem?_insert_files r.files f.id id f.indexed
    rw [Repository.file?, Repository.insertFile, files_attach]
    refine hinsert.trans ?_
    rw [List.find?_append]
    split
    next heq =>
      subst heq
      have hnone : live.find? (·.id = f.id) = none := by
        rw [List.find?_eq_none]
        intro g hg hgid
        exact hid (List.mem_map.mpr ⟨g, hg, of_decide_eq_true hgid⟩)
      simp [hnone]
    next hne =>
      refine (h.file? id).trans ?_
      simp [hne]
  ids_nodup := by
    rw [List.map_append, List.map_singleton, List.nodup_append_comm]
    exact List.nodup_cons.mpr ⟨hid, h.ids_nodup⟩
  id_lt g hg := by
    rw [nextId_insertFile]
    rcases List.mem_append.mp hg with hg | hg
    · exact h.id_lt g hg
    · rwa [List.mem_singleton.mp hg]

/-! ### Changes

An operation on a file that is not indexed changes nothing and is silent. -/

theorem updateFile_of_file?_eq_none {id : SourceId} (hfile : r.file? id = none) (declarations : List Declaration) :
    r.updateFile id declarations = { result := false, repository := r } := by
  rw [updateFile, hfile]

theorem updateFile_of_file?_eq_some {id : SourceId} {old : SourceFile} (hfile : r.file? id = some old)
    (declarations : List Declaration) :
    r.updateFile id declarations =
      { (r.eraseFile old).insertFile { old with declarations := Declaration.merged declarations } with
        result := true } := by
  rw [updateFile, hfile]

theorem removeFile_of_file?_eq_none {id : SourceId} (hfile : r.file? id = none) :
    r.removeFile id = { result := none, repository := r } := by
  rw [removeFile, hfile]

theorem removeFile_of_file?_eq_some {id : SourceId} {old : SourceFile} (hfile : r.file? id = some old) :
    r.removeFile id =
      { result := some old, repository := r.eraseFile old, events := [.fileRemoved old.path] } := by
  rw [removeFile, hfile]

@[simp] theorem nextId_addFile (path : Path) (folder : FolderType) (configuration : Configuration)
    (declarations : List Declaration) :
    (r.addFile path folder configuration declarations).repository.nextId = r.nextId + 1 :=
  nextId_insertFile _ _

@[simp] theorem nextId_updateFile (id : SourceId) (declarations : List Declaration) :
    (r.updateFile id declarations).repository.nextId = r.nextId := by
  rw [updateFile]
  split <;> simp

@[simp] theorem nextId_removeFile (id : SourceId) : (r.removeFile id).repository.nextId = r.nextId := by
  rw [removeFile]
  split <;> simp

theorem Indexes.addFile (h : r.Indexes live) (path : Path) (folder : FolderType) (configuration : Configuration)
    (declarations : List Declaration) :
    (r.addFile path folder configuration declarations).repository.Indexes
      (live ++ [⟨⟨r.nextId⟩, path, folder, configuration, declarations⟩]) := by
  have hissued : Indexes { r with nextId := r.nextId + 1 } live :=
    { h with id_lt := fun f hf => Nat.lt_succ_of_lt (h.id_lt f hf) }
  refine hissued.insertFile (f := ⟨⟨r.nextId⟩, path, folder, configuration, declarations⟩) ?_ (Nat.lt_succ_self _)
  rw [List.mem_map]
  rintro ⟨f, hf, hid⟩
  have hlt := h.id_lt f hf
  rw [hid] at hlt
  exact Nat.lt_irrefl _ hlt

theorem Indexes.updateFile (h : r.Indexes live) {f : LiveFile} (hf : f ∈ live) (declarations : List Declaration) :
    (r.updateFile f.id declarations).repository.Indexes
      (live.filter (·.id ≠ f.id) ++ [{ f with declarations := declarations }]) := by
  rw [updateFile_of_file?_eq_some (h.file?_eq_some hf)]
  refine (h.eraseFile hf).insertFile (f := { f with declarations := declarations }) ?_ ?_
  · simp
  · rw [nextId_eraseFile]
    exact h.id_lt f hf

theorem Indexes.removeFile (h : r.Indexes live) {f : LiveFile} (hf : f ∈ live) :
    (r.removeFile f.id).repository.Indexes (live.filter (·.id ≠ f.id)) := by
  rw [removeFile_of_file?_eq_some (h.file?_eq_some hf)]
  exact h.eraseFile hf

theorem Indexes.beginRescan (h : r.Indexes live) : r.beginRescan.repository.Indexes [] where
  coherent := h.coherent.beginRescan
  provided type name := by
    rw [Repository.provided, Repository.find?]
    cases hh : r.beginRescan.repository.handle? type name with
    | none => rfl
    | some k =>
      simp only [Option.bind_some, item?, Repository.beginRescan, List.getElem?_map]
      cases r.entries[k.index]? with
      | none => rfl
      | some e => exact e.item.contributions_reset
  file? id := by simp [Repository.file?, Repository.beginRescan]
  ids_nodup := List.nodup_nil
  id_lt f hf := by contradiction

/-! ### The file table -/

@[simp] theorem fileList_empty : fileList {} = [] := by
  rfl

theorem Indexes.mem_fileList (h : r.Indexes live) {old : SourceFile} :
    old ∈ r.fileList ↔ ∃ f ∈ live, f.indexed = old := by
  rw [fileList, List.mem_map]
  constructor
  · rintro ⟨⟨id, _⟩, hmem, rfl⟩
    obtain ⟨f, -, hf, -, hold⟩ := h.find?_id_of_file?_eq_some (Std.TreeMap.mem_toList_iff_getElem?_eq_some.mp hmem)
    exact ⟨f, hf, hold⟩
  · rintro ⟨f, hf, rfl⟩
    exact ⟨(f.id, f.indexed), Std.TreeMap.mem_toList_iff_getElem?_eq_some.mpr (h.file?_eq_some hf), rfl⟩

/-- The file table is read in ascending order of the ids. -/
theorem Indexes.fileList_ascending (h : r.Indexes live) :
    r.fileList.Pairwise fun f g => f.id.number < g.id.number := by
  rw [fileList, List.pairwise_map]
  refine List.Pairwise.imp_of_mem ?_ (Std.TreeMap.ordered_keys_toList (t := r.files))
  rintro ⟨id, f⟩ ⟨other, g⟩ hf hg hlt
  obtain ⟨_, -, -, rfl, rfl⟩ := h.find?_id_of_file?_eq_some (Std.TreeMap.mem_toList_iff_getElem?_eq_some.mp hf)
  obtain ⟨_, -, -, rfl, rfl⟩ := h.find?_id_of_file?_eq_some (Std.TreeMap.mem_toList_iff_getElem?_eq_some.mp hg)
  exact Nat.compare_eq_lt.mp hlt

theorem Indexes.fileList_perm (h : r.Indexes live) : r.fileList.Perm (live.map LiveFile.indexed) := by
  have hlist : r.fileList.Nodup := h.fileList_ascending.imp fun hlt heq => by simp [heq] at hlt
  have hlive : (live.map LiveFile.indexed).Nodup := by
    refine List.Nodup.of_map SourceFile.id ?_
    rw [List.map_map]
    exact h.ids_nodup
  rw [List.perm_ext_iff_of_nodup hlist hlive]
  intro old
  rw [h.mem_fileList, List.mem_map]

/-- An added file stands behind all others. -/
theorem Indexes.fileList_addFile (h : r.Indexes live) (path : Path) (folder : FolderType)
    (configuration : Configuration) (declarations : List Declaration) :
    (r.addFile path folder configuration declarations).repository.fileList =
      r.fileList ++ [⟨⟨r.nextId⟩, path, folder, configuration, Declaration.merged declarations⟩] := by
  have hadded := h.addFile path folder configuration declarations
  have hperm := hadded.fileList_perm
  rw [List.map_append] at hperm
  refine (hperm.trans (h.fileList_perm.symm.append_right _)).eq_of_pairwise (fun f g _ _ hfg hgf => ?_)
    hadded.fileList_ascending ?_
  · exact absurd hfg (Nat.lt_asymm hgf)
  · refine List.pairwise_append.mpr ⟨h.fileList_ascending, List.pairwise_singleton _ _, fun f hf g hg => ?_⟩
    obtain ⟨other, hother, rfl⟩ := h.mem_fileList.mp hf
    obtain rfl := List.mem_singleton.mp hg
    exact h.id_lt other hother

theorem Indexes.fileCount_eq (h : r.Indexes live) : r.fileCount = live.length := by
  rw [fileCount, ← Std.TreeMap.length_toList]
  simpa [fileList] using h.fileList_perm.length_eq

/-- The first of an ascending list is the least. -/
theorem find?_eq_some_iff_of_ascending {files : List SourceFile} {p : SourceFile → Bool}
    (hfiles : files.Pairwise fun f g => f.id.number < g.id.number) {f : SourceFile} :
    files.find? p = some f ↔ f ∈ files ∧ p f ∧ ∀ g ∈ files, p g → f.id.number ≤ g.id.number := by
  induction files with
  | nil => simp
  | cons e files ih =>
    obtain ⟨he, hfiles⟩ := List.pairwise_cons.mp hfiles
    by_cases hp : p e = true
    · rw [List.find?_cons_of_pos hp]
      constructor
      · rintro heq
        obtain rfl := Option.some.inj heq
        refine ⟨List.mem_cons_self, hp, fun g hg _ => ?_⟩
        rcases List.mem_cons.mp hg with rfl | hg
        · exact Nat.le_refl _
        · exact Nat.le_of_lt (he g hg)
      · rintro ⟨hf, -, hleast⟩
        rcases List.mem_cons.mp hf with rfl | hf
        · rfl
        · have hle := hleast e List.mem_cons_self hp
          have hlt := he f hf
          omega
    · rw [List.find?_cons_of_neg hp, ih hfiles, List.forall_mem_cons, List.mem_cons]
      constructor
      · rintro ⟨hf, hpf, hleast⟩
        exact ⟨.inr hf, hpf, fun hpe => absurd hpe hp, hleast⟩
      · rintro ⟨rfl | hf, hpf, -, hleast⟩
        · exact absurd hpf hp
        · exact ⟨hf, hpf, hleast⟩

theorem Indexes.sourceOf?_eq_some_iff (h : r.Indexes live) {path : Path} {id : SourceId} :
    r.sourceOf? path = some id ↔
      (∃ f ∈ live, f.id = id ∧ Path.Same f.path path) ∧
        ∀ f ∈ live, Path.Same f.path path → id.number ≤ f.id.number := by
  rw [sourceOf?, Option.map_eq_some_iff]
  simp only [find?_eq_some_iff_of_ascending h.fileList_ascending, decide_eq_true_iff]
  constructor
  · rintro ⟨old, ⟨hold, hpath, hleast⟩, rfl⟩
    obtain ⟨f, hf, rfl⟩ := h.mem_fileList.mp hold
    exact ⟨⟨f, hf, rfl, hpath⟩, fun g hg hsame => hleast g.indexed (h.mem_fileList.mpr ⟨g, hg, rfl⟩) hsame⟩
  · rintro ⟨⟨f, hf, rfl, hpath⟩, hleast⟩
    refine ⟨f.indexed, ⟨h.mem_fileList.mpr ⟨f, hf, rfl⟩, hpath, ?_⟩, rfl⟩
    intro old hold hsame
    obtain ⟨g, hg, rfl⟩ := h.mem_fileList.mp hold
    exact hleast g hg hsame

end ResourceIndex.Repository
