import ResourceIndex.Proofs.Repository.Indexes
import ResourceIndex.Proofs.Scan.Indexing

/-!
# What an index keeps of scanned files

Behind the files that were there, an index keeps every file that could be read, in the order of the scan, under an id
that was not issued before, and with its declarations merged.
-/

namespace ResourceIndex

/-- What is known of an indexed file from its place. -/
def SourceFile.pending (f : SourceFile) : PendingFile :=
  ⟨f.path, f.folder, f.configuration⟩

/-- The files under ids that the repository had not issued before. -/
def Repository.addedSince (r before : Repository) : List SourceFile :=
  r.fileList.filter fun f => before.nextId ≤ f.id.number

namespace Scanner

variable {s : Scanner} {fs : FileSystem} {f : PendingFile} {files : List PendingFile}

/-- The files that can be read, each with its merged declarations. -/
def kept (s : Scanner) (fs : FileSystem) (files : List PendingFile) : List (PendingFile × List Declaration) :=
  files.filterMap fun f => (s.declarationsOf fs f).toOption.map fun ds => (f, Declaration.merged ds)

theorem kept_cons_of_ok {ds : List Declaration} (h : s.declarationsOf fs f = .ok ds) :
    s.kept fs (f :: files) = (f, Declaration.merged ds) :: s.kept fs files := by
  simp [kept, h, Except.toOption]

theorem kept_cons_of_error {fault : IndexFault} (h : s.declarationsOf fs f = .error fault) :
    s.kept fs (f :: files) = s.kept fs files := by
  simp [kept, h, Except.toOption]

variable {r : Repository} {live : List LiveFile}

theorem exists_fileList_run_additions (h : r.Indexes live) (s : Scanner) (fs : FileSystem) (files : List PendingFile) :
    ∃ added, (r.run (s.additions fs files)).fileList = r.fileList ++ added ∧
      (∀ f ∈ added, r.nextId ≤ f.id.number) ∧
      added.map (fun f => (f.pending, f.declarations)) = s.kept fs files := by
  induction files generalizing r live with
  | nil => exact ⟨[], (List.append_nil _).symm, List.forall_mem_nil _, rfl⟩
  | cons f files ih =>
    cases hread : s.declarationsOf fs f with
    | error fault =>
      rw [additions_cons_of_error hread, kept_cons_of_error hread]
      exact ih h
    | ok ds =>
      obtain ⟨added, hlist, hids, hkept⟩ := ih (h.addFile f.path f.folder f.configuration ds)
      rw [h.fileList_addFile, List.append_assoc] at hlist
      rw [additions_cons_of_ok hread, kept_cons_of_ok hread]
      refine ⟨_, hlist, List.forall_mem_cons.mpr ⟨Nat.le_refl _, fun g hg => ?_⟩, ?_⟩
      · have hlater := hids g hg
        rw [Repository.nextId_addFile] at hlater
        exact Nat.le_of_succ_le hlater
      · rw [List.singleton_append, List.map_cons, hkept]
        rfl

theorem map_fileList_run_additions (h : r.Indexes live) (s : Scanner) (fs : FileSystem) (files : List PendingFile) :
    (r.run (s.additions fs files)).fileList.map (fun f => (f.pending, f.declarations)) =
      r.fileList.map (fun f => (f.pending, f.declarations)) ++ s.kept fs files := by
  obtain ⟨added, hlist, -, hkept⟩ := s.exists_fileList_run_additions h fs files
  rw [hlist, List.map_append, hkept]

theorem map_fileList_run_empty (s : Scanner) (fs : FileSystem) (files : List PendingFile) :
    (Repository.run {} (s.additions fs files)).fileList.map (fun f => (f.pending, f.declarations)) =
      s.kept fs files := by
  refine (map_fileList_run_additions Repository.indexes_empty s fs files).trans ?_
  rw [Repository.fileList_empty]
  rfl

theorem map_addedSince_run_additions (h : r.Indexes live) (s : Scanner) (fs : FileSystem) (files : List PendingFile) :
    ((r.run (s.additions fs files)).addedSince r).map (fun f => (f.pending, f.declarations)) = s.kept fs files := by
  obtain ⟨added, hlist, hids, hkept⟩ := s.exists_fileList_run_additions h fs files
  have hold : r.fileList.filter (fun f => r.nextId ≤ f.id.number) = [] := by
    refine List.filter_eq_nil_iff.mpr fun f hf => ?_
    obtain ⟨g, hg, rfl⟩ := h.mem_fileList.mp hf
    exact fun hle => Nat.not_le_of_lt (h.id_lt g hg) (of_decide_eq_true hle)
  have hnew : added.filter (fun f => r.nextId ≤ f.id.number) = added :=
    List.filter_eq_self.mpr fun f hf => decide_eq_true (hids f hf)
  rw [Repository.addedSince, hlist, List.filter_append, hold, hnew, List.nil_append, hkept]

end Scanner

end ResourceIndex
