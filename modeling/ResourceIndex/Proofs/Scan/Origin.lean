import ResourceIndex.Proofs.Repository.Announcement
import ResourceIndex.Proofs.Scan.Kept
import ResourceIndex.Proofs.Scan.Steady

/-!
# Where an index comes from

However a scan ends, it has added some first ones of its files, and a rescan has done so once everything was forgotten.
So an index that is filled by scans and rescans alone holds nothing that none of them has read: no file, and no resource
either, though the resources of files that are long gone stay.
-/

namespace ResourceIndex

/-! ### Additions of any scan -/

namespace Scanner

variable {s : Scanner} {fs : FileSystem} {r repository : Repository} {dir : Path} {events : List Event}
  {calls : List Call} {result : Except IndexFault ScanSummary}

theorem Ends.exists_firstFiles (h : s.Ends fs r dir result repository events calls) :
    ∃ files, files <+: s.filesAt fs dir ∧ repository = r.run (s.additions fs files) := by
  cases h with
  | missing hdir => exact ⟨[], List.nil_prefix, rfl⟩
  | unlisted hdir hlisted => exact ⟨[], List.nil_prefix, rfl⟩
  | @stopped l before after f _ _ hdir hlisted =>
    obtain ⟨hfiles, -⟩ := Prod.mk.inj hlisted.eq_of_ok.1
    refine ⟨before, ⟨f :: after, ?_⟩, by rw [indexAll_eq]⟩
    rw [filesAt_of_some hdir, hfiles]
  | @done l files _ _ _ hdir hlisted hsummary =>
    obtain ⟨hfiles, -⟩ := Prod.mk.inj hlisted.eq_of_ok.1
    refine ⟨files, ?_, by rw [indexAll_eq]⟩
    rw [filesAt_of_some hdir, hfiles]

variable {μ : Type} [Monitor μ]

theorem exists_firstFiles_scanAll (s : Scanner) (fs : FileSystem) (r : Repository) (m : μ) (dirs : List Path) :
    ∃ files, files <+: dirs.flatMap (s.filesAt fs) ∧
      (s.scanAll fs r m dirs).repository = r.run (s.additions fs files) := by
  induction dirs generalizing r m with
  | nil => exact ⟨[], List.nil_prefix, rfl⟩
  | cons dir dirs ih =>
    rw [List.flatMap_cons]
    cases hscan : (s.scan fs r dir m).result with
    | error fault =>
      obtain ⟨files, hfiles, hrepository⟩ := (s.ends_scan fs r dir m).exists_firstFiles
      rw [scanAll_cons_of_error hscan]
      exact ⟨files, hfiles.trans (List.prefix_append _ _), hrepository⟩
    | ok summary =>
      obtain ⟨-, hrepository⟩ := scan_of_ok hscan
      obtain ⟨files, hfiles, hothers⟩ := ih (s.scan fs r dir m).repository (s.scan fs r dir m).monitor
      rw [scanAll_cons_of_ok hscan]
      refine ⟨s.filesAt fs dir ++ files, (List.prefix_append_right_inj _).mpr hfiles, hothers.trans ?_⟩
      rw [hrepository, additions_append, Repository.run_append]

theorem exists_firstFiles_rescan (s : Scanner) (fs : FileSystem) (r : Repository) (m : μ) (dirs : List Path) :
    ∃ files, files <+: dirs.flatMap (s.filesAt fs) ∧
      (s.rescan fs r dirs m).repository = r.run (.beginRescan :: s.additions fs files) := by
  obtain ⟨files, hfiles, hrepository⟩ := s.exists_firstFiles_scanAll fs r.beginRescan.repository m dirs
  refine ⟨files, hfiles, Eq.trans ?_ hrepository⟩
  cases hscanned : (s.scanAll fs r.beginRescan.repository m dirs).result with
  | error fault => rw [rescan_of_error hscanned]
  | ok summary => exact (rescan_of_scanned hscanned).2

end Scanner

/-! ### Sequences of scans -/

/-- A scan or a rescan as it is asked for, with the files as they are then. -/
inductive ScanRequest : Type 1 where
  | scan {μ : Type} [Monitor μ] (s : Scanner) (fs : FileSystem) (dir : Path) (m : μ)
  | rescan {μ : Type} [Monitor μ] (s : Scanner) (fs : FileSystem) (dirs : List Path) (m : μ)

namespace ScanRequest

def scanner : ScanRequest → Scanner
  | scan s _ _ _ | rescan s _ _ _ => s

def fileSystem : ScanRequest → FileSystem
  | scan _ fs _ _ | rescan _ fs _ _ => fs

def directories : ScanRequest → List Path
  | scan _ _ dir _ => [dir]
  | rescan _ _ dirs _ => dirs

/-- The repository behind the request, however it ends. -/
def repository (r : Repository) : ScanRequest → Repository
  | scan s fs dir m => (s.scan fs r dir m).repository
  | rescan s fs dirs m => (s.rescan fs r dirs m).repository

/-- The files that the request is about. -/
def files (q : ScanRequest) : List PendingFile :=
  q.directories.flatMap (q.scanner.filesAt q.fileSystem)

/-- These declarations can be read in a file of the request. -/
def Reads (q : ScanRequest) (f : PendingFile) (ds : List Declaration) : Prop :=
  f ∈ q.files ∧ q.scanner.declarationsOf q.fileSystem f = .ok ds

end ScanRequest

namespace Repository

/-- The repository behind a sequence of requests. -/
def serve (r : Repository) (requests : List ScanRequest) : Repository :=
  requests.foldl ScanRequest.repository r

/-- The repository holds only what was read: every file with the declarations that were read in it, and resources that
were among the declarations of some file. -/
structure ComesFrom (r : Repository) (reads : PendingFile → List Declaration → Prop) : Prop where
  indexes : ∃ live, r.Indexes live ∧ ∀ f ∈ live, reads f.indexed.pending f.declarations
  resources : ∀ p ∈ r.resources, ∃ f ds, reads f ds ∧ p ∈ ds.map Declaration.resource

variable {r : Repository} {reads : PendingFile → List Declaration → Prop}

theorem comesFrom_empty (reads : PendingFile → List Declaration → Prop) : ComesFrom {} reads where
  indexes := ⟨[], indexes_empty, List.forall_mem_nil _⟩
  resources _ hp := absurd hp List.not_mem_nil

namespace ComesFrom

theorem addition (h : r.ComesFrom reads) {f : PendingFile} {ds : List Declaration} (hread : reads f ds) :
    (r.apply (Scanner.addition f ds)).repository.ComesFrom reads := by
  obtain ⟨live, hindexes, hlive⟩ := h.indexes
  obtain ⟨created, hcreated, -, -, hmem⟩ := hindexes.coherent.events_addFile f.path f.folder f.configuration ds
  refine ⟨⟨_, hindexes.addFile f.path f.folder f.configuration ds, ?_⟩, fun p hp => ?_⟩
  · rw [List.forall_mem_append, List.forall_mem_singleton]
    exact ⟨hlive, hread⟩
  · have hp : p ∈ r.resources ++ created := hcreated ▸ hp
    obtain hold | hnew := List.mem_append.mp hp
    · exact h.resources p hold
    · exact ⟨f, ds, hread, ((hmem p).mp hnew).1⟩

theorem beginRescan (h : r.ComesFrom reads) : r.beginRescan.repository.ComesFrom reads where
  indexes := by
    obtain ⟨live, hindexes, -⟩ := h.indexes
    exact ⟨[], hindexes.beginRescan, List.forall_mem_nil _⟩
  resources p hp := h.resources p (resources_beginRescan r ▸ hp)

theorem run_additions {s : Scanner} {fs : FileSystem} {files : List PendingFile} (h : r.ComesFrom reads)
    (hreads : ∀ f ∈ files, ∀ ds, s.declarationsOf fs f = .ok ds → reads f ds) :
    (r.run (s.additions fs files)).ComesFrom reads := by
  induction files generalizing r with
  | nil => exact h
  | cons f files ih =>
    obtain ⟨hf, hfiles⟩ := List.forall_mem_cons.mp hreads
    cases hread : s.declarationsOf fs f with
    | error fault =>
      rw [Scanner.additions_cons_of_error hread]
      exact ih h hfiles
    | ok ds =>
      rw [Scanner.additions_cons_of_ok hread]
      exact ih (h.addition (hf ds hread)) hfiles

/-- A request adds nothing but what it reads. -/
theorem repository {q : ScanRequest} (h : r.ComesFrom reads) (hreads : ∀ f ds, q.Reads f ds → reads f ds) :
    (q.repository r).ComesFrom reads := by
  have hfiles {files : List PendingFile} (hfirst : files <+: q.files) :
      ∀ f ∈ files, ∀ ds, q.scanner.declarationsOf q.fileSystem f = .ok ds → reads f ds :=
    fun f hf ds hread => hreads f ds ⟨hfirst.subset hf, hread⟩
  cases q with
  | scan s fs dir m =>
    obtain ⟨files, hfirst, hrepository⟩ := (s.ends_scan fs r dir m).exists_firstFiles
    have hfirst : files <+: [dir].flatMap (s.filesAt fs) := by rwa [List.flatMap_singleton]
    rw [ScanRequest.repository, hrepository]
    exact h.run_additions (hfiles hfirst)
  | rescan s fs dirs m =>
    obtain ⟨files, hfirst, hrepository⟩ := s.exists_firstFiles_rescan fs r m dirs
    rw [ScanRequest.repository, hrepository]
    exact h.beginRescan.run_additions (hfiles hfirst)

theorem serve {requests : List ScanRequest} (h : r.ComesFrom reads)
    (hreads : ∀ q ∈ requests, ∀ f ds, q.Reads f ds → reads f ds) : (r.serve requests).ComesFrom reads := by
  induction requests generalizing r with
  | nil => exact h
  | cons q requests ih =>
    obtain ⟨hfirst, hothers⟩ := List.forall_mem_cons.mp hreads
    exact ih (h.repository hfirst) hothers

end ComesFrom

/-- What scans and rescans have put into an empty repository, one of them has read. -/
theorem comesFrom_serve (requests : List ScanRequest) :
    (serve {} requests).ComesFrom fun f ds => ∃ q ∈ requests, q.Reads f ds :=
  (comesFrom_empty _).serve fun q hq _ _ hread => ⟨q, hq, hread⟩

/-! ### Files and their resources -/

theorem ComesFrom.exists_read (h : r.ComesFrom reads) {f : SourceFile} (hf : f ∈ r.fileList) :
    ∃ ds, reads f.pending ds ∧ f.declarations = Declaration.merged ds := by
  obtain ⟨live, hindexes, hlive⟩ := h.indexes
  obtain ⟨g, hg, rfl⟩ := hindexes.mem_fileList.mp hf
  exact ⟨g.declarations, hlive g hg, rfl⟩

/-- The resources of an indexed file have items. -/
theorem Indexes.mem_resources {live : List LiveFile} (h : r.Indexes live) {f : SourceFile} (hf : f ∈ r.fileList)
    {p : ResourceType × String} (hp : p ∈ f.declarations.map Declaration.resource) : p ∈ r.resources := by
  obtain ⟨g, hg, rfl⟩ := h.mem_fileList.mp hf
  refine h.coherent.mem_resources fun hnone => ?_
  have hnot := (h.provided_eq_nil_iff p.1 p.2).mp hnone g hg
  rw [Declaration.mem_map_resource_iff, g.flag?_indexed, hnot] at hp
  exact hp rfl

end Repository

end ResourceIndex
