import ResourceIndex.Proofs.Declaration.InlineIds
import ResourceIndex.Proofs.FileSystem.Walk
import ResourceIndex.Proofs.Scan.Course
import ResourceIndex.Proofs.Scan.Kept

/-!
# Scans with and without inline ids

Two scans of one tree, of which only the one looks for ids inside layouts and menus, list the same folders, go over the
same files and end alike. They keep the same of every file but for the ids declared in passing, save for one kind of
file: a layout or menu that is no text is indexed by the scan that does not look into it, and passed over by the other.
-/

namespace ResourceIndex

/-- The file is a layout or menu by its place and name, and no text can be read from it. -/
def PendingFile.isIllegible (fs : FileSystem) (f : PendingFile) : Bool :=
  f.folder.canDeclareIds && f.path.hasExtension "xml" && (Scanner.resourceName? f.path).isSome &&
    !(fs.readText f.path).isOk

/-- The indexed files that are no text though they are layouts or menus. -/
def Repository.illegible (r : Repository) (fs : FileSystem) : List SourceFile :=
  r.fileList.filter fun f => f.pending.isIllegible fs

/-- The two summaries differ in these files: the first one counts them as passed over, the second one as indexed. -/
structure ScanSummary.DiffersIn (a b : ScanSummary) (paths : List Path) : Prop where
  skippedFolders_eq : a.skippedFolders = b.skippedFolders
  files_eq : b.files = a.files + paths.length
  skippedFiles_sublist : b.skippedFiles.Sublist a.skippedFiles
  skippedFiles_perm : a.skippedFiles.Perm (b.skippedFiles ++ paths)

/-- How a scan that looks for ids and one that does not differ. -/
structure ScanOutcome.DiffersInIds {μ : Type} (fs : FileSystem) (on off : ScanOutcome μ ScanSummary) : Prop where
  fileList_eq : on.repository.fileList.map (fun f => (f.pending, Declaration.withoutInlineIds f.declarations)) =
    (off.repository.fileList.filter fun f => !f.pending.isIllegible fs).map fun f => (f.pending, f.declarations)
  error_iff : ∀ fault, on.result = .error fault ↔ off.result = .error fault
  summary : ∀ a b, on.result = .ok a → off.result = .ok b →
    a.DiffersIn b ((off.repository.illegible fs).map (·.path))

namespace Scanner

variable {s : Scanner} {fs : FileSystem} {f : PendingFile} {files : List PendingFile}

/-- The scanner, set to look for ids inside layouts and menus or not to. -/
def reading (s : Scanner) (ids : Bool) : Scanner :=
  { s with readsInlineIds := ids }

/-! ### One file -/

theorem map_withoutInlineIds_valuesDeclarations (fs : FileSystem) (p : Path) :
    (valuesDeclarations fs p).map Declaration.withoutInlineIds = valuesDeclarations fs p := by
  rw [valuesDeclarations]
  split
  next =>
    cases readText fs p with
    | error fault => rfl
    | ok text =>
      cases hread : Values.declarations text with
      | error fault => simp [bind, Except.bind, hread, Except.map]
      | ok ds =>
        have hkept : Declaration.withoutInlineIds ds = ds :=
          List.filter_eq_self.mpr fun d hd => by simp [Declaration.isInlineId, Values.isInline_of_mem hread d hd]
        simp [bind, Except.bind, hread, Except.map, hkept]
  next => rfl

/-- What is found inside a file that is no illegible layout or menu are ids in passing. -/
theorem exists_inlineDeclarations (s : Scanner) (hnamed : (resourceName? f.path).isSome)
    (h : f.isIllegible fs = false) : ∃ ids, s.inlineDeclarations fs f = .ok ids ∧ ∀ d ∈ ids, d.isInlineId := by
  rw [inlineDeclarations]
  split
  next hread =>
    simp only [Bool.and_eq_true] at hread
    obtain ⟨⟨-, hfolder⟩, hxml⟩ := hread
    cases htext : fs.readText f.path with
    | error fault =>
      simp [PendingFile.isIllegible, hfolder, hxml, hnamed, htext, Except.isOk, Except.toBool] at h
    | ok text =>
      refine ⟨(InlineIds.declarations text).toOption.getD [], ?_, ?_⟩
      · simp [readText, htext, bind, Except.bind, pure, Except.pure]
      · cases hids : InlineIds.declarations text with
        | error fault => exact List.forall_mem_nil _
        | ok ids => exact InlineIds.isInlineId_of_mem hids
  next => exact ⟨[], rfl, List.forall_mem_nil _⟩

theorem declarationsOf_of_isIllegible (s : Scanner) (h : f.isIllegible fs) :
    (∃ fault, (s.reading true).declarationsOf fs f = .error fault) ∧
      ∃ d, (s.reading false).declarationsOf fs f = .ok [d] := by
  simp only [PendingFile.isIllegible, Bool.and_eq_true, Bool.not_eq_true'] at h
  obtain ⟨⟨⟨hfolder, hxml⟩, hnamed⟩, htext⟩ := h
  obtain ⟨name, hname⟩ := Option.isSome_iff_exists.mp hnamed
  obtain ⟨type, htype⟩ : ∃ type, f.folder.resourceType? = some type := by
    cases hcases : f.folder <;> simp [FolderType.canDeclareIds, FolderType.resourceType?, hcases] at hfolder ⊢
  cases hread : fs.readText f.path with
  | ok text => simp [hread, Except.isOk, Except.toBool] at htext
  | error fault =>
    refine ⟨⟨.file fault.message, ?_⟩, ⟨{ type := type, name := name }, ?_⟩⟩
    · simp [declarationsOf, htype, hname, inlineDeclarations, reading, hfolder, hxml, readText, hread,
        bind, Except.bind]
    · simp [declarationsOf, htype, hname, inlineDeclarations, reading, bind, Except.bind, pure, Except.pure]

/-- Of every other file both scanners say the same, but for ids in passing. -/
theorem declarationsOf_of_legible (s : Scanner) (h : f.isIllegible fs = false) :
    (s.reading false).declarationsOf fs f =
      ((s.reading true).declarationsOf fs f).map Declaration.withoutInlineIds := by
  cases htype : f.folder.resourceType? with
  | none =>
    simp only [declarationsOf, htype]
    exact (map_withoutInlineIds_valuesDeclarations fs f.path).symm
  | some type =>
    cases hname : resourceName? f.path with
    | none => simp [declarationsOf, htype, hname, Except.map]
    | some name =>
      have hnamed : (resourceName? f.path).isSome := by rw [hname]; rfl
      obtain ⟨ids, hids, hinline⟩ := (s.reading true).exists_inlineDeclarations hnamed h
      have hoff : (s.reading false).inlineDeclarations fs f = .ok [] := rfl
      have hnone : Declaration.withoutInlineIds ids = [] :=
        List.filter_eq_nil_iff.mpr fun d hd => by simp [hinline d hd]
      have hown : Declaration.withoutInlineIds ({ type := type, name := name } :: ids) =
          [{ type := type, name := name }] := by
        rw [Declaration.withoutInlineIds_cons, hnone]
        simp [Declaration.isInlineId]
      simp [declarationsOf, htype, hname, hids, hoff, bind, Except.bind, pure, Except.pure, Except.map, hown]

/-! ### All files -/

/-- How the two scanners go over a list of files. -/
structure DifferInIds (on off : Scanner) (fs : FileSystem) (files : List PendingFile) : Prop where
  kept_eq : (on.kept fs files).map (fun p => (p.1, Declaration.withoutInlineIds p.2)) =
    (off.kept fs files).filter fun p => !p.1.isIllegible fs
  illegible_eq : ((off.kept fs files).map (·.1)).filter (·.isIllegible fs) = files.filter (·.isIllegible fs)
  unreadable_sublist : (off.unreadable fs files).Sublist (on.unreadable fs files)
  unreadable_perm : (on.unreadable fs files).Perm (off.unreadable fs files ++ files.filter (·.isIllegible fs))

theorem differInIds_reading (s : Scanner) (fs : FileSystem) (files : List PendingFile) :
    DifferInIds (s.reading true) (s.reading false) fs files := by
  induction files with
  | nil => exact ⟨rfl, rfl, .slnil, .nil⟩
  | cons f files ih =>
    obtain ⟨hkept, hillegible, hsublist, hperm⟩ := ih
    cases hf : f.isIllegible fs with
    | true =>
      obtain ⟨⟨fault, hon⟩, d, hoff⟩ := s.declarationsOf_of_isIllegible hf
      constructor
      · rw [kept_cons_of_error hon, kept_cons_of_ok hoff, List.filter_cons_of_neg (by simp [hf]), hkept]
      · rw [kept_cons_of_ok hoff, List.map_cons, List.filter_cons_of_pos hf, List.filter_cons_of_pos hf, hillegible]
      · rw [unreadable_cons_of_error hon, unreadable_cons_of_ok hoff]
        exact hsublist.cons f
      · rw [unreadable_cons_of_error hon, unreadable_cons_of_ok hoff, List.filter_cons_of_pos hf]
        exact (hperm.cons f).trans List.perm_middle.symm
    | false =>
      have halike := s.declarationsOf_of_legible hf
      have hneg : ¬f.isIllegible fs = true := by simp [hf]
      cases hon : (s.reading true).declarationsOf fs f with
      | error fault =>
        have hoff : (s.reading false).declarationsOf fs f = .error fault := by rw [halike, hon]; rfl
        constructor
        · rw [kept_cons_of_error hon, kept_cons_of_error hoff, hkept]
        · rw [kept_cons_of_error hoff, hillegible, List.filter_cons_of_neg hneg]
        · rw [unreadable_cons_of_error hon, unreadable_cons_of_error hoff]
          exact hsublist.cons_cons f
        · rw [unreadable_cons_of_error hon, unreadable_cons_of_error hoff, List.filter_cons_of_neg hneg]
          exact hperm.cons f
      | ok ds =>
        have hoff : (s.reading false).declarationsOf fs f = .ok (Declaration.withoutInlineIds ds) := by
          rw [halike, hon]; rfl
        constructor
        · rw [kept_cons_of_ok hon, kept_cons_of_ok hoff, List.map_cons, hkept, List.filter_cons_of_pos (by simp [hf]),
            Declaration.merged_withoutInlineIds]
        · rw [kept_cons_of_ok hoff, List.map_cons, List.filter_cons_of_neg hneg, List.filter_cons_of_neg hneg,
            hillegible]
        · rw [unreadable_cons_of_ok hon, unreadable_cons_of_ok hoff]
          exact hsublist
        · rw [unreadable_cons_of_ok hon, unreadable_cons_of_ok hoff, List.filter_cons_of_neg hneg]
          exact hperm

/-! ### One course for both -/

section Course

variable {μ : Type} [Monitor μ] {m : μ}

/-- What is listed does not depend on what is read. -/
theorem collectFrom_reading (s : Scanner) (ids : Bool) (fs : FileSystem) (dir : Path) (m : μ)
    (entries : List (String × Node)) :
    (s.reading ids).collectFrom fs dir m entries = s.collectFrom fs dir m entries := by
  induction entries generalizing m with
  | nil => rfl
  | cons entry entries ih =>
    obtain ⟨name, node⟩ := entry
    have hignores : (s.reading ids).ignores = s.ignores := rfl
    have hpending : (s.reading ids).pendingIn fs = s.pendingIn fs := rfl
    simp only [collectFrom, ih, hignores, hpending]

/-- Scanners stop at the same file, whatever they make of the files before. -/
theorem exists_indexFiles_alike (s t : Scanner) (fs : FileSystem) (count : Nat) (p q : Progress) (m : μ)
    (files : List PendingFile) :
    ∃ result before behind, s.indexFiles fs count p m files = (result, s.indexAll fs p before, behind) ∧
      t.indexFiles fs count q m files = (result, t.indexAll fs q before, behind) := by
  induction files generalizing count p q m with
  | nil => exact ⟨.ok (), [], m, rfl, rfl⟩
  | cons f files ih =>
    rw [indexFiles_cons, indexFiles_cons]
    cases hstop : (Monitor.cancelled m).1 with
    | true => exact ⟨.error .cancelled, [], (Monitor.cancelled m).2, rfl, rfl⟩
    | false =>
      obtain ⟨result, before, behind, hs, ht⟩ := ih (count + 1) (s.indexFile fs p f) (t.indexFile fs q f)
        (afterFile count f m)
      exact ⟨result, f :: before, behind, hs, ht⟩

variable {on off : Scanner} {r : Repository}

theorem DifferInIds.fileList_eq (h : DifferInIds on off fs files) :
    ((Repository.run {} (on.additions fs files)).fileList.map fun f =>
        (f.pending, Declaration.withoutInlineIds f.declarations)) =
      ((Repository.run {} (off.additions fs files)).fileList.filter fun f => !f.pending.isIllegible fs).map fun f =>
        (f.pending, f.declarations) := by
  have hoff := off.map_fileList_run_empty fs files
  have hkept := h.kept_eq
  rw [← on.map_fileList_run_empty fs files, ← hoff, List.map_map, List.filter_map] at hkept
  exact hkept

theorem DifferInIds.illegible_run (h : DifferInIds on off fs files) :
    ((Repository.run {} (off.additions fs files)).illegible fs).map SourceFile.pending =
      files.filter (·.isIllegible fs) := by
  have hlost := h.illegible_eq
  rw [← off.map_fileList_run_empty fs files, List.map_map, List.filter_map] at hlost
  exact hlost

theorem DifferInIds.summary (h : DifferInIds on off fs files) (skipped : List String) :
    ScanSummary.DiffersIn
      { (on.indexAll fs { repository := {} } files).summary with skippedFolders := skipped }
      { (off.indexAll fs { repository := {} } files).summary with skippedFolders := skipped }
      (((off.indexAll fs { repository := {} } files).repository.illegible fs).map (·.path)) := by
  have hpaths : (((off.indexAll fs { repository := {} } files).repository.illegible fs).map (·.path)) =
      (files.filter (·.isIllegible fs)).map (·.path) := by
    rw [indexAll_eq, ← h.illegible_run, List.map_map]
    rfl
  have hperm := h.unreadable_perm.map (·.path)
  rw [hpaths, indexAll_eq, indexAll_eq]
  refine ⟨rfl, ?_, h.unreadable_sublist.map _, by rwa [List.map_append] at hperm⟩
  have hon := on.length_additions_add_length_unreadable fs files
  have hoff := off.length_additions_add_length_unreadable fs files
  have hlength := h.unreadable_perm.length_eq
  rw [List.length_append] at hlength
  simp only [List.length_map]
  omega

theorem scan_reading_differsInIds (s : Scanner) (fs : FileSystem) (dir : Path) (m : μ) :
    ((s.reading true).scan fs {} dir m).DiffersInIds fs ((s.reading false).scan fs {} dir m) := by
  cases hdir : fs.directory? dir with
  | none =>
    rw [scan_of_none hdir, scan_of_none hdir]
    exact ⟨by simp, fun _ => Iff.rfl, fun _ _ h => absurd h (by simp)⟩
  | some l =>
    rcases hlisted : s.collectFrom fs dir (Monitor.describe ("Listing " ++ dir.text) m) (fs.entries l)
      with ⟨fault | ⟨files, skipped⟩, listed⟩
    · have halike (ids : Bool) := (s.collectFrom_reading ids fs dir _ _).trans hlisted
      rw [scan_of_unlisted hdir (halike true), scan_of_unlisted hdir (halike false)]
      exact ⟨by simp, fun _ => Iff.rfl, fun _ _ h => absurd h (by simp)⟩
    · have halike (ids : Bool) := (s.collectFrom_reading ids fs dir _ _).trans hlisted
      obtain ⟨result, before, behind, hon, hoff⟩ := exists_indexFiles_alike (s.reading true) (s.reading false) fs 0
        { repository := {} } { repository := {} } (Monitor.setMaximum (Text.saturated files.length) listed) files
      have hdiffer := s.differInIds_reading fs before
      have hlist := hdiffer.fileList_eq
      cases result with
      | error fault =>
        rw [scan_of_stopped hdir (halike true) hon, scan_of_stopped hdir (halike false) hoff]
        refine ⟨?_, fun _ => Iff.rfl, fun _ _ h => absurd h (by simp)⟩
        rw [indexAll_eq, indexAll_eq]
        exact hlist
      | ok _ =>
        rw [scan_of_done hdir (halike true) hon, scan_of_done hdir (halike false) hoff]
        refine ⟨?_, fun _ => iff_of_false (by simp) (by simp), fun a b ha hb => ?_⟩
        · rw [indexAll_eq, indexAll_eq]
          exact hlist
        · obtain rfl := Except.ok.inj ha
          obtain rfl := Except.ok.inj hb
          exact hdiffer.summary skipped

/-- Turning the search for inline ids off changes nothing but inline ids, whatever the tree and the monitor, except for
layouts and menus that are no text. -/
theorem scan_differsInIds (settings : Settings) (fs : FileSystem) (dir : Path) (m : μ) :
    (∃ fault, ∀ ids, ofSettings { settings with scanInlineIds := ids } = .error fault) ∨
      ∃ s : Scanner, (∀ ids, ofSettings { settings with scanInlineIds := ids } = .ok (s.reading ids)) ∧
        ((s.reading true).scan fs {} dir m).DiffersInIds fs ((s.reading false).scan fs {} dir m) := by
  cases hpatterns : settings.ignorePatterns.mapM pattern with
  | error fault => exact .inl ⟨fault, fun ids => by simp [ofSettings, hpatterns, bind, Except.bind]⟩
  | ok ignored =>
    refine .inr ⟨⟨ignored, true⟩, fun ids => ?_, scan_reading_differsInIds _ fs dir m⟩
    simp [ofSettings, hpatterns, reading, bind, Except.bind, pure, Except.pure]

end Course

/-- A layout that is no text: the scan that looks for ids passes it over, and the other one indexes it. -/
theorem scan_illegible_layout :
    let fs : FileSystem := ⟨[(["layout"], .directory), (["layout", "main.xml"], .file ⟨#[0xff]⟩)], []⟩
    let settings : Settings := { ignorePatterns := [] }
    let m : LogMonitor := { answer := true }
    ∃ on off, ofSettings { settings with scanInlineIds := true } = .ok on ∧
      ofSettings { settings with scanInlineIds := false } = .ok off ∧
      (on.scan fs {} ⟨"."⟩ m).result = .ok { skippedFiles := [⟨"./layout/main.xml"⟩] } ∧
      (off.scan fs {} ⟨"."⟩ m).result = .ok { files := 1, resources := 1 } := by
  intro fs settings m
  have hdir : fs.directory? ⟨"."⟩ = some [] := FileSystem.directory?_dot rfl
  have hlayout : FileSystem.IsEntryName "layout" := by decide
  have hmain : FileSystem.IsEntryName "main.xml" := by decide
  have hjoin : (⟨"."⟩ : Path).join "layout" = ⟨"./layout"⟩ := by rfl
  have hjoinMain : (⟨"./layout"⟩ : Path).join "main.xml" = ⟨"./layout/main.xml"⟩ := by rfl
  have hfolder : fs.find ⟨"./layout"⟩ = .ok (["layout"], .directory) := by
    rw [← hjoin]
    exact FileSystem.find_join_eq_ok hdir hlayout rfl (by simp) (by decide) (by decide)
  have hfile : fs.find ⟨"./layout/main.xml"⟩ = .ok (["layout", "main.xml"], .file ⟨#[0xff]⟩) := by
    rw [← hjoinMain]
    have hinner := FileSystem.directory?_eq_some_iff.mpr hfolder
    exact FileSystem.find_join_eq_ok hinner hmain rfl (by simp) (by decide) (by decide)
  have hentries : fs.entries [] = [("layout", .directory)] := FileSystem.entries_eq_of_ascending rfl (by decide)
  have hinside : fs.entries ["layout"] = [("main.xml", .file ⟨#[0xff]⟩)] :=
    FileSystem.entries_eq_of_ascending rfl (by decide)
  have hlisted (ids : Bool) (m : LogMonitor) : collectFrom ⟨[], ids⟩ fs ⟨"."⟩ m (fs.entries []) =
      (.ok ([⟨⟨"./layout/main.xml"⟩, .layout, {}⟩], []), m) := by
    have hname : Folder.ofName? "layout" = some ⟨.layout, {}⟩ := by decide
    rw [hentries]
    simp [collectFrom, Node.isDirectory, ignores, hname, pendingIn, hjoin, hfolder, hinside, Except.map]
    rfl
  have hread : fs.readText ⟨"./layout/main.xml"⟩ = .error .notText := by
    simp [FileSystem.readText, hfile, bind, Except.bind]
    rfl
  refine ⟨⟨[], true⟩, ⟨[], false⟩, rfl, rfl, ?_, ?_⟩
  · have hskipped : declarationsOf ⟨[], true⟩ fs ⟨⟨"./layout/main.xml"⟩, .layout, {}⟩ =
        .error (.file "stream did not contain valid UTF-8") := by
      have hname : resourceName? ⟨"./layout/main.xml"⟩ = some "main" := by rfl
      have hxml : (⟨"./layout/main.xml"⟩ : Path).hasExtension "xml" := by rfl
      simp [declarationsOf, FolderType.resourceType?, hname, inlineDeclarations, FolderType.canDeclareIds, hxml,
        readText, hread, bind, Except.bind]
      rfl
    simp [scan, hdir, hlisted, indexFiles, indexFile, hskipped]
    exact ⟨rfl, rfl, rfl⟩
  · have hindexed : declarationsOf ⟨[], false⟩ fs ⟨⟨"./layout/main.xml"⟩, .layout, {}⟩ =
        .ok [⟨.layout, "main", false⟩] := by rfl
    simp [scan, hdir, hlisted, indexFiles, indexFile, hindexed]
    exact ⟨rfl, rfl, rfl⟩

end Scanner

end ResourceIndex
