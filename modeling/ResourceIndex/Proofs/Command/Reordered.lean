import ResourceIndex.Proofs.Command.Agreement
import ResourceIndex.Proofs.Repository.Reordered

/-!
# Directories in another order

A command that goes over its directories in another order builds another index, with other ids, handles and orders of
variants, and yet reports the same. If the monitor is steady, each directory passes or not by itself, and the files that
are added are the same up to their order. The reported resources stand in an order of their own.
-/

namespace ResourceIndex

/-! ### Reports on repositories -/

section Reports

open Repository

variable {a b : Repository}

/-- Compares what is reported on, by type, and then by name. -/
def ResourceReport.compareKey (e f : ResourceReport) : Ordering :=
  (compare e.type f.type).then (compare e.name f.name)

instance : Std.TransCmp ResourceReport.compareKey :=
  inferInstanceAs (Std.TransCmp (compareLex (compareOn ResourceReport.type) (compareOn ResourceReport.name)))

theorem Repository.Coherent.resources_ascending {r : Repository} (hr : r.Coherent) (summary : ScanSummary) :
    (ScanReport.ofRepository summary r).resources.Pairwise fun e f => e.compareKey f = .lt := by
  rw [ScanReport.resources_ofRepository, List.pairwise_map]
  exact hr.visited_ascending

theorem Repository.SameKinds.mem_resources (h : a.SameKinds b) (ha : a.Coherent) (hb : b.Coherent)
    {summary other : ScanSummary} {e : ResourceReport} (he : e ∈ (ScanReport.ofRepository summary a).resources) :
    e ∈ (ScanReport.ofRepository other b).resources := by
  obtain ⟨i, hi, hfilled, heq⟩ := ha.find?_of_mem_resources he
  have hkinds := h e.type e.name
  have hne : b.provided e.type e.name ≠ [] := by
    intro hnil
    rw [kinds_of_find? hi, kinds, hnil, List.map_nil, List.perm_nil, ← List.length_eq_zero_iff, i.length_kinds]
      at hkinds
    rw [Item.hasNoVariants, List.isEmpty_eq_false_iff, ne_eq, ← List.length_eq_zero_iff] at hfilled
    exact hfilled hkinds
  obtain ⟨j, hj, hcontributions⟩ := find?_of_provided_ne_nil hne
  have hjfilled : j.hasNoVariants = false := by
    rw [Bool.eq_false_iff, ne_eq, j.hasNoVariants_iff, hcontributions]
    exact hne
  rw [kinds_of_find? hi, kinds_of_find? hj] at hkinds
  have hname : i.name = j.name := (ha.name_of_find? hi).trans (hb.name_of_find? hj).symm
  rw [heq, ResourceReport.ofItem_eq_of_perm hname hkinds]
  exact hb.mem_resources_ofRepository hj hjfilled

/-- Indexes of the same kinds of contributions are reported alike. -/
theorem Repository.SameKinds.resources_eq (h : a.SameKinds b) (ha : a.Coherent) (hb : b.Coherent)
    (summary other : ScanSummary) :
    (ScanReport.ofRepository other b).resources = (ScanReport.ofRepository summary a).resources := by
  exact eq_of_pairwise_lt (hb.resources_ascending other) (ha.resources_ascending summary) fun e =>
    ⟨h.symm.mem_resources hb ha, h.mem_resources ha hb⟩

end Reports

/-- The reports tell the same of the resources, in the same order, and count the same files and declarations. What was
passed over is the same up to its order. -/
structure ScanReport.SameUpToOrder (report other : ScanReport) : Prop where
  resources : other.resources = report.resources
  files : other.summary.files = report.summary.files
  declared : other.summary.resources = report.summary.resources
  skippedFolders : other.summary.skippedFolders.Perm report.summary.skippedFolders
  skippedFiles : other.summary.skippedFiles.Perm report.summary.skippedFiles

namespace Scanner

/-- Going over files in another order, an index and a summary end up alike in all that is reported. -/
theorem sameUpToOrder_of_perm (s : Scanner) (fs : FileSystem) {files more : List PendingFile}
    {folders others : List String} (hfiles : files.Perm more) (hfolders : folders.Perm others) :
    (ScanReport.ofRepository (s.tally fs files folders) (.run {} (s.additions fs files))).SameUpToOrder
      (.ofRepository (s.tally fs more others) (.run {} (s.additions fs more))) := by
  have hadditions : (s.additions fs files).Perm (s.additions fs more) := hfiles.filterMap _
  have hkinds : ∀ op ∈ s.additions fs files, op.IsAddition := by
    intro op hop
    obtain ⟨f, -, declarations, rfl⟩ := exists_of_mem_additions hop
    trivial
  constructor
  · exact (Repository.coherent_empty.sameKinds_run hkinds hadditions).resources_eq (Repository.coherent_run _)
      (Repository.coherent_run _) _ _
  · exact hadditions.length_eq.symm
  · exact (hfiles.flatMap_right _).length_eq.symm
  · exact hfolders.symm
  · exact ((hfiles.filter _).map _).symm

end Scanner

namespace Command

variable {μ ν : Type} [Monitor μ] [Monitor ν] {s : Settings} {fs : FileSystem} {dirs others : List Path} {answer : Bool}
  {m : μ} {n : ν}

theorem scan_eq_ok {report : ScanReport} (h : (scan s fs dirs m).1 = .ok report) :
    ∃ scanner, Scanner.ofSettings s = .ok scanner ∧
      report = .ofRepository
        (scanner.tally fs (dirs.flatMap (scanner.filesAt fs)) (dirs.flatMap (scanner.unnamedAt fs)))
        (.run {} (scanner.additions fs (dirs.flatMap (scanner.filesAt fs)))) := by
  obtain ⟨r, summary, hbuild, rfl⟩ := scan_eq_ok_iff.mp h
  obtain ⟨scanner, done, hscanner, hdone, rfl, rfl⟩ := build_eq_ok_iff.mp hbuild
  obtain ⟨htally, hrepository⟩ := Scanner.rescan_of_ok hdone
  refine ⟨scanner, hscanner, ?_⟩
  rw [htally, hrepository]
  -- there is nothing to reset in an empty index
  rfl

/-- With a steady monitor, a command succeeds exactly if every directory passes. -/
theorem exists_ok_scan_iff (hm : Monitor.Answers answer m) :
    (∃ report, (scan s fs dirs m).1 = .ok report) ↔
      ∃ scanner, Scanner.ofSettings s = .ok scanner ∧ ∀ dir ∈ dirs, scanner.Passes fs answer dir := by
  constructor
  · rintro ⟨report, hreport⟩
    obtain ⟨r, summary, hbuild, -⟩ := scan_eq_ok_iff.mp hreport
    obtain ⟨scanner, done, hscanner, hdone, -⟩ := build_eq_ok_iff.mp hbuild
    exact ⟨scanner, hscanner, (Scanner.exists_ok_rescan_iff hm {}).mp ⟨done, hdone⟩⟩
  · rintro ⟨scanner, hscanner, hpasses⟩
    obtain ⟨done, hdone⟩ := (Scanner.exists_ok_rescan_iff hm {}).mpr hpasses
    exact ⟨_, scan_eq_ok_iff.mpr ⟨_, _, build_eq_ok_iff.mpr ⟨scanner, done, hscanner, hdone, rfl, rfl⟩, rfl⟩⟩

/-- The order of the directories does not show in what is reported. With monitors that never stop the work and give the
same answer to every question, a command on directories in two orders, in which directories may be repeated, succeeds
on both or on neither, and then the reports are the same but for the order of what was passed over. -/
theorem scan_sameUpToOrder (s : Settings) (fs : FileSystem) (hdirs : dirs.Perm others) (hm : Monitor.Answers answer m)
    (hn : Monitor.Answers answer n) :
    ((∃ report, (scan s fs dirs m).1 = .ok report) ↔ ∃ other, (scan s fs others n).1 = .ok other) ∧
      ∀ report other, (scan s fs dirs m).1 = .ok report → (scan s fs others n).1 = .ok other →
        report.SameUpToOrder other := by
  refine ⟨?_, fun report other hreport hother => ?_⟩
  · rw [exists_ok_scan_iff hm, exists_ok_scan_iff hn]
    simp only [hdirs.mem_iff]
  · obtain ⟨scanner, hscanner, rfl⟩ := scan_eq_ok hreport
    obtain ⟨same, hsame, rfl⟩ := scan_eq_ok hother
    obtain rfl : scanner = same := Except.ok.inj (hscanner.symm.trans hsame)
    exact scanner.sameUpToOrder_of_perm fs (hdirs.flatMap_right _) (hdirs.flatMap_right _)

/-- A picture and a variant of it in two directories, the second of which has a folder that is passed over. -/
theorem scan_sameUpToOrder_icon :
    let fs : FileSystem :=
      ⟨[(["main"], .directory), (["main", "drawable"], .directory), (["main", "drawable", "icon.png"], .file .empty),
        (["test"], .directory), (["test", "drawable-land"], .directory),
        (["test", "drawable-land", "icon.png"], .file .empty), (["test", "odd"], .directory)], []⟩
    let s : Settings := { ignorePatterns := [] }
    let m : LogMonitor := { answer := true }
    let main : Path := (⟨"."⟩ : Path).join "main"
    let test : Path := (⟨"."⟩ : Path).join "test"
    let dirs := [main, test]
    ∃ report other, (scan s fs dirs m).1 = .ok report ∧ (scan s fs dirs.reverse m).1 = .ok other ∧
      report.SameUpToOrder other ∧ report.resources = [⟨.drawable, "icon", 2, 1, true, false, false⟩] ∧
      report.summary = { files := 2, resources := 2, skippedFolders := ["odd"] } := by
  intro fs s m main test dirs
  let scanner : Scanner := ⟨[], true⟩
  have hscanner : Scanner.ofSettings s = .ok scanner := by rfl
  have hroot : fs.directory? ⟨"."⟩ = some [] := FileSystem.directory?_dot rfl
  have hmain : fs.directory? main = some ["main"] :=
    FileSystem.directory?_eq_some_iff.mpr
      (FileSystem.find_join_eq_ok hroot (by decide) rfl (by simp) (by decide) (by decide))
  have htest : fs.directory? test = some ["test"] :=
    FileSystem.directory?_eq_some_iff.mpr
      (FileSystem.find_join_eq_ok hroot (by decide) rfl (by simp) (by decide) (by decide))
  have hinMain : fs.entries ["main"] = [("drawable", .directory)] := FileSystem.entries_eq_of_ascending rfl (by decide)
  have hinTest : fs.entries ["test"] = [("drawable-land", .directory), ("odd", .directory)] :=
    FileSystem.entries_eq_of_ascending rfl (by decide)
  have hplain : fs.entries ["main", "drawable"] = [("icon.png", .file .empty)] :=
    FileSystem.entries_eq_of_ascending rfl (by decide)
  have hland : fs.entries ["test", "drawable-land"] = [("icon.png", .file .empty)] :=
    FileSystem.entries_eq_of_ascending rfl (by decide)
  have hfindPlain : fs.find (main.join "drawable") = .ok (["main", "drawable"], .directory) :=
    FileSystem.find_join_eq_ok hmain (by decide) rfl (by simp) (by decide) (by decide)
  have hfindLand : fs.find (test.join "drawable-land") = .ok (["test", "drawable-land"], .directory) :=
    FileSystem.find_join_eq_ok htest (by decide) rfl (by simp) (by decide) (by decide)
  have hm := LogMonitor.answers (m := m) rfl
  have hpasses : ∀ dir ∈ dirs, scanner.Passes fs true dir := by
    rw [List.forall_mem_cons, List.forall_mem_singleton]
    refine ⟨⟨_, hmain, ?_, by simp⟩, ⟨_, htest, ?_, by simp⟩⟩
    · rw [hinMain, List.forall_mem_singleton]
      exact fun _ _ => by rw [FileSystem.isPresent, hfindPlain]; rfl
    · rw [hinTest, List.forall_mem_cons, List.forall_mem_singleton]
      exact ⟨fun _ _ => by rw [FileSystem.isPresent, hfindLand]; rfl, fun _ hname => absurd hname (by decide)⟩
  obtain ⟨hboth, hsame⟩ := scan_sameUpToOrder s fs dirs.reverse_perm.symm hm hm
  obtain ⟨report, hreport⟩ := (exists_ok_scan_iff hm).mpr ⟨scanner, hscanner, hpasses⟩
  obtain ⟨other, hother⟩ := hboth.mp ⟨report, hreport⟩
  obtain ⟨_, h, heq⟩ := scan_eq_ok hreport
  obtain rfl := Except.ok.inj (hscanner.symm.trans h)
  have hofPlain : Folder.ofName? "drawable" = some ⟨.drawable, {}⟩ := by decide
  have hofLand : Folder.ofName? "drawable-land" = some ⟨.drawable, { orientation := some .landscape }⟩ := by decide
  have hofOdd : Folder.ofName? "odd" = none := by decide
  have hfiles : dirs.flatMap (scanner.filesAt fs) = [⟨⟨"./main/drawable/icon.png"⟩, .drawable, {}⟩,
      ⟨⟨"./test/drawable-land/icon.png"⟩, .drawable, { orientation := some .landscape }⟩] := by
    simp [dirs, Scanner.filesAt_of_some hmain, Scanner.filesAt_of_some htest, hinMain, hinTest, Scanner.filesIn,
      Scanner.filesOf, Scanner.considers, Node.isDirectory, scanner, Scanner.ignores, hofPlain, hofLand, hofOdd,
      Scanner.pendingIn, hfindPlain, hfindLand, hplain, hland, Except.toOption]
    exact ⟨by decide +kernel, by decide +kernel⟩
  have hfolders : dirs.flatMap (scanner.unnamedAt fs) = ["odd"] := by
    simp [dirs, Scanner.unnamedAt_of_some hmain, Scanner.unnamedAt_of_some htest, hinMain, hinTest, Scanner.unnamedIn,
      Scanner.considers, Node.isDirectory, scanner, Scanner.ignores, hofPlain, hofLand, hofOdd]
  rw [hfiles, hfolders] at heq
  refine ⟨report, other, hreport, hother, hsame report other hreport hother, ?_, ?_⟩
  · rw [heq]
    decide
  · rw [heq]
    decide

end Command

end ResourceIndex
