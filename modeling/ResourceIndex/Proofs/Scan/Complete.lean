import ResourceIndex.Proofs.Scan.Course
import ResourceIndex.Proofs.Scan.Eligible

/-!
# Complete scans

A scan that is neither stopped nor refused a folder ends well if every folder can be listed. It adds exactly the
eligible files that can be read, once each and in order, and its summary accounts for every eligible file and every
folder without a meaning.
-/

namespace ResourceIndex.Scanner

/-- What a scan that ended well has done, if these are the files that it was about. -/
structure Completed (s : Scanner) (fs : FileSystem) (r : Repository) (dir : Path) (files : List PendingFile)
    (summary : ScanSummary) (repository : Repository) (events : List Event) : Prop where
  eligible : s.EligibleIn fs dir files
  repository_eq : repository = r.run (s.additions fs files)
  events_eq : events = r.announced (s.additions fs files)
  skippedFolders : ∃ l, fs.directory? dir = some l ∧ s.Unnamed fs l summary.skippedFolders
  skippedFiles_eq : summary.skippedFiles = (s.unreadable fs files).map (·.path)
  files_eq : summary.files = (s.additions fs files).length
  total : summary.files + summary.skippedFiles.length = files.length

variable {s : Scanner} {fs : FileSystem} {r repository : Repository} {dir : Path} {l : Location} {events : List Event}
  {calls : List Call}

theorem Ends.exists_completed (hfs : fs.WellFormed) {summary : ScanSummary}
    (h : s.Ends fs r dir (.ok summary) repository events calls) :
    ∃ files, s.Completed fs r dir files summary repository events := by
  cases h with
  | @done l _ _ _ _ hdir hlisted hsummary =>
    cases hlisted with
    | done hlistable =>
      rw [indexAll_eq] at hsummary ⊢
      have hfiles : summary.files = (s.additions fs (s.filesIn fs dir (fs.entries l))).length := by
        rw [hsummary]
        exact Nat.zero_add _
      have hskipped : summary.skippedFiles = (s.unreadable fs (s.filesIn fs dir (fs.entries l))).map (·.path) := by
        rw [hsummary]
        exact List.nil_append _
      refine ⟨_, eligibleIn_filesIn hfs hdir hlistable, rfl, List.nil_append _, ⟨_, hdir, ?_⟩, hskipped, hfiles, ?_⟩
      · rw [hsummary]
        exact unnamed_unnamedIn hfs s l
      · rw [hskipped, hfiles, List.length_map, length_additions_add_length_unreadable]

/-- A scan ends well if it can list every folder, is never stopped, and may pass over every folder. -/
theorem Ends.exists_ok (hfs : fs.WellFormed) (hdir : fs.directory? dir = some l)
    (hlistable : ∀ folder, s.HasFolder fs l folder → (Folder.ofName? folder).isSome → fs.isPresent (dir.join folder))
    (hcalls : ∀ c ∈ calls, c.IsAnswered true) {result : Except IndexFault ScanSummary}
    (h : s.Ends fs r dir result repository events calls) : ∃ summary, result = .ok summary := by
  cases h with
  | missing hnone => exact absurd (hdir.symm.trans hnone) (by simp)
  | unlisted hdir' hlisted =>
    obtain rfl := Option.some.inj (hdir.symm.trans hdir')
    cases hlisted with
    | @refused _ _ name hnames => exact absurd ((hcalls (question name false) (by simp)).2 false rfl) (by simp)
    | unlisted hentry hnames =>
      obtain ⟨entry, hentry, hnot⟩ := hentry
      exact absurd (fun hconsidered hname =>
        hlistable entry.1 ((considers_iff hfs hentry).mp hconsidered) hname) hnot
  | stopped hdir' hlisted => exact absurd rfl (hcalls (.cancelled true) (by simp)).1
  | done hdir' hlisted hsummary => exact ⟨_, rfl⟩

variable {μ : Type} [Monitor μ] {m : μ}

theorem isAnswered_callsOf {answer : Bool} (hm : Monitor.Answers answer m) (s : Scanner) (fs : FileSystem)
    (r : Repository) (dir : Path) : ∀ c ∈ s.callsOf fs r dir m, c.IsAnswered answer := by
  obtain ⟨P, hP, hPm⟩ := hm
  have hstart : ∀ c ∈ (⟨m, []⟩ : Transcript μ).calls, c.IsAnswered answer := List.forall_mem_nil _
  obtain ⟨-, -, -, -, -, hcalls⟩ := scan_inStep hP.inStep ⟨rfl, hPm, hstart⟩ s fs r dir
  exact hcalls

/-- Let a directory be scanned whose folders can all be listed, with a monitor that never stops the work and answers
every question with yes. The scan ends well, adds exactly the eligible files that can be read, in ascending order, with
what their folders and texts say, and accounts for all the others. -/
theorem scan_completed (hfs : fs.WellFormed) (hdir : fs.directory? dir = some l)
    (hlistable : ∀ folder, s.HasFolder fs l folder → (Folder.ofName? folder).isSome → fs.isPresent (dir.join folder))
    (hm : Monitor.Answers true m) :
    ∃ summary files, (s.scan fs r dir m).result = .ok summary ∧
      s.Completed fs r dir files summary (s.scan fs r dir m).repository (s.scan fs r dir m).events := by
  have hends := s.ends_scan fs r dir m
  obtain ⟨summary, hsummary⟩ := hends.exists_ok hfs hdir hlistable (isAnswered_callsOf hm s fs r dir)
  rw [hsummary] at hends
  obtain ⟨files, hcompleted⟩ := hends.exists_completed hfs
  exact ⟨summary, files, hsummary, hcompleted⟩

/-- One folder with a file, and one whose name means nothing. -/
theorem scan_completed_odd :
    let file : ByteArray := "<resources><string name=\"title\"/></resources>".toUTF8
    let fs : FileSystem :=
      ⟨[(["odd"], .directory), (["values"], .directory), (["values", "strings.xml"], .file file)], []⟩
    let o := Scanner.scan ⟨[], true⟩ fs {} ⟨"."⟩ { answer := true : LogMonitor }
    ∃ summary files, o.result = .ok summary ∧
      Completed ⟨[], true⟩ fs {} ⟨"."⟩ files summary o.repository o.events := by
  intro file fs o
  have hfs : fs.WellFormed := ⟨by decide, by decide, List.forall_mem_nil _⟩
  have hdir : fs.directory? ⟨"."⟩ = some [] := FileSystem.directory?_dot rfl
  have hlistable : ∀ folder, HasFolder ⟨[], true⟩ fs [] folder → (Folder.ofName? folder).isSome →
      fs.isPresent ((⟨"."⟩ : Path).join folder) := by
    intro folder hfolder hname
    have hmem := (hfs.node?_eq_some_iff (by simp)).mp hfolder.1
    have hcases : folder = "odd" ∨ folder = "values" := by simpa [fs] using hmem
    obtain rfl | rfl := hcases
    · exact absurd hname (by decide)
    · exact FileSystem.isPresent_join hdir (by decide) hfolder.1 (by decide) (by decide)
  have hm := LogMonitor.answers (m := { answer := true }) rfl
  exact scan_completed hfs hdir hlistable hm

end ResourceIndex.Scanner
