import ResourceIndex.Proofs.Declaration.Values
import ResourceIndex.Proofs.Repository.Ledger
import ResourceIndex.Proofs.Scan.Kept
import ResourceIndex.Proofs.Scan.Steady

/-!
# What a scan counts

A scan counts the declarations that it reads. The index counts on its own side: it keeps of each file, and announces with
it, what is left of the declarations when they are merged. So the scan never counts too few, and it counts too many
exactly if some file declares a resource more than once.
-/

namespace ResourceIndex

/-- The file and the number of its resources, if the event announces a file. -/
def Event.added? : Event → Option (Path × Nat)
  | .fileAdded path resources => some (path, resources)
  | _ => none

/-- What is announced of a file. -/
def SourceFile.count (f : SourceFile) : Path × Nat :=
  (f.path, f.declarations.length)

/-- The number of resources that an index keeps of these files, counted file by file. -/
def SourceFile.recorded (files : List SourceFile) : Nat :=
  (files.flatMap (·.declarations)).length

/-! ### Counts of merged declarations -/

namespace Declaration

variable {α : Type} (declared : α → List Declaration) (l : List α)

theorem length_flatMap_merged_le : (l.flatMap fun a => merged (declared a)).length ≤ (l.flatMap declared).length := by
  induction l with
  | nil => rfl
  | cons a l ih =>
    rw [List.flatMap_cons, List.flatMap_cons, List.length_append, List.length_append]
    exact Nat.add_le_add (length_merged_le _) ih

/-- Either nothing is lost from any of the lists, or what is left is less. -/
theorem length_flatMap_merged_eq_iff :
    (l.flatMap fun a => merged (declared a)).length = (l.flatMap declared).length ↔
      ∀ a ∈ l, ((declared a).map resource).Nodup := by
  induction l with
  | nil => simp
  | cons a l ih =>
    rw [List.forall_mem_cons, ← ih, ← length_merged_eq_iff, List.flatMap_cons, List.flatMap_cons, List.length_append,
      List.length_append]
    have hfirst := length_merged_le (declared a)
    have hothers := length_flatMap_merged_le declared l
    omega

end Declaration

/-! ### Announced files -/

namespace Repository

theorem filterMap_added?_addFile (r : Repository) (path : Path) (folder : FolderType) (configuration : Configuration)
    (declarations : List Declaration) :
    (r.addFile path folder configuration declarations).events.filterMap Event.added? =
      [(path, (Declaration.merged declarations).length)] := by
  obtain ⟨created, -, hevents⟩ := exists_resources_insertFile { r with nextId := r.nextId + 1 }
    ⟨⟨r.nextId⟩, path, folder, configuration, Declaration.merged declarations⟩
  have hcreated : (created.map announcement).filterMap Event.added? = [] :=
    List.filterMap_eq_nil_iff.mpr fun e he => by
      obtain ⟨p, -, rfl⟩ := List.mem_map.mp he
      rfl
  rw [addFile, hevents, List.filterMap_append, hcreated]
  rfl

end Repository

namespace Scanner

variable {s : Scanner} {fs : FileSystem} {dir : Path} {f : PendingFile} {files : List PendingFile}

/-- The files that can be read, each with the declarations in it. -/
def readings (s : Scanner) (fs : FileSystem) (files : List PendingFile) : List (PendingFile × List Declaration) :=
  files.filterMap fun f => (s.declarationsOf fs f).toOption.map fun ds => (f, ds)

theorem kept_eq_map_readings (s : Scanner) (fs : FileSystem) (files : List PendingFile) :
    s.kept fs files = (s.readings fs files).map fun p => (p.1, Declaration.merged p.2) := by
  simp only [kept, readings, List.map_filterMap, Option.map_map]
  rfl

theorem length_additions (s : Scanner) (fs : FileSystem) (files : List PendingFile) :
    (s.additions fs files).length = (s.readings fs files).length := by
  simp only [additions, readings, List.length_filterMap_eq_countP, Option.isSome_map]

theorem declared_eq_length (s : Scanner) (fs : FileSystem) (files : List PendingFile) :
    s.declared fs files = ((s.readings fs files).flatMap (·.2)).length := by
  induction files with
  | nil => rfl
  | cons f files ih =>
    cases h : s.declarationsOf fs f with
    | ok ds => simp [declared_cons_of_ok h, ih, readings, h, Except.toOption]
    | error fault => simp [declared_cons_of_error h, ih, readings, h, Except.toOption]

theorem filterMap_announced_additions (r : Repository) (s : Scanner) (fs : FileSystem) (files : List PendingFile) :
    (r.announced (s.additions fs files)).filterMap Event.added? =
      (s.kept fs files).map fun p => (p.1.path, p.2.length) := by
  induction files generalizing r with
  | nil => rfl
  | cons f files ih =>
    cases h : s.declarationsOf fs f with
    | ok ds =>
      have hfirst := r.filterMap_added?_addFile f.path f.folder f.configuration ds
      rw [additions_cons_of_ok h, kept_cons_of_ok h, Repository.announced, List.filterMap_append, ih, List.map_cons]
      exact congrArg (· ++ _) hfirst
    | error fault =>
      rw [additions_cons_of_error h, kept_cons_of_error h]
      exact ih r

/-! ### One scan -/

/-- Given what was read, this is what the summary counts, and what the index keeps and announces of the files that were
added. -/
structure Accounts (readings : List (PendingFile × List Declaration)) (summary : ScanSummary)
    (added : List SourceFile) (events : List Event) : Prop where
  kept : added.map (fun f => (f.pending, f.declarations)) = readings.map fun p => (p.1, Declaration.merged p.2)
  announced : events.filterMap Event.added? = added.map SourceFile.count
  files : summary.files = added.length
  resources : summary.resources = (readings.flatMap (·.2)).length
  recorded_le : SourceFile.recorded added ≤ summary.resources
  recorded_eq_iff : SourceFile.recorded added = summary.resources ↔
    ∀ p ∈ readings, (p.2.map Declaration.resource).Nodup

theorem Accounts.of_kept {readings : List (PendingFile × List Declaration)} {summary : ScanSummary}
    {added : List SourceFile} {events : List Event}
    (hkept : added.map (fun f => (f.pending, f.declarations)) = readings.map fun p => (p.1, Declaration.merged p.2))
    (hannounced : events.filterMap Event.added? = added.map SourceFile.count) (hfiles : summary.files = added.length)
    (hresources : summary.resources = (readings.flatMap (·.2)).length) :
    Accounts readings summary added events := by
  have hrecorded : SourceFile.recorded added = (readings.flatMap fun p => Declaration.merged p.2).length := by
    have hall := congrArg (List.flatMap fun p => p.2) hkept
    rw [List.flatMap_map, List.flatMap_map] at hall
    exact congrArg List.length hall
  refine ⟨hkept, hannounced, hfiles, hresources, ?_, ?_⟩
  · rw [hrecorded, hresources]
    exact Declaration.length_flatMap_merged_le _ _
  · rw [hrecorded, hresources]
    exact Declaration.length_flatMap_merged_eq_iff _ _

/-- A scan of a directory with one values file. -/
theorem scan_values_file {text : String} {declarations : List Declaration}
    (h : Values.declarations text = .ok declarations) :
    let fs : FileSystem := ⟨[(["values"], .directory), (["values", "a.xml"], .file text.toUTF8)], []⟩
    let s : Scanner := ⟨[], true⟩
    let m : LogMonitor := { answer := true }
    s.readings fs (s.filesAt fs ⟨"."⟩) = [(⟨⟨"./values/a.xml"⟩, .values, {}⟩, declarations)] ∧
      (s.scan fs {} ⟨"."⟩ m).result = .ok { files := 1, resources := declarations.length } := by
  intro fs s m
  have hdir : fs.directory? ⟨"."⟩ = some [] := FileSystem.directory?_dot rfl
  have hjoin : (⟨"."⟩ : Path).join "values" = ⟨"./values"⟩ := by rfl
  have hjoinFile : (⟨"./values"⟩ : Path).join "a.xml" = ⟨"./values/a.xml"⟩ := by rfl
  have hfolder : fs.find ⟨"./values"⟩ = .ok (["values"], .directory) := by
    rw [← hjoin]
    exact FileSystem.find_join_eq_ok hdir (by decide) rfl (by simp) (by decide) (by decide)
  have hfile : fs.find ⟨"./values/a.xml"⟩ = .ok (["values", "a.xml"], .file text.toUTF8) := by
    rw [← hjoinFile]
    have hinner := FileSystem.directory?_eq_some_iff.mpr hfolder
    exact FileSystem.find_join_eq_ok hinner (by decide) rfl (by simp) (by decide) (by decide)
  have hentries : fs.entries [] = [("values", .directory)] := FileSystem.entries_eq_of_ascending rfl (by simp)
  have hinside : fs.entries ["values"] = [("a.xml", .file text.toUTF8)] :=
    FileSystem.entries_eq_of_ascending rfl (by simp)
  have hpending : s.pendingIn fs ⟨"./values"⟩ ⟨.values, {}⟩ = .ok [⟨⟨"./values/a.xml"⟩, .values, {}⟩] := by
    simp only [pendingIn, hfolder, hinside]
    rfl
  have hread : s.declarationsOf fs ⟨⟨"./values/a.xml"⟩, .values, {}⟩ = .ok declarations := by
    have hxml : (⟨"./values/a.xml"⟩ : Path).hasExtension "xml" := by rfl
    simp [declarationsOf, FolderType.resourceType?, valuesDeclarations, hxml, readText,
      FileSystem.readText_of_find hfile, bind, Except.bind, h]
  have hname : Folder.ofName? "values" = some ⟨.values, {}⟩ := by decide
  have hconsidered : s.considers ("values", .directory) = true := by rfl
  constructor
  · rw [filesAt_of_some hdir, hentries, filesIn, List.flatMap_singleton, filesOf, hconsidered, hname, hjoin]
    simp [hpending, readings, hread, Except.toOption]
  · have hlisted (m : LogMonitor) : s.collectFrom fs ⟨"."⟩ m (fs.entries []) =
        (.ok ([⟨⟨"./values/a.xml"⟩, .values, {}⟩], []), m) := by
      rw [hentries, collectFrom_of_considers hconsidered]
      simp only [hname, hjoin, hpending]
      rfl
    simp [scan, hdir, hlisted, indexFiles, indexFile, hread, Progress.index]

/-- A scan that ends well counts the declarations that it read. The index records, and announces, no more than that, and
just as many exactly if no file declares a resource twice. -/
theorem scan_accounts {μ : Type} [Monitor μ] (ops : List Operation) (s : Scanner) (fs : FileSystem) (dir : Path)
    (m : μ) {summary : ScanSummary} (h : (s.scan fs (Repository.run {} ops) dir m).result = .ok summary) :
    let before := Repository.run {} ops
    let behind := s.scan fs before dir m
    Accounts (s.readings fs (s.filesAt fs dir)) summary (behind.repository.addedSince before) behind.events := by
  intro before behind
  obtain ⟨htally, hrepository⟩ := scan_of_ok h
  have hkept := map_addedSince_run_additions (Repository.keeps_empty.run ops).indexes s fs (s.filesAt fs dir)
  rw [← hrepository] at hkept
  refine .of_kept (hkept.trans (s.kept_eq_map_readings fs _)) ?_ ?_ ?_
  · rw [events_scan_of_ok h, filterMap_announced_additions, ← hkept, List.map_map]
    rfl
  · have hlength := congrArg List.length (hkept.trans (s.kept_eq_map_readings fs _))
    rw [List.length_map, List.length_map] at hlength
    rw [htally, hlength]
    exact s.length_additions fs _
  · rw [htally]
    exact s.declared_eq_length fs _

/-- A string and a color of one name are two resources. -/
theorem scan_accounts_distinct :
    let text := "<resources><string name=\"a\"/><color name=\"a\"/></resources>"
    let fs : FileSystem := ⟨[(["values"], .directory), (["values", "a.xml"], .file text.toUTF8)], []⟩
    let s : Scanner := ⟨[], true⟩
    let m : LogMonitor := { answer := true }
    let behind := s.scan fs {} ⟨"."⟩ m
    behind.result = .ok { files := 1, resources := 2 } ∧
      SourceFile.recorded (behind.repository.addedSince {}) = 2 := by
  intro text fs s m behind
  have hread : Values.declarations text = .ok [⟨.string, "a", false⟩, ⟨.color, "a", false⟩] := by decide +kernel
  obtain ⟨hreadings, hresult⟩ := scan_values_file hread
  have haccounts := scan_accounts [] s fs ⟨"."⟩ m hresult
  refine ⟨hresult, haccounts.recorded_eq_iff.mpr ?_⟩
  rw [hreadings, List.forall_mem_singleton]
  decide

/-- A string that is declared twice: the scan counts two resources, and the index keeps and announces one. -/
theorem scan_repeated_string :
    let text := "<resources><string name=\"a\"/><string name=\"a\"/></resources>"
    let fs : FileSystem := ⟨[(["values"], .directory), (["values", "a.xml"], .file text.toUTF8)], []⟩
    let s : Scanner := ⟨[], true⟩
    let m : LogMonitor := { answer := true }
    let behind := s.scan fs {} ⟨"."⟩ m
    behind.result = .ok { files := 1, resources := 2 } ∧
      SourceFile.recorded (behind.repository.addedSince {}) = 1 ∧
      behind.events.filterMap Event.added? = [(⟨"./values/a.xml"⟩, 1)] := by
  intro text fs s m behind
  have hread : Values.declarations text = .ok [⟨.string, "a", false⟩, ⟨.string, "a", false⟩] := by decide +kernel
  obtain ⟨hreadings, hresult⟩ := scan_values_file hread
  obtain ⟨-, hrepository⟩ := scan_of_ok hresult
  have hkept : s.kept fs (s.filesAt fs ⟨"."⟩) =
      [(⟨⟨"./values/a.xml"⟩, .values, {}⟩, [⟨.string, "a", false⟩])] := by
    rw [kept_eq_map_readings, hreadings]
    decide
  have hadded := map_addedSince_run_additions Repository.indexes_empty s fs (s.filesAt fs ⟨"."⟩)
  rw [← hrepository, hkept] at hadded
  refine ⟨hresult, ?_, ?_⟩
  · have hall := congrArg (List.flatMap fun p => p.2) hadded
    rw [List.flatMap_map] at hall
    exact congrArg List.length hall
  · rw [events_scan_of_ok hresult, filterMap_announced_additions, hkept]
    rfl

end Scanner

end ResourceIndex
