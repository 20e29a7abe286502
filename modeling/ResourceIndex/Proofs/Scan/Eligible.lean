import Mathlib.Data.List.Basic
import ResourceIndex.Proofs.FileSystem.Walk
import ResourceIndex.Proofs.GlobPattern.Matches
import ResourceIndex.Proofs.Scan.Listing
import ResourceIndex.Proofs.Text.Bytes

/-!
# Eligible files

Which files of a tree a scan of a directory is about does not depend on paths and links: the files right below the
directories right below the scanned one, if no ignore pattern matches either name and the folder's name means something,
in the order of the folders and, in each, of the files, names standing in the order of their bytes. In a well-formed
tree these are the files that a scan lists, if it can list every folder.
-/

namespace ResourceIndex.Scanner

open FileSystem (WellFormed IsEntryName)

/-- A folder that a scan looks into: a directory itself, no link to one, whose name no ignore pattern matches. -/
def HasFolder (s : Scanner) (fs : FileSystem) (l : Location) (folder : String) : Prop :=
  fs.node? (l ++ [folder]) = some .directory ∧ ∀ pattern ∈ s.ignored, ¬pattern.Matches folder

/-- A file that a scan picks in a folder: a file itself, no link to one, whose name no ignore pattern matches. -/
def HasFile (s : Scanner) (fs : FileSystem) (l : Location) (folder file : String) : Prop :=
  (∃ content, fs.node? (l ++ [folder] ++ [file]) = some (.file content)) ∧ ∀ pattern ∈ s.ignored, ¬pattern.Matches file

/-- The folders whose names mean nothing, each once, in the order of the bytes. -/
structure Unnamed (s : Scanner) (fs : FileSystem) (l : Location) (folders : List String) : Prop where
  ascending : folders.Pairwise fun a b => Text.bytes a < Text.bytes b
  mem_iff : ∀ folder, folder ∈ folders ↔ s.HasFolder fs l folder ∧ Folder.ofName? folder = none

/-- The eligible files, by the names of their folders and their own, each once, in the order of the bytes. -/
structure Eligible (s : Scanner) (fs : FileSystem) (l : Location) (names : List (String × String)) : Prop where
  ascending : names.Pairwise fun a b =>
    Text.bytes a.1 < Text.bytes b.1 ∨ (a.1 = b.1 ∧ Text.bytes a.2 < Text.bytes b.2)
  mem_iff : ∀ folder file, (folder, file) ∈ names ↔
    s.HasFolder fs l folder ∧ (Folder.ofName? folder).isSome ∧ s.HasFile fs l folder file

/-- An eligible file as it waits to be read, with what its folder's name says. -/
def pending? (dir : Path) (names : String × String) : Option PendingFile :=
  (Folder.ofName? names.1).map fun folder => ⟨(dir.join names.1).join names.2, folder.type, folder.configuration⟩

/-- The files that a scan of a directory is about, one for each eligible one. -/
def EligibleIn (s : Scanner) (fs : FileSystem) (dir : Path) (files : List PendingFile) : Prop :=
  ∃ l names, fs.directory? dir = some l ∧ s.Eligible fs l names ∧ names.map (pending? dir) = files.map some

variable {s : Scanner} {fs : FileSystem} {l : Location} {dir : Path} {folder file : String}

theorem ignores_eq_false_iff {name : String} :
    s.ignores name = false ↔ ∀ pattern ∈ s.ignored, ¬pattern.Matches name := by
  simp only [ignores, List.any_eq_false, GlobPattern.holds_iff_matches]

/-- The name of an eligible file's folder says what the file is. -/
theorem Eligible.map_pending? {names : List (String × String)} (h : s.Eligible fs l names) (dir : Path) :
    names.map (pending? dir) = (names.filterMap (pending? dir)).map some := by
  refine map_eq_map_some_filterMap fun entry hentry => ?_
  obtain ⟨-, hsome, -⟩ := (h.mem_iff entry.1 entry.2).mp hentry
  rw [pending?, Option.isSome_map]
  exact hsome

/-! ### Folders -/

theorem considers_iff (hfs : fs.WellFormed) {entry : String × Node} (hentry : entry ∈ fs.entries l) :
    s.considers entry ↔ s.HasFolder fs l entry.1 := by
  have hnode : fs.node? (l ++ [entry.1]) = some entry.2 := hfs.mem_entries.mp hentry
  rw [considers, Bool.and_eq_true, Bool.not_eq_true', ignores_eq_false_iff, HasFolder, hnode, Option.some.injEq]
  refine and_congr_left fun _ => ?_
  cases entry.2 <;> simp [Node.isDirectory]

/-- A folder is an entry that a scan looks into. -/
theorem exists_mem_entries_iff (hfs : fs.WellFormed) :
    (∃ entry ∈ fs.entries l, s.considers entry ∧ entry.1 = folder) ↔ s.HasFolder fs l folder := by
  constructor
  · rintro ⟨entry, hentry, hconsidered, rfl⟩
    exact (considers_iff hfs hentry).mp hconsidered
  · intro hfolder
    have hentry : (folder, .directory) ∈ fs.entries l := hfs.mem_entries.mpr hfolder.1
    exact ⟨_, hentry, (considers_iff hfs hentry).mpr hfolder, rfl⟩

theorem unnamed_unnamedIn (hfs : fs.WellFormed) (s : Scanner) (l : Location) :
    s.Unnamed fs l (s.unnamedIn (fs.entries l)) where
  ascending := by
    simp only [← Text.compare_eq_lt_iff]
    rw [unnamedIn, List.pairwise_map]
    exact (hfs.entries_ascending l).filter _
  mem_iff folder := by
    rw [← exists_mem_entries_iff hfs, unnamedIn, List.mem_map]
    simp only [List.mem_filter, Bool.and_eq_true, Option.isNone_iff_eq_none]
    constructor
    · rintro ⟨entry, ⟨hentry, hconsidered, hname⟩, rfl⟩
      exact ⟨⟨entry, hentry, hconsidered, rfl⟩, hname⟩
    · rintro ⟨⟨entry, hentry, hconsidered, rfl⟩, hname⟩
      exact ⟨entry, ⟨hentry, hconsidered, hname⟩, rfl⟩

/-! ### Files -/

/-- The file that an entry is for a scan. -/
def fileName? (s : Scanner) : String × Node → Option String
  | (name, .file _) => if s.ignores name then none else some name
  | _ => none

/-- The eligible files in an entry. -/
def namesOf (s : Scanner) (fs : FileSystem) (l : Location) (entry : String × Node) : List (String × String) :=
  if s.considers entry && (Folder.ofName? entry.1).isSome then
    ((fs.entries (l ++ [entry.1])).filterMap s.fileName?).map (entry.1, ·)
  else []

theorem fileName?_eq_some_iff {entry : String × Node} :
    s.fileName? entry = some file ↔
      (∃ content, entry = (file, .file content)) ∧ ∀ pattern ∈ s.ignored, ¬pattern.Matches file := by
  obtain ⟨name, node⟩ := entry
  cases node with
  | file content =>
    rw [fileName?, Option.ite_none_left_eq_some, Bool.not_eq_true, ignores_eq_false_iff, Option.some.injEq]
    constructor
    · rintro ⟨hignored, rfl⟩
      exact ⟨⟨content, rfl⟩, hignored⟩
    · rintro ⟨⟨_, heq⟩, hignored⟩
      obtain ⟨rfl, -⟩ := Prod.mk.inj heq
      exact ⟨hignored, rfl⟩
  | directory => simp [fileName?]
  | link target => simp [fileName?]

theorem mem_fileNames (hfs : fs.WellFormed) :
    file ∈ (fs.entries (l ++ [folder])).filterMap s.fileName? ↔ s.HasFile fs l folder file := by
  rw [List.mem_filterMap, HasFile]
  simp only [fileName?_eq_some_iff, ← hfs.mem_entries]
  constructor
  · rintro ⟨entry, hentry, ⟨content, rfl⟩, hignored⟩
    exact ⟨⟨content, hentry⟩, hignored⟩
  · rintro ⟨⟨content, hentry⟩, hignored⟩
    exact ⟨_, hentry, ⟨content, rfl⟩, hignored⟩

theorem mem_namesOf (hfs : fs.WellFormed) {entry : String × Node} :
    (folder, file) ∈ s.namesOf fs l entry ↔
      (s.considers entry ∧ entry.1 = folder) ∧ (Folder.ofName? folder).isSome ∧ s.HasFile fs l folder file := by
  rw [namesOf]
  split
  next h =>
    rw [Bool.and_eq_true] at h
    simp only [List.mem_map, Prod.mk.injEq]
    constructor
    · rintro ⟨name, hfile, rfl, rfl⟩
      exact ⟨⟨h.1, rfl⟩, h.2, (mem_fileNames hfs).mp hfile⟩
    · rintro ⟨⟨-, rfl⟩, -, hfile⟩
      exact ⟨file, (mem_fileNames hfs).mpr hfile, rfl, rfl⟩
  next h =>
    rw [Bool.and_eq_true] at h
    refine iff_of_false List.not_mem_nil ?_
    rintro ⟨⟨hconsidered, rfl⟩, hname, -⟩
    exact h ⟨hconsidered, hname⟩

theorem fileNames_ascending (hfs : fs.WellFormed) (s : Scanner) (l : Location) :
    ((fs.entries l).filterMap s.fileName?).Pairwise fun a b => compare a b = .lt := by
  refine (hfs.entries_ascending l).filterMap _ fun a b hlt name hname other hother => ?_
  obtain ⟨⟨_, rfl⟩, -⟩ := fileName?_eq_some_iff.mp hname
  obtain ⟨⟨_, rfl⟩, -⟩ := fileName?_eq_some_iff.mp hother
  exact hlt

theorem eligible_flatMap_namesOf (hfs : fs.WellFormed) (s : Scanner) (l : Location) :
    s.Eligible fs l ((fs.entries l).flatMap (s.namesOf fs l)) where
  ascending := by
    simp only [← Text.compare_eq_lt_iff]
    refine List.pairwise_flatMap.mpr ⟨fun e _ => ?_, ?_⟩
    · rw [namesOf]
      split
      next => exact List.pairwise_map.mpr ((fileNames_ascending hfs s _).imp fun hlt => .inr ⟨rfl, hlt⟩)
      next => exact .nil
    · refine (hfs.entries_ascending l).imp fun {a b} hlt x hx y hy => ?_
      obtain ⟨⟨-, hfolder⟩, -⟩ := (mem_namesOf hfs).mp hx
      obtain ⟨⟨-, hother⟩, -⟩ := (mem_namesOf hfs).mp hy
      exact .inl (by rw [← hfolder, ← hother, hlt])
  mem_iff folder file := by
    simp only [List.mem_flatMap, mem_namesOf hfs]
    rw [← exists_mem_entries_iff hfs]
    constructor
    · rintro ⟨entry, hentry, hfolder, hfile⟩
      exact ⟨⟨entry, hentry, hfolder⟩, hfile⟩
    · rintro ⟨⟨entry, hentry, hfolder⟩, hfile⟩
      exact ⟨entry, hentry, hfolder, hfile⟩

/-! ### Listed files -/

/-- A folder that can be listed is listed with the files in it. -/
theorem filesOf_eq (hfs : fs.WellFormed) (hdir : fs.directory? dir = some l) {entry : String × Node}
    (hentry : entry ∈ fs.entries l) (hlistable : s.Listable fs dir entry) (hconsidered : s.considers entry)
    {folder : Folder} (hname : Folder.ofName? entry.1 = some folder) :
    s.filesOf fs dir entry = ((fs.entries (l ++ [entry.1])).filterMap s.fileName?).map fun file =>
      ⟨(dir.join entry.1).join file, folder.type, folder.configuration⟩ := by
  have hfolder := (considers_iff hfs hentry).mp hconsidered
  have hpresent : (fs.find (dir.join entry.1)).isOk := hlistable hconsidered (by simp [hname])
  cases hfind : fs.find (dir.join entry.1) with
  | error fault =>
    rw [hfind] at hpresent
    exact absurd hpresent (by simp [Except.isOk, Except.toBool])
  | ok found =>
    obtain ⟨there, node⟩ := found
    obtain rfl := FileSystem.find_join hdir (hfs.isEntryName hfolder.1) hfolder.1 hfind
    simp only [filesOf, hconsidered, hname, pendingIn, hfind, Except.toOption, Option.getD_some, List.map_filterMap]
    refine List.filterMap_congr fun e _ => ?_
    obtain ⟨name, node⟩ := e
    cases node with
    | file content =>
      simp only [fileName?]
      split <;> rfl
    | directory => rfl
    | link target => rfl

/-- If every folder can be listed, the files that are listed are the eligible ones. -/
theorem eligibleIn_filesIn (hfs : fs.WellFormed) (hdir : fs.directory? dir = some l)
    (hlistable : ∀ entry ∈ fs.entries l, s.Listable fs dir entry) :
    s.EligibleIn fs dir (s.filesIn fs dir (fs.entries l)) := by
  have heligible := eligible_flatMap_namesOf hfs s l
  refine ⟨l, _, hdir, heligible, ?_⟩
  rw [heligible.map_pending? dir, filesIn, List.filterMap_flatMap]
  refine congrArg (List.map some) (List.flatMap_congr fun entry hentry => Eq.symm ?_)
  cases hname : Folder.ofName? entry.1 with
  | none => simp [filesOf, namesOf, hname]
  | some folder =>
    cases hconsidered : s.considers entry with
    | false => simp [filesOf, namesOf, hconsidered]
    | true =>
      rw [filesOf_eq hfs hdir hentry (hlistable entry hentry) hconsidered hname]
      simp [namesOf, hconsidered, hname, List.filterMap_map, Function.comp_def, pending?, List.filterMap_eq_map']

end ResourceIndex.Scanner
