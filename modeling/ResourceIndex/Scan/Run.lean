import ResourceIndex.Progress.Monitor
import ResourceIndex.Repository.Basic
import ResourceIndex.Scan.Scanner
import ResourceIndex.Scan.Summary
import ResourceIndex.Text.Number
import ResourceIndex.Text.Quoted

/-!
# Scanning directories

A scan lists the folders of a resource directory, and the files in them, before it reads the first file. A folder whose
name means nothing is passed over if the monitor agrees, and otherwise stops the scan before anything is indexed, as
does a folder that cannot be listed. Then the files are read and indexed one by one; a file that cannot be read is
passed over. The monitor can stop the scan between two files, and what is indexed by then stays.
-/

namespace ResourceIndex

/-- How a scan ends: with a result or a fault, and in any case with a repository, the events it caused, and the
monitor. -/
structure ScanOutcome (μ α : Type) where
  result : Except IndexFault α
  repository : Repository
  events : List Event
  monitor : μ

namespace Scanner

variable {μ : Type} [Monitor μ]

/-! ### Listing -/

/-- Goes over the folders of a directory. The result is the files that wait and the folders passed over. -/
def collectFrom (s : Scanner) (fs : FileSystem) (dir : Path) (m : μ) :
    List (String × Node) → Except IndexFault (List PendingFile × List String) × μ
  | [] => (.ok ([], []), m)
  | (name, node) :: rest =>
    if !node.isDirectory || s.ignores name then s.collectFrom fs dir m rest
    else
      match Folder.ofName? name with
      | some folder =>
        match s.pendingIn fs (dir.join name) folder with
        | .ok files =>
          let (result, m) := s.collectFrom fs dir m rest
          (result.map fun (others, skipped) => (files ++ others, skipped), m)
        | .error e => (.error e, m)
      | none =>
        let (skip, m) := Monitor.confirm "Invalid resource folder"
          ("'" ++ name ++ "' is not a valid resource folder. Skip it?") m
        if skip then
          let (result, m) := s.collectFrom fs dir m rest
          (result.map fun (files, skipped) => (files, name :: skipped), m)
        else (.error (.invalidFolder name), m)

/-! ### Indexing -/

/-- Where a scan is: the repository, the events so far, and what it has done. -/
structure Progress where
  repository : Repository
  events : List Event := []
  summary : ScanSummary := {}

def Progress.index (p : Progress) (f : PendingFile) (declarations : List Declaration) : Progress :=
  let change := p.repository.addFile f.path f.folder f.configuration declarations
  { repository := change.repository
    events := p.events ++ change.events
    summary := { p.summary with
      files := p.summary.files + 1
      resources := p.summary.resources + declarations.length } }

def Progress.skip (p : Progress) (f : PendingFile) : Progress :=
  { p with summary := { p.summary with skippedFiles := p.summary.skippedFiles ++ [f.path] } }

/-- Reads a file and indexes it or passes over it. -/
def indexFile (s : Scanner) (fs : FileSystem) (p : Progress) (f : PendingFile) : Progress :=
  match s.declarationsOf fs f with
  | .ok declarations => p.index f declarations
  | .error _ => p.skip f

/-- Goes over the files, of which `count` have been gone over before. -/
def indexFiles (s : Scanner) (fs : FileSystem) (count : Nat) (p : Progress) (m : μ) :
    List PendingFile → Except IndexFault Unit × Progress × μ
  | [] => (.ok (), p, m)
  | f :: rest =>
    let (stop, m) := Monitor.cancelled m
    if stop then (.error .cancelled, p, m)
    else
      let m := Monitor.describe ("Scanning " ++ f.path.text) m
      let m := Monitor.advance (Text.saturated (count + 1)) m
      s.indexFiles fs (count + 1) (s.indexFile fs p f) m rest

/-- Indexes the resource files of a directory. -/
def scan (s : Scanner) (fs : FileSystem) (r : Repository) (dir : Path) (m : μ) : ScanOutcome μ ScanSummary :=
  match fs.directory? dir with
  | none => ⟨.error (.notFound ("Resource directory not found: " ++ Text.quoted dir.text)), r, [], m⟩
  | some l =>
    let m := Monitor.describe ("Listing " ++ dir.text) m
    match s.collectFrom fs dir m (fs.entries l) with
    | (.error e, m) => ⟨.error e, r, [], m⟩
    | (.ok (files, skipped), m) =>
      let m := Monitor.setMaximum (Text.saturated files.length) m
      match s.indexFiles fs 0 { repository := r } m files with
      | (.error e, p, m) => ⟨.error e, p.repository, p.events, m⟩
      | (.ok (), p, m) =>
        let summary := { p.summary with skippedFolders := skipped }
        ⟨.ok summary, p.repository, p.events, Monitor.conclude summary.resultText m⟩

/-! ### Rescanning -/

/-- Indexes directories one after the other. The first fault stops. -/
def scanAll (s : Scanner) (fs : FileSystem) (r : Repository) (m : μ) :
    List Path → ScanOutcome μ ScanSummary
  | [] => ⟨.ok {}, r, [], m⟩
  | dir :: dirs =>
    let first := s.scan fs r dir m
    match first.result with
    | .error e => ⟨.error e, first.repository, first.events, first.monitor⟩
    | .ok summary =>
      let others := s.scanAll fs first.repository first.monitor dirs
      { others with
        result := others.result.map summary.add
        events := first.events ++ others.events }

/-- Resets the repository and indexes directories again. -/
def rescan (s : Scanner) (fs : FileSystem) (r : Repository) (dirs : List Path) (m : μ) :
    ScanOutcome μ (ScanSummary × RescanSummary) :=
  let reset := r.beginRescan
  let scanned := s.scanAll fs reset.repository m dirs
  match scanned.result with
  | .error e => ⟨.error e, scanned.repository, reset.events ++ scanned.events, scanned.monitor⟩
  | .ok summary =>
    let done := scanned.repository.endRescan
    ⟨.ok (summary, done.result), done.repository, reset.events ++ scanned.events ++ done.events, scanned.monitor⟩

end Scanner

end ResourceIndex
