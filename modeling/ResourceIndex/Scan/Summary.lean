import ResourceIndex.Path

/-!
# Scan summaries
-/

namespace ResourceIndex

/-- What a scan did: the files it indexed, the declarations it read, and the folders and files it passed over because
they could not be understood. -/
structure ScanSummary where
  files : Nat := 0
  resources : Nat := 0
  skippedFolders : List String := []
  skippedFiles : List Path := []
deriving DecidableEq, Repr

namespace ScanSummary

/-- The summary of two scans, one after the other. -/
def add (a b : ScanSummary) : ScanSummary :=
  ⟨a.files + b.files, a.resources + b.resources, a.skippedFolders ++ b.skippedFolders,
    a.skippedFiles ++ b.skippedFiles⟩

/-- The result of a scan in words. -/
def resultText (s : ScanSummary) : String :=
  "Indexed " ++ toString s.resources ++ " resources from " ++ toString s.files ++ " files"

end ScanSummary

end ResourceIndex
