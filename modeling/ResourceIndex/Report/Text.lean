import ResourceIndex.Report.Basic

/-!
# Reports for readers

A report for readers has one line for each resource or variant. Qualifiers stand in a column of fixed width, as far as
they fit.
-/

namespace ResourceIndex

/-- Joins lines, each with its line end. -/
def joinLines (lines : List String) : String :=
  String.join (lines.map (· ++ "\n"))

/-- The text with spaces on its right to at least a number of characters. -/
def padRight (width : Nat) (s : String) : String :=
  s ++ String.ofList (List.replicate (width - s.length) ' ')

namespace ResourceReport

/-- The resource as it is referred to. -/
def reference (r : ResourceReport) : String :=
  "@" ++ r.type.name ++ "/" ++ r.name

/-- The properties that are pointed out. -/
def flags (r : ResourceReport) : List String :=
  (if r.hasDefault then [] else ["no-default"]) ++
  (if r.isDeclaredInline then ["inline"] else []) ++
  (if r.isEditableDirectly then ["editable"] else [])

def line (r : ResourceReport) : String :=
  r.reference ++ "  variants=" ++ toString r.variants ++ " alternates=" ++ toString r.alternates ++
    " [" ++ ",".intercalate r.flags ++ "]"

end ResourceReport

/-- The lines of a scan report: the resources, their number, and what was passed over. -/
def ScanReport.toText (r : ScanReport) : String :=
  joinLines (r.resources.map ResourceReport.line ++
    [toString r.summary.files ++ " files, " ++ toString r.resources.length ++ " resources"] ++
    r.summary.skippedFolders.map ("skipped folder: " ++ ·) ++
    r.summary.skippedFiles.map ("skipped file: " ++ ·.text))

def VariantReport.line (v : VariantReport) : String :=
  "  " ++ padRight 24 (if v.isDefault then "default" else v.qualifiers) ++ " " ++ v.path.text

/-- The lines of a variants report: the resource, and its variants. -/
def VariantsReport.toText (r : VariantsReport) : String :=
  let advice := if r.resource.isEditableDirectly then "editable directly" else "pick a configuration to edit"
  joinLines ((r.resource.reference ++ " (" ++ toString r.resource.variants ++ " variants, " ++
    toString r.resource.alternates ++ " alternates, " ++ advice ++ ")") :: r.variants.map VariantReport.line)

end ResourceIndex
