import ResourceIndex.Report.Basic
import ResourceIndex.Report.JsonValue

/-!
# Reports as records
-/

namespace ResourceIndex

def JsonValue.texts (ss : List String) : JsonValue :=
  .list (ss.map .text)

def ScanSummary.toJson (s : ScanSummary) : JsonValue :=
  .record [("files", .number s.files), ("resources", .number s.resources),
    ("skipped_folders", .texts s.skippedFolders), ("skipped_files", .texts (s.skippedFiles.map (·.text)))]

def ResourceReport.toJson (r : ResourceReport) : JsonValue :=
  .record [("resource_type", .text r.type.name), ("name", .text r.name), ("variants", .number r.variants),
    ("alternates", .number r.alternates), ("has_default", .flag r.hasDefault),
    ("editable_directly", .flag r.isEditableDirectly), ("declared_inline", .flag r.isDeclaredInline)]

def ScanReport.toJson (r : ScanReport) : JsonValue :=
  .record [("summary", r.summary.toJson), ("resources", .list (r.resources.map ResourceReport.toJson))]

def VariantReport.toJson (v : VariantReport) : JsonValue :=
  .record [("path", .text v.path.text), ("qualifiers", .text v.qualifiers), ("is_default", .flag v.isDefault)]

def VariantsReport.toJson (r : VariantsReport) : JsonValue :=
  .record [("resource", r.resource.toJson), ("variants", .list (r.variants.map VariantReport.toJson))]

end ResourceIndex
