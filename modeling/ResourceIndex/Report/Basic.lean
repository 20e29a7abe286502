import ResourceIndex.Repository.Basic
import ResourceIndex.Scan.Summary

/-!
# Reports

A report says what an index holds after a scan: every resource that something provides, or one resource with its
variants.
-/

namespace ResourceIndex

/-- What is told about a resource. -/
structure ResourceReport where
  type : ResourceType
  name : String
  variants : Nat
  alternates : Nat
  hasDefault : Bool
  isEditableDirectly : Bool
  isDeclaredInline : Bool
deriving DecidableEq, Repr

def ResourceReport.ofItem (type : ResourceType) (i : Item) : ResourceReport :=
  { type := type
    name := i.name
    variants := i.variantCount
    alternates := i.alternateCount
    hasDefault := i.hasDefault
    isEditableDirectly := i.isEditableDirectly
    isDeclaredInline := i.isDeclaredInline }

/-- What a scan did, and the resources it found. -/
structure ScanReport where
  summary : ScanSummary
  resources : List ResourceReport
deriving DecidableEq, Repr

/-- Reports every resource that something provides, by type and then by name. -/
def ScanReport.ofRepository (summary : ScanSummary) (r : Repository) : ScanReport :=
  ⟨summary, r.types.flatMap fun t => (r.ofType t).map (.ofItem t)⟩

structure VariantReport where
  path : Path
  qualifiers : String
  isDefault : Bool
deriving DecidableEq, Repr

def VariantReport.ofVariant (v : Variant) : VariantReport :=
  ⟨v.path, v.configuration.toText, v.isDefault⟩

/-- A resource and its variants. -/
structure VariantsReport where
  resource : ResourceReport
  variants : List VariantReport
deriving DecidableEq, Repr

/-- Reports a resource with its variants in the order of their configurations. -/
def VariantsReport.ofItem (type : ResourceType) (i : Item) : VariantsReport :=
  ⟨.ofItem type i, i.sortedVariants.map .ofVariant⟩

end ResourceIndex
