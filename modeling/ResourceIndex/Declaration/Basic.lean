import ResourceIndex.ResourceType

/-!
# Declarations

A declaration is one mention of a resource in a file: its type, its name, and whether the file declares it inline, in
passing, rather than as one of its own resources.
-/

namespace ResourceIndex

/-- A resource as a file declares it. -/
structure Declaration where
  type : ResourceType
  name : String
  isInline : Bool := false
deriving DecidableEq, Repr

def Declaration.inlineId (name : String) : Declaration :=
  { type := .id, name := name, isInline := true }

end ResourceIndex
