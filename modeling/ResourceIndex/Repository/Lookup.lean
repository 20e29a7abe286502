import ResourceIndex.ResourceType
import Std.Data.TreeMap

/-!
# Lookup

The lookup leads from a resource to its handle: by type first, and then, in ascending order, by name.
-/

namespace ResourceIndex

/-- The place of an item. -/
structure Handle where
  index : Nat
deriving DecidableEq, Repr

/-- The handles of the resources by type and name. -/
structure Lookup where
  byType : Std.TreeMap ResourceType (Std.TreeMap String Handle) := {}

namespace Lookup

/-- The handles of a type by name. -/
def names (l : Lookup) (type : ResourceType) : Std.TreeMap String Handle :=
  l.byType.getD type {}

def handle? (l : Lookup) (type : ResourceType) (name : String) : Option Handle :=
  (l.names type)[name]?

/-- The handles of a type, in ascending order of the names. -/
def handles (l : Lookup) (type : ResourceType) : List Handle :=
  (l.names type).toList.map (·.2)

def insert (l : Lookup) (type : ResourceType) (name : String) (h : Handle) : Lookup :=
  ⟨l.byType.insert type ((l.names type).insert name h)⟩

@[simp] theorem handle?_empty (type : ResourceType) (name : String) :
    ({} : Lookup).handle? type name = none := by
  simp [handle?, names]

theorem names_insert (l : Lookup) (type other : ResourceType) (name : String) (h : Handle) :
    (l.insert type name h).names other =
      if type = other then (l.names type).insert name h else l.names other := by
  simp [names, insert, Std.TreeMap.getD_insert]

theorem handle?_insert (l : Lookup) (type other : ResourceType) (name text : String) (h : Handle) :
    (l.insert type name h).handle? other text =
      if type = other ∧ name = text then some h else l.handle? other text := by
  rw [handle?, names_insert]
  by_cases htype : type = other
  · subst htype
    simp [handle?, Std.TreeMap.getElem?_insert]
  · simp [handle?, htype]

end Lookup

end ResourceIndex
