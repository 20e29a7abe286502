import ResourceIndex.Declaration.Basic

/-!
# Merged declarations

A file may declare a resource several times. Merged, its declarations are in ascending order of type and name, each
resource once; it is inline only if every declaration of it is.
-/

namespace ResourceIndex.Declaration

/-- Compares what is declared, by type and then by name. -/
def compareResource (a b : Declaration) : Ordering :=
  (compare a.type b.type).then (compare a.name b.name)

/-- Merges a declaration into merged ones. -/
def mergeInto (d : Declaration) : List Declaration → List Declaration
  | [] => [d]
  | e :: es =>
    match compareResource d e with
    | .lt => d :: e :: es
    | .eq => { e with isInline := e.isInline && d.isInline } :: es
    | .gt => e :: mergeInto d es

def merged (ds : List Declaration) : List Declaration :=
  ds.foldl (fun found d => mergeInto d found) []

end ResourceIndex.Declaration
