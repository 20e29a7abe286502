import ResourceIndex.Toml.Statement

/-!
# TOML documents

The lines of a document build one table. A value belongs to the table of the last header, a path goes through the last
of repeated tables, and nothing is said twice.
-/

namespace ResourceIndex.Toml

/-- A document that is being built: its table, and the path of the last header. -/
structure Draft where
  entries : Entries := []
  place : List String := []

namespace Draft

/-- Changes the table at a path. -/
def change (d : Draft) (path : List String) (f : TableForm → Entries → Option (TableForm × Entries)) :
    Option Entries :=
  (Entries.edit false f path .headed d.entries).map (·.2)

def follow (d : Draft) : Statement → Option Draft
  | .header path key => (d.change path (Entries.startTable key)).map fun es => ⟨es, path ++ [key]⟩
  | .row path key => (d.change path (Entries.startRow key)).map fun es => ⟨es, path ++ [key]⟩
  | .assignment path key v => (d.change d.place (Entries.assign path key v)).map fun es => { d with entries := es }

end Draft

def entries? (text : String) : Option Entries := do
  let lines ← statements? text
  let done ← lines.foldlM Draft.follow {}
  return done.entries

end ResourceIndex.Toml
