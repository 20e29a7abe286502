import ResourceIndex.FileSystem.Basic

/-!
# Listings of file trees

A listing describes a file tree line by line: a directory, a file with its text, or a link with its target, each at a
path. The parts of a line are separated by tabs, and a tab, a line break or a backslash inside a part is escaped by a
backslash.
-/

namespace ResourceIndex.FileSystem

/-- Reads a part of a line. -/
def unescape? : List Char → Option (List Char)
  | [] => some []
  | '\\' :: 't' :: cs => (unescape? cs).map ('\t' :: ·)
  | '\\' :: 'n' :: cs => (unescape? cs).map ('\n' :: ·)
  | '\\' :: 'r' :: cs => (unescape? cs).map ('\r' :: ·)
  | '\\' :: '\\' :: cs => (unescape? cs).map ('\\' :: ·)
  | '\\' :: _ => none
  | c :: cs => (unescape? cs).map (c :: ·)

/-- Reads a line as a node at a path. -/
def listed? (line : List Char) : Option (Path × Node) := do
  let parts ← (line.splitOn '\t').mapM unescape?
  match parts.map String.ofList with
  | ["directory", p] => return (⟨p⟩, .directory)
  | ["file", p, text] => return (⟨p⟩, .file text.toUTF8)
  | ["link", p, target] => return (⟨p⟩, .link ⟨target⟩)
  | _ => none

/-- Reads the lines of a listing; empty lines do not count. -/
def ofListing? (lines : List String) : Option FileSystem :=
  (lines.filter (!·.isEmpty)).foldlM
    (fun fs line => do
      let (p, n) ← listed? line.toList
      (fs.place p n).toOption)
    {}

end ResourceIndex.FileSystem
