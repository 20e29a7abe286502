import ResourceIndex.Declaration.InlineIds
import ResourceIndex.Declaration.Values
import ResourceIndex.FileSystem.Basic
import ResourceIndex.Folder
import ResourceIndex.GlobPattern.Matching
import ResourceIndex.Settings.Basic

/-!
# Scanners

A scanner knows which names to pass over and how to read the declarations of a file. A file of a values folder declares
what its text says; any other file is itself a resource, named by its file name up to the first dot, and a layout or a
menu may declare ids besides.
-/

namespace ResourceIndex

/-- What a scan goes by. -/
structure Scanner where
  ignored : List GlobPattern
  readsInlineIds : Bool
deriving Repr

/-- A file that waits to be read, with what its folder says. -/
structure PendingFile where
  path : Path
  folder : FolderType
  configuration : Configuration
deriving DecidableEq, Repr

namespace Scanner

def pattern (text : String) : Except IndexFault GlobPattern :=
  (GlobPattern.ofText text).mapError fun f =>
    .settings ("invalid ignore pattern '" ++ text ++ "': " ++ f.message)

def ofSettings (s : Settings) : Except IndexFault Scanner := do
  return ⟨← s.ignorePatterns.mapM pattern, s.scanInlineIds⟩

def ignores (s : Scanner) (name : String) : Bool :=
  s.ignored.any (·.holds name)

/-- The files of a folder that wait to be read, in ascending order of their names. A folder whose path has too many
bytes cannot be listed. -/
def pendingIn (s : Scanner) (fs : FileSystem) (dir : Path) (folder : Folder) : Except IndexFault (List PendingFile) :=
  match fs.find dir with
  | .error f => .error (.listing dir.text f.message)
  | .ok (l, _) =>
    .ok ((fs.entries l).filterMap fun (name, node) =>
      match node with
      | .file _ => if s.ignores name then none else some ⟨dir.join name, folder.type, folder.configuration⟩
      | _ => none)

/-- The resource that a file name names. -/
def resourceName? (p : Path) : Option String :=
  match p.fileName?.map fun n => n.toList.takeWhile (· ≠ '.') with
  | none | some [] => none
  | some name => some (String.ofList name)

def readText (fs : FileSystem) (p : Path) : Except IndexFault String :=
  (fs.readText p).mapError fun f => .file f.message

/-- The declarations of a file of a values folder; only an XML file declares anything. -/
def valuesDeclarations (fs : FileSystem) (p : Path) : Except IndexFault (List Declaration) :=
  if p.hasExtension "xml" then do
    let text ← readText fs p
    (Values.declarations text).mapError fun f => .markup f.message
  else .ok []

/-- The ids declared inside a file. A file whose ids cannot be read has none. -/
def inlineDeclarations (s : Scanner) (fs : FileSystem) (f : PendingFile) : Except IndexFault (List Declaration) :=
  if s.readsInlineIds && f.folder.canDeclareIds && f.path.hasExtension "xml" then do
    let text ← readText fs f.path
    return (InlineIds.declarations text).toOption.getD []
  else .ok []

def declarationsOf (s : Scanner) (fs : FileSystem) (f : PendingFile) : Except IndexFault (List Declaration) :=
  match f.folder.resourceType? with
  | none => valuesDeclarations fs f.path
  | some type =>
    match resourceName? f.path with
    | none => .error (.invalidFileName f.path.text)
    | some name => do
      return { type := type, name := name } :: (← s.inlineDeclarations fs f)

end Scanner

end ResourceIndex
