import ResourceIndex.Path

/-!
# File trees

A file tree is a finite map from locations, lists of names from the root, to nodes: directories, files and links. Paths
are followed step by step from the working directory, through links and `..`, and only through directories. The links on
a way, the bytes of a path and the bytes of a name are limited.
-/

namespace ResourceIndex

/-- The names from the root to a node. -/
abbrev Location := List String

/-- What stands at a location. -/
inductive Node where
  | directory
  | file (content : ByteArray)
  | link (target : Path)

def Node.isDirectory : Node → Bool
  | .directory => true
  | _ => false

/-- A file tree, and the directory from which relative paths start. The root is a directory. -/
structure FileSystem where
  nodes : List (Location × Node) := []
  workingDirectory : Location := []

inductive FileFault where
  | missing
  | occupied
  | notDirectory
  | isDirectory
  | nameTooLong
  | tooManyLinks
  | zeroByte
  | notText
deriving DecidableEq, Repr

def FileFault.message : FileFault → String
  | missing => "No such file or directory (os error 2)"
  | occupied => "File exists (os error 17)"
  | notDirectory => "Not a directory (os error 20)"
  | isDirectory => "Is a directory (os error 21)"
  | nameTooLong => "File name too long (os error 36)"
  | tooManyLinks => "Too many levels of symbolic links (os error 40)"
  | zeroByte => "file name contained an unexpected NUL byte"
  | notText => "stream did not contain valid UTF-8"

namespace FileSystem

/-! ### Nodes -/

def node? (fs : FileSystem) (l : Location) : Option Node :=
  if l = [] then some .directory else fs.nodes.lookup l

def isDirectoryAt (fs : FileSystem) (l : Location) : Bool :=
  (fs.node? l).any Node.isDirectory

def put (fs : FileSystem) (l : Location) (n : Node) : FileSystem :=
  { fs with nodes := (l, n) :: fs.nodes.filter (·.1 ≠ l) }

/-- Takes a location and everything below it away. -/
def prune (fs : FileSystem) (l : Location) : FileSystem :=
  { fs with nodes := fs.nodes.filter fun (k, _) => !l.isPrefixOf k }

/-- Takes everything below a location away. -/
def clear (fs : FileSystem) (l : Location) : FileSystem :=
  { fs with nodes := fs.nodes.filter fun (k, _) => !l.isPrefixOf k || k = l }

/-- The entries of a directory, in ascending order of their names. -/
def entries (fs : FileSystem) (l : Location) : List (String × Node) :=
  let found := fs.nodes.filterMap fun (k, n) =>
    if k.dropLast = l then k.getLast?.map fun name => (name, n) else none
  found.mergeSort fun a b => (compare a.1 b.1).isLE

/-! ### Following paths -/

/-- A step along a path. A slash stands for an empty segment, and stays where it is like a dot. -/
inductive Step where
  | slash
  | stay
  | up
  | child (name : String)
deriving DecidableEq, Repr

def Step.ofSegment : List Char → Step
  | [] => .slash
  | ['.'] => .stay
  | ['.', '.'] => .up
  | s => .child (String.ofList s)

def stepsOf (p : Path) : List Step :=
  (p.text.toList.splitOn '/').map Step.ofSegment

/-- Where the steps of a path start, from a directory. -/
def startOf (p : Path) (l : Location) : Location :=
  if p.isAbsolute then [] else l

/-- What a path is followed for. -/
inductive Aim where
  /-- to get to what it names -/
  | reach
  /-- to get to the entry at its end, be it a link -/
  | entry
  /-- to write the file it names -/
  | write
deriving DecidableEq, Repr

/-- Nothing but slashes follows, so that the step before can only mean a directory. -/
def isSlashed (rest : List Step) : Bool :=
  !rest.isEmpty && rest.all (· = .slash)

/-- The most links that may be followed on one way. -/
def linkLimit : Nat := 40

/-- The most bytes a name may have. -/
def nameLimit : Nat := 255

/-- The most bytes a path may have. -/
def pathLimit : Nat := 4095

/-- Follows steps from a location. The location at the end may hold no node yet, if its directory is there. A name at
the end with a slash behind it is refused to a write before it is looked up. -/
def walk (fs : FileSystem) (aim : Aim) (links : Nat) (l : Location) (steps : List Step) : Except FileFault Location :=
  match steps with
  | [] => .ok l
  | step :: rest =>
    if !fs.isDirectoryAt l then .error .notDirectory
    else
      match step with
      | .slash | .stay => walk fs aim links l rest
      | .up => walk fs aim links l.dropLast rest
      | .child name =>
        let here := l ++ [name]
        if aim = .write ∧ isSlashed rest then .error .isDirectory
        else if nameLimit < name.utf8ByteSize then .error .nameTooLong
        else
          match fs.node? here with
          | none => if rest = [] then .ok here else .error .missing
          | some (.link target) =>
            if aim = .entry ∧ rest = [] then .ok here
            else
              match links with
              | 0 => .error .tooManyLinks
              | links + 1 => walk fs aim links (startOf target l) (stepsOf target ++ rest)
          | some _ => walk fs aim links here rest
termination_by (links, steps.length)

/-- Refuses a path that no operation takes, whatever the tree holds: one with a zero byte or with too many bytes. -/
def checkPath (p : Path) : Except FileFault Unit :=
  if p.text.toList.contains '\x00' then .error .zeroByte
  else if pathLimit < p.text.utf8ByteSize then .error .nameTooLong
  else .ok ()

/-- The location of a path. The empty path has none. -/
def locate (fs : FileSystem) (aim : Aim) (p : Path) : Except FileFault Location := do
  checkPath p
  if p.text.isEmpty then throw .missing
  fs.walk aim linkLimit (startOf p fs.workingDirectory) (stepsOf p)

/-- The node that a path leads to, with its location. -/
def find (fs : FileSystem) (p : Path) : Except FileFault (Location × Node) := do
  let l ← fs.locate .reach p
  match fs.node? l with
  | some n => return (l, n)
  | none => throw .missing

/-! ### Questions -/

def isPresent (fs : FileSystem) (p : Path) : Bool :=
  (fs.find p).isOk

def directory? (fs : FileSystem) (p : Path) : Option Location :=
  match fs.find p with
  | .ok (l, .directory) => some l
  | _ => none

def isDirectory (fs : FileSystem) (p : Path) : Bool :=
  (fs.directory? p).isSome

def readText (fs : FileSystem) (p : Path) : Except FileFault String := do
  match (← fs.find p).2 with
  | .file content =>
    match String.fromUTF8? content with
    | some text => return text
    | none => throw .notText
  | _ => throw .isDirectory

/-! ### Changes -/

/-- Writes a file, in a directory that is there. -/
def write (fs : FileSystem) (p : Path) (content : ByteArray) : Except FileFault FileSystem := do
  let l ← fs.locate .write p
  if fs.isDirectoryAt l then throw .isDirectory
  return fs.put l (.file content)

def writeText (fs : FileSystem) (p : Path) (text : String) : Except FileFault FileSystem :=
  fs.write p text.toUTF8

/-- Makes a link where nothing is yet, in a directory that is there. The empty path is no target. -/
def makeLink (fs : FileSystem) (p target : Path) : Except FileFault FileSystem := do
  checkPath target
  if target.text.isEmpty then throw .missing
  let l ← fs.locate .entry p
  if (fs.node? l).isSome then throw .occupied
  return fs.put l (.link target)

/-- Makes a directory, in a directory that is there. -/
def makeDirectory (fs : FileSystem) (p : Path) : Except FileFault FileSystem := do
  let l ← fs.locate .entry p
  if (fs.node? l).isSome then throw .occupied
  return fs.put l .directory

/-- Makes the directory at the end of some steps and the ones before it, as far as they are not there. -/
def makeDirectoriesTo (fs : FileSystem) (steps : List Path.Component) : Except FileFault FileSystem :=
  if h : steps = [] then .ok fs
  else
    let p := Path.ofComponents steps
    match fs.makeDirectory p with
    | .ok made => .ok made
    | .error .missing =>
      have : steps.length ≠ 0 := by simpa using h
      match fs.makeDirectoriesTo steps.dropLast with
      | .error e => .error e
      | .ok made =>
        match made.makeDirectory p with
        | .ok done => .ok done
        | .error e => if made.isDirectory p then .ok made else .error e
    | .error e => if fs.isDirectory p then .ok fs else .error e
termination_by steps.length

/-- Makes a directory and the ones before it, as far as they are not there. -/
def makeDirectories (fs : FileSystem) (p : Path) : Except FileFault FileSystem := do
  checkPath p
  fs.makeDirectoriesTo p.components

/-- Makes the directories before the last step of a path, as far as they are not there. -/
def makeParents (fs : FileSystem) (p : Path) : Except FileFault FileSystem :=
  match p.parent? with
  | some parent => fs.makeDirectories parent
  | none => .ok fs

/-- Puts a node at a path, with the directories before it. A directory that is there stays, also behind a link, and a
file is put where a link leads. -/
def place (fs : FileSystem) (p : Path) : Node → Except FileFault FileSystem
  | .directory => fs.makeDirectories p
  | .file content => do (← fs.makeParents p).write p content
  | .link target => do (← fs.makeParents p).makeLink p target

/-- The path ends in a name, and what stands under that name is the location itself, not a link to it. -/
def isNameOf (fs : FileSystem) (p : Path) (l : Location) : Bool :=
  match (stepsOf p).reverse.dropWhile (· = .slash) with
  | .child name :: before =>
    (fs.walk .entry linkLimit (startOf p fs.workingDirectory) (.child name :: before).reverse).toOption = some l
  | _ => false

/-- Removes what stands at a path, with everything below it. A directory that the path does not call by its own name is
emptied and stays. -/
def remove (fs : FileSystem) (p : Path) : FileSystem :=
  match fs.locate .entry p with
  | .ok l => if fs.isNameOf p l then fs.prune l else fs.clear l
  | .error _ => fs

end FileSystem

end ResourceIndex
