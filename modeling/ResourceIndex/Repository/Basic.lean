import ResourceIndex.Declaration.Merged
import ResourceIndex.Event
import ResourceIndex.Folder
import ResourceIndex.Item
import ResourceIndex.Repository.Lookup
import Std.Data.TreeMap

/-!
# The repository

The repository keeps the indexed files and one item for each resource that any file has ever declared. Items never move
and never go away, so a handle, the place of an item, keeps its meaning; a resource that is declared again finds its old
item through the lookup. Files are numbered in the order of their arrival, and no number is used twice.
-/

namespace ResourceIndex

/-- An indexed file. Its declarations are merged. -/
structure SourceFile where
  id : SourceId
  path : Path
  folder : FolderType
  configuration : Configuration
  declarations : List Declaration
deriving DecidableEq, Repr

/-- What the file contributes to each of its resources. -/
def SourceFile.variant (f : SourceFile) : Variant :=
  ⟨f.id, f.path, f.configuration⟩

structure Entry where
  type : ResourceType
  item : Item
deriving DecidableEq, Repr

/-- The index: the resources by handle, the lookup of their handles, the files by id, and the next id. -/
structure Repository where
  entries : List Entry := []
  lookup : Lookup := {}
  files : Std.TreeMap SourceId SourceFile := {}
  nextId : Nat := 0

/-- What an operation does: its result, the repository behind it, and the events it causes, in order. -/
structure Change (α : Type) where
  result : α
  repository : Repository
  events : List Event := []

/-- How many items there are after a rescan, and how many of them nothing provides. -/
structure RescanSummary where
  items : Nat
  empty : Nat
deriving DecidableEq, Repr

namespace Repository

/-! ### Questions -/

def fileCount (r : Repository) : Nat :=
  r.files.size

/-- The number of items, including empty ones. -/
def itemCount (r : Repository) : Nat :=
  r.entries.length

def file? (r : Repository) (id : SourceId) : Option SourceFile :=
  r.files[id]?

/-- The files in ascending order of their ids. -/
def fileList (r : Repository) : List SourceFile :=
  r.files.toList.map (·.2)

/-- The oldest file with this path. -/
def sourceOf? (r : Repository) (path : Path) : Option SourceId :=
  (r.fileList.find? fun f => Path.Same f.path path).map (·.id)

def handle? (r : Repository) (type : ResourceType) (name : String) : Option Handle :=
  r.lookup.handle? type name

def item? (r : Repository) (h : Handle) : Option Item :=
  r.entries[h.index]?.map (·.item)

def type? (r : Repository) (h : Handle) : Option ResourceType :=
  r.entries[h.index]?.map (·.type)

def find? (r : Repository) (type : ResourceType) (name : String) : Option Item :=
  (r.handle? type name).bind r.item?

/-- The items of a type that something provides, in ascending order of their names. -/
def ofType (r : Repository) (type : ResourceType) : List Item :=
  ((r.lookup.handles type).filterMap r.item?).filter (!·.hasNoVariants)

/-- The types that have an item that something provides, in order. -/
def types (r : Repository) : List ResourceType :=
  ResourceType.all.filter fun t => r.entries.any fun e => e.type = t && !e.item.hasNoVariants

/-! ### Contributions of files -/

def modifyItem (r : Repository) (h : Handle) (f : Item → Item) : Repository :=
  { r with entries := r.entries.modify h.index fun e => { e with item := f e.item } }

/-- Finds the handle of a declared resource. The first declaration makes the item and is announced. -/
def getOrCreate (r : Repository) (d : Declaration) : Change Handle :=
  match r.handle? d.type d.name with
  | some h => { result := h, repository := r }
  | none =>
    let h : Handle := ⟨r.itemCount⟩
    { result := h
      repository := { r with
        entries := r.entries ++ [⟨d.type, .named d.name⟩]
        lookup := r.lookup.insert d.type d.name h }
      events := [.itemCreated d.type.name d.name] }

/-- Adds a variant to a declared resource. -/
def provide (r : Repository) (v : Variant) (d : Declaration) : Change Unit :=
  let c := r.getOrCreate d
  { result := ()
    repository := c.repository.modifyItem c.result (·.add v d.isInline)
    events := c.events }

/-- Adds the variant of a file to its resources. -/
def attach (r : Repository) (v : Variant) : List Declaration → Change Unit
  | [] => { result := (), repository := r }
  | d :: ds =>
    let first := r.provide v d
    let others := first.repository.attach v ds
    { others with events := first.events ++ others.events }

/-- Takes the variant of a file out of a declared resource. -/
def withdraw (r : Repository) (source : SourceId) (d : Declaration) : Repository :=
  match r.handle? d.type d.name with
  | some h => r.modifyItem h (·.remove source)
  | none => r

/-- Takes the variant of a file out of its resources. -/
def detach (r : Repository) (f : SourceFile) : Repository :=
  f.declarations.foldl (fun r d => r.withdraw f.id d) r

/-- Puts a file into the file table, and its variant behind all others of its resources. -/
def insertFile (r : Repository) (f : SourceFile) : Change Unit :=
  let attached := r.attach f.variant f.declarations
  { attached with repository := { attached.repository with files := attached.repository.files.insert f.id f } }

/-- Takes a file out of the file table, and its variant out of its resources. -/
def eraseFile (r : Repository) (f : SourceFile) : Repository :=
  let detached := r.detach f
  { detached with files := detached.files.erase f.id }

/-! ### Changes -/

/-- Indexes a file under a new id. -/
def addFile (r : Repository) (path : Path) (folder : FolderType) (configuration : Configuration)
    (declarations : List Declaration) : Change SourceId :=
  let file : SourceFile := ⟨⟨r.nextId⟩, path, folder, configuration, Declaration.merged declarations⟩
  let inserted := { r with nextId := r.nextId + 1 }.insertFile file
  { result := file.id
    repository := inserted.repository
    events := inserted.events ++ [.fileAdded path file.declarations.length] }

/-- Replaces the declarations of a file; tells whether the file is indexed. Its contributions move behind all others. -/
def updateFile (r : Repository) (id : SourceId) (declarations : List Declaration) : Change Bool :=
  match r.file? id with
  | none => { result := false, repository := r }
  | some old =>
    let inserted := (r.eraseFile old).insertFile { old with declarations := Declaration.merged declarations }
    { inserted with result := true }

/-- Drops a file and gives it back, if it is indexed. -/
def removeFile (r : Repository) (id : SourceId) : Change (Option SourceFile) :=
  match r.file? id with
  | none => { result := none, repository := r }
  | some old =>
    { result := some old
      repository := r.eraseFile old
      events := [.fileRemoved old.path] }

/-- Forgets every file; items stay, without variants. -/
def beginRescan (r : Repository) : Change Unit :=
  { result := ()
    repository := { r with entries := r.entries.map fun e => { e with item := e.item.reset }, files := {} }
    events := [.rescanStarted] }

/-- Counts the items after a rescan. -/
def endRescan (r : Repository) : Change RescanSummary :=
  let summary : RescanSummary := ⟨r.itemCount, r.entries.countP (·.item.hasNoVariants)⟩
  { result := summary
    repository := r
    events := [.rescanFinished summary.items summary.empty] }

end Repository

end ResourceIndex
