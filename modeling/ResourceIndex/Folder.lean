import ResourceIndex.Configuration.Text
import ResourceIndex.ResourceType

/-!
# Resource folders

A resource folder is named by its type and its qualifiers, such as `values-fr-rCA`. Every file of a folder other than
`values` is a resource of one type, and layouts and menus may declare ids inside their files.
-/

namespace ResourceIndex

inductive FolderType where
  | anim | animator | color | drawable | font | interpolator | layout
  | menu | mipmap | navigation | raw | transition | values | xml
deriving DecidableEq, Repr

namespace FolderType

def all : List FolderType :=
  [.anim, .animator, .color, .drawable, .font, .interpolator, .layout,
   .menu, .mipmap, .navigation, .raw, .transition, .values, .xml]

/-- The first word of the folder's name. -/
def name : FolderType → String
  | anim => "anim"
  | animator => "animator"
  | color => "color"
  | drawable => "drawable"
  | font => "font"
  | interpolator => "interpolator"
  | layout => "layout"
  | menu => "menu"
  | mipmap => "mipmap"
  | navigation => "navigation"
  | raw => "raw"
  | transition => "transition"
  | values => "values"
  | xml => "xml"

def ofName? (n : String) : Option FolderType :=
  all.find? fun t => t.name = n

/-- The type of the resource that each file of the folder is; the files of `values` declare theirs inside. -/
def resourceType? : FolderType → Option ResourceType
  | anim => some .anim
  | animator => some .animator
  | color => some .color
  | drawable => some .drawable
  | font => some .font
  | interpolator => some .interpolator
  | layout => some .layout
  | menu => some .menu
  | mipmap => some .mipmap
  | navigation => some .navigation
  | raw => some .raw
  | transition => some .transition
  | values => none
  | xml => some .xml

/-- Files of this folder may declare ids inline. -/
def canDeclareIds : FolderType → Bool
  | layout | menu => true
  | _ => false

end FolderType

/-- What the name of a resource folder says. -/
structure Folder where
  type : FolderType
  configuration : Configuration
deriving DecidableEq, Repr

namespace Folder

/-- Reads a folder name: a folder type, then qualifiers, joined by dashes. -/
def ofName? (n : String) : Option Folder :=
  match n.toList.splitOn '-' with
  | [] => none
  | word :: qualifiers => do
    let type ← FolderType.ofName? (String.ofList word)
    let configuration ← Configuration.ofSegments? qualifiers
    return ⟨type, configuration⟩

/-- The canonical name: the folder type, and the canonical qualifiers after a dash if there are any. -/
def name (f : Folder) : String :=
  if f.configuration.isDefault then f.type.name else f.type.name ++ "-" ++ f.configuration.toText

end Folder

end ResourceIndex
