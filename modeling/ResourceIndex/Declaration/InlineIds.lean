import ResourceIndex.Declaration.Basic
import ResourceIndex.Declaration.Fault

/-!
# Inline ids

Layouts and menus declare ids in passing, by attribute values such as `@+id/title` on any element. Every readable
attribute counts, whatever its key; a malformed attribute declares nothing.
-/

namespace ResourceIndex.InlineIds

/-- What an attribute value that declares an id starts with. -/
def mark : List Char := "@+id/".toList

def declared? (value : List Char) : Option Declaration :=
  match mark.isPrefixOf? value with
  | none | some [] => none
  | some name => some (.inlineId (String.ofList name))

def ofTag (tag : Markup.Tag) : List Declaration :=
  tag.readable.filterMap (declared? ·.value)

/-- The inline ids of a file, in the order of the text. -/
def declarations (text : String) : Except DeclarationFault (List Declaration) :=
  let reading := Markup.read text
  match reading.fault? with
  | none => .ok ((reading.events.filterMap Markup.Event.tag?).flatMap ofTag)
  | some f => .error (.markup f)

end ResourceIndex.InlineIds
