import ResourceIndex.Text.Affix

/-!
# Attributes of layout elements

An attribute has a name in a namespace, or in none, and a raw value. A value such as `@+id/title` or `@id/title` refers
to an id. Copying an element keeps its attributes in order, leaves some out, and follows the renaming of ids; the mark
that tells a new id from a known one stays.
-/

namespace ResourceIndex.Layout

/-- The namespace of the platform's attributes. -/
def platformUri : String :=
  "http://schemas.android.com/apk/res/android"

structure AttributeName where
  uri : Option String
  name : String
deriving DecidableEq, Repr

def AttributeName.id : AttributeName :=
  ⟨some platformUri, "id"⟩

structure Attribute where
  name : AttributeName
  value : String
deriving DecidableEq, Repr

/-! ### References to ids -/

/-- A reference to an id, as a new one or as a known one. -/
structure IdReference where
  isNew : Bool
  name : String
deriving DecidableEq, Repr

namespace IdReference

/-- What a reference starts with. -/
def mark (isNew : Bool) : String :=
  if isNew then "@+id/" else "@id/"

def ofValue? (value : String) : Option IdReference :=
  match (mark true).toList.isPrefixOf? value.toList with
  | some n => some ⟨true, String.ofList n⟩
  | none => ((mark false).toList.isPrefixOf? value.toList).map fun n => ⟨false, String.ofList n⟩

def toValue (r : IdReference) : String :=
  mark r.isNew ++ r.name

theorem ofValue?_toValue (r : IdReference) : ofValue? r.toValue = some r := by
  have clash (a b : List Char) : "@+id/".toList ++ a ≠ "@id/".toList ++ b := by
    simp
  obtain ⟨isNew, name⟩ := r
  cases isNew
  · have h : (mark true).toList.isPrefixOf? (mark false ++ name).toList = none := by
      cases h : (mark true).toList.isPrefixOf? (mark false ++ name).toList with
      | none => rfl
      | some rest =>
        rw [Text.isPrefixOf?_eq_some_iff, String.toList_append] at h
        exact absurd h.symm (clash _ _)
    have h' : (mark false).toList.isPrefixOf? (mark false ++ name).toList = some name.toList := by
      rw [Text.isPrefixOf?_eq_some_iff, String.toList_append]
    simp only [ofValue?, toValue, h, h', Option.map_some, String.ofList_toList]
  · have h : (mark true).toList.isPrefixOf? (mark true ++ name).toList = some name.toList := by
      rw [Text.isPrefixOf?_eq_some_iff, String.toList_append]
    simp only [ofValue?, toValue, h, String.ofList_toList]

end IdReference

/-! ### Renaming -/

/-- New names for some ids. Of two entries for one id the first one counts. -/
abbrev Renaming := List (String × String)

namespace Attribute

/-- The attribute with the id it refers to renamed. -/
def rename (renames : Renaming) (a : Attribute) : Attribute :=
  match IdReference.ofValue? a.value with
  | none => a
  | some r =>
    match renames.lookup r.name with
    | none => a
    | some new => { a with value := { r with name := new }.toValue }

/-- The id that the attribute declares for its element. -/
def declaredId? (a : Attribute) : Option String :=
  if a.name = .id then (IdReference.ofValue? a.value).map (·.name) else none

end Attribute

/-- The attributes of a copy: without the excluded ones, and with ids renamed. -/
def copyAttributes (excluded : List AttributeName) (renames : Renaming) (attributes : List Attribute) :
    List Attribute :=
  (attributes.filter (·.name ∉ excluded)).map (·.rename renames)

end ResourceIndex.Layout
