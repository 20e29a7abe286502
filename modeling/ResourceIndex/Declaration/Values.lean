import ResourceIndex.Declaration.Basic
import ResourceIndex.Declaration.Fault

/-!
# Declarations of values files

A values file declares resources by the children of its `resources` element: by their tags, or, for an `item`, by its
`type` attribute. The `attr` children of a `declare-styleable` declare attributes as well. Names that contain a colon
belong to another package and are passed over. An `item` of unknown type stops the reading.
-/

namespace ResourceIndex.Values

/-- Where a reader of a values file is: how many elements are open, and inside which of them it is. -/
structure Place where
  depth : Nat := 0
  inResources : Bool := false
  inStyleable : Bool := false
deriving DecidableEq, Repr

def rootTag : List Char := "resources".toList

/-- The tag of the element that groups attributes. -/
def styleableTag : List Char := "declare-styleable".toList

/-- The type that a tag at the given depth declares, if it declares one. -/
def declaredType? (tag : Markup.Tag) (depth : Nat) (inStyleable : Bool) :
    Except DeclarationFault (Option ResourceType) :=
  if depth = 2 then
    if tag.name = "item".toList then
      match tag.value? "type".toList with
      | none => .ok none
      | some n =>
        match ResourceType.ofName? (String.ofList n) with
        | some t => .ok (some t)
        | none => .error (.unknownType (String.ofList n))
    else .ok (ResourceType.ofValueTag? (String.ofList tag.name))
  else if depth = 3 ∧ inStyleable ∧ tag.name = "attr".toList then .ok (some .attr)
  else .ok none

/-- The declaration that a tag at the given depth makes, if it makes one. -/
def declaration? (tag : Markup.Tag) (depth : Nat) (inStyleable : Bool) :
    Except DeclarationFault (Option Declaration) := do
  let type? ← declaredType? tag depth inStyleable
  return do
    let type ← type?
    let name ← tag.value? "name".toList
    if ':' ∈ name then none else some { type := type, name := String.ofList name }

/-- What a tag declares at a place, and the place behind it. -/
def step (p : Place) : Markup.Event → Except DeclarationFault (Option Declaration × Place)
  | .opened tag => do
    let depth := p.depth + 1
    if depth = 1 then
      return (none, { p with depth := depth, inResources := tag.name = rootTag })
    else if p.inResources then
      let inStyleable := p.inStyleable || (depth = 2 && tag.name = styleableTag)
      return (← declaration? tag depth inStyleable, { p with depth := depth, inStyleable := inStyleable })
    else
      return (none, { p with depth := depth })
  | .empty tag => do
    if p.inResources then
      return (← declaration? tag (p.depth + 1) p.inStyleable, p)
    else
      return (none, p)
  | .closed name =>
    .ok (none, { p with
      depth := p.depth - 1
      inStyleable := p.inStyleable && !(p.depth = 2 && name = styleableTag) })

/-- The declarations that a sequence of tags makes from a place on. -/
def declarationsFrom (p : Place) : List Markup.Event → Except DeclarationFault (List Declaration)
  | [] => .ok []
  | e :: es => do
    let (found, next) ← step p e
    return found.toList ++ (← declarationsFrom next es)

def declarations (text : String) : Except DeclarationFault (List Declaration) := do
  let reading := Markup.read text
  let found ← declarationsFrom {} reading.events
  match reading.fault? with
  | none => return found
  | some f => throw (.markup f)

end ResourceIndex.Values
