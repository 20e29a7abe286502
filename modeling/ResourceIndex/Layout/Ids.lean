import ResourceIndex.Layout.Attribute
import Std.Data.TreeSet

/-!
# Fresh ids for pasted elements

Elements that are pasted next to existing ones must not declare an id twice. An id that is already taken gets a fresh
name, and every pasted element that refers to it follows. When several pasted elements declare one id, the first one
decides what it becomes for all, and each later one gets a fresh name of its own.
-/

namespace ResourceIndex.Layout

abbrev Ids := Std.TreeSet String

/-- What numbered ids are made from: the id without the digits at its end, or `id` if nothing else is left. -/
def stem (base : String) : String :=
  match base.toList.reverse.dropWhile Char.isDigit with
  | [] => "id"
  | rest => String.ofList rest.reverse

def numbered (s : String) (n : Nat) : String :=
  s ++ toString n

/-- The first numbered id that is not taken. One of the first `taken.size + 1` numbers is free. -/
def freshId (base : String) (taken : Ids) : String :=
  match (List.range' 1 (taken.size + 1)).find? fun n => numbered (stem base) n ∉ taken with
  | some n => numbered (stem base) n
  | none => stem base

/-- What is known while pasted elements are gone through: the ids taken, the ids that pasted elements have declared, and
the new names that hold in all of them. -/
structure Pasting where
  taken : Ids
  declared : List String := []
  shared : Renaming := []

namespace Pasting

/-- Goes over one declared id of an element whose own new names are `own`. -/
def declare (p : Pasting) (own : Renaming) (id : String) : Pasting × Renaming :=
  if id ∈ p.declared then
    let new := freshId id p.taken
    ({ p with taken := p.taken.insert new }, (id, new) :: own)
  else if id ∈ p.taken then
    let new := freshId id p.taken
    ({ p with
      taken := p.taken.insert new
      declared := id :: p.declared
      shared := (id, new) :: p.shared }, own)
  else
    ({ p with taken := p.taken.insert id, declared := id :: p.declared }, own)

def declareAll (p : Pasting) (own : Renaming) : List String → Pasting × Renaming
  | [] => (p, own)
  | id :: ids =>
    let (q, own) := p.declare own id
    q.declareAll own ids

/-- Goes over the elements; the new names of each element's own come back in their order. -/
def run (p : Pasting) : List (List Attribute) → Pasting × List Renaming
  | [] => (p, [])
  | attributes :: rest =>
    let (q, own) := p.declareAll [] (attributes.filterMap Attribute.declaredId?)
    let (r, owns) := q.run rest
    (r, own :: owns)

end Pasting

/-- The new names for each pasted element, its own before the shared ones, and the ids taken afterwards. -/
def remap (elements : List (List Attribute)) (taken : Ids) : List Renaming × Ids :=
  let (p, owns) := Pasting.run { taken := taken } elements
  (owns.map (· ++ p.shared), p.taken)

end ResourceIndex.Layout
