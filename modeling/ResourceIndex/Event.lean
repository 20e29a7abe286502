import ResourceIndex.Path

/-!
# Events of the index

An index announces its changes, so that a listener can follow what it holds.
-/

namespace ResourceIndex

inductive Event where
  | itemCreated (typeName name : String)
  | fileAdded (path : Path) (resources : Nat)
  | fileRemoved (path : Path)
  | rescanStarted
  | rescanFinished (items empty : Nat)
deriving DecidableEq, Repr

end ResourceIndex
