/-!
# Paths

A path is kept as the text it was built from. Two paths name the same place in writing when their components agree:
repeated slashes, a `.` inside and a slash at the end do not count, while a leading `.` does and `..` is not resolved.
-/

namespace ResourceIndex

/-- A path as it was written. -/
structure Path where
  text : String
deriving DecidableEq, Repr, Inhabited

namespace Path

inductive Component where
  | root
  | here
  | up
  | child (name : String)
deriving DecidableEq, Repr

/-- The step a segment between slashes stands for, if any. -/
def Component.ofSegment? : List Char → Option Component
  | [] => none
  | ['.'] => none
  | ['.', '.'] => some .up
  | s => some (.child (String.ofList s))

def components (p : Path) : List Component :=
  match p.text.toList.splitOn '/' with
  | [] => []
  | [] :: [] => []
  | [] :: rest => .root :: rest.filterMap Component.ofSegment?
  | ['.'] :: rest => .here :: rest.filterMap Component.ofSegment?
  | rest => rest.filterMap Component.ofSegment?

/-- Both paths take the same steps. -/
def Same (p q : Path) : Prop :=
  p.components = q.components

instance (p q : Path) : Decidable (Same p q) :=
  inferInstanceAs (Decidable (p.components = q.components))

def isAbsolute (p : Path) : Bool :=
  p.components.head? == some .root

/-- The path of an entry of this directory. -/
def join (p : Path) (name : String) : Path :=
  match p.text.toList.getLast? with
  | none => ⟨name⟩
  | some '/' => ⟨p.text ++ name⟩
  | some _ => ⟨p.text ++ "/" ++ name⟩

/-- The last step, if it is a name. -/
def fileName? (p : Path) : Option String :=
  match p.components.getLast? with
  | some (.child n) => some n
  | _ => none

/-- Writes steps as a path. -/
def ofComponents : List Component → Path
  | .root :: rest => ⟨"/" ++ "/".intercalate (rest.map word)⟩
  | rest => ⟨"/".intercalate (rest.map word)⟩
where
  word : Component → String
    | .root => ""
    | .here => "."
    | .up => ".."
    | .child n => n

/-- The segments up to the last one that stands for a step. -/
def trimSegments (segments : List (List Char)) : List (List Char) :=
  (segments.reverse.dropWhile fun s => (Component.ofSegment? s).isNone).reverse

/-- The path up to the step before its last one, as it was written; there is none for the root and for the empty
path. -/
def parent? (p : Path) : Option Path :=
  match p.text.toList.splitOn '/' with
  | [] => none
  | first :: rest =>
    match trimSegments rest with
    | [] => if first = [] then none else some ⟨""⟩
    | step :: steps =>
      match first, trimSegments (step :: steps).dropLast with
      | [], [] => some ⟨"/"⟩
      | _, before => some ⟨String.ofList (['/'].intercalate (first :: before))⟩

/-- The part of a file name after its last dot. A dot that starts the name does not count. -/
def extension? (p : Path) : Option String := do
  let n ← p.fileName?
  let tail := n.toList.reverse.takeWhile (· ≠ '.')
  match n.toList.reverse.dropWhile (· ≠ '.') with
  | [] => none
  | [_] => none
  | _ :: _ :: _ => some (String.ofList tail.reverse)

/-- The extension is the given lowercase one, in any ASCII case. -/
def hasExtension (p : Path) (e : String) : Bool :=
  match p.extension? with
  | some x => x.toList.map Char.toLower = e.toList
  | none => false

end Path

end ResourceIndex
