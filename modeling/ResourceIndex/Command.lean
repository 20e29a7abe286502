import ResourceIndex.Report.Basic
import ResourceIndex.Scan.Run

/-!
# Commands

A command builds a new index from some directories and reports on it.
-/

namespace ResourceIndex

inductive CommandFault where
  | index (fault : IndexFault)
  | unknownType (name : String)
  | noResource (type : ResourceType) (name : String)
deriving DecidableEq, Repr

def CommandFault.message : CommandFault → String
  | index e => e.message
  | unknownType n => "Unknown resource type '" ++ n ++ "'"
  | noResource t n => "No resource @" ++ t.name ++ "/" ++ n

namespace Command

variable {μ : Type} [Monitor μ]

/-- Indexes directories from the beginning. -/
def build (s : Settings) (fs : FileSystem) (dirs : List Path) (m : μ) :
    Except CommandFault (Repository × ScanSummary) × μ :=
  match Scanner.ofSettings s with
  | .error e => (.error (.index e), m)
  | .ok scanner =>
    let outcome := scanner.rescan fs {} dirs m
    match outcome.result with
    | .error e => (.error (.index e), outcome.monitor)
    | .ok (summary, _) => (.ok (outcome.repository, summary), outcome.monitor)

/-- Reports every resource of some directories. -/
def scan (s : Settings) (fs : FileSystem) (dirs : List Path) (m : μ) : Except CommandFault ScanReport × μ :=
  let (built, m) := build s fs dirs m
  (built.map fun (r, summary) => .ofRepository summary r, m)

/-- Reports one resource of some directories. Its type is looked at first. -/
def variants (s : Settings) (fs : FileSystem) (typeName name : String) (dirs : List Path) (m : μ) :
    Except CommandFault VariantsReport × μ :=
  match ResourceType.ofName? typeName with
  | none => (.error (.unknownType typeName), m)
  | some type =>
    let (built, m) := build s fs dirs m
    (built.bind fun (r, _) =>
      match r.find? type name with
      | some i => if i.hasNoVariants then .error (.noResource type name) else .ok (.ofItem type i)
      | none => .error (.noResource type name), m)

end Command

end ResourceIndex
