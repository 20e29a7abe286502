import ResourceIndex.Repository.Basic

/-!
# Runs of a repository

The changes of a repository as data, so that statements can speak of every order of them. What one operation preserves,
a run preserves.
-/

namespace ResourceIndex

/-- A change of an index, as it is asked for. -/
inductive Operation where
  | addFile (path : Path) (folder : FolderType) (configuration : Configuration) (declarations : List Declaration)
  | updateFile (id : SourceId) (declarations : List Declaration)
  | removeFile (id : SourceId)
  | beginRescan
  | endRescan

/-- What the index answers. -/
inductive Answer where
  | added (id : SourceId)
  | updated (isIndexed : Bool)
  | removed (file? : Option SourceFile)
  | rescanBegun
  | rescanEnded (summary : RescanSummary)
deriving DecidableEq, Repr

/-- The same change with its result in another form. -/
def Change.map {α β : Type} (f : α → β) (c : Change α) : Change β :=
  ⟨f c.result, c.repository, c.events⟩

namespace Repository

/-- Does what is asked for. -/
def apply (r : Repository) : Operation → Change Answer
  | .addFile path folder configuration declarations =>
    (r.addFile path folder configuration declarations).map .added
  | .updateFile id declarations => (r.updateFile id declarations).map .updated
  | .removeFile id => (r.removeFile id).map .removed
  | .beginRescan => r.beginRescan.map fun _ => .rescanBegun
  | .endRescan => r.endRescan.map .rescanEnded

/-- The repository behind a sequence of operations. -/
def run (r : Repository) (ops : List Operation) : Repository :=
  ops.foldl (fun r op => (r.apply op).repository) r

@[simp] theorem run_nil (r : Repository) : r.run [] = r := by
  rfl

@[simp] theorem run_cons (r : Repository) (op : Operation) (ops : List Operation) :
    r.run (op :: ops) = (r.apply op).repository.run ops := by
  rfl

theorem run_append (r : Repository) (ops more : List Operation) : r.run (ops ++ more) = (r.run ops).run more :=
  List.foldl_append

/-- The events behind a sequence of operations, in order. -/
def announced (r : Repository) : List Operation → List Event
  | [] => []
  | op :: ops => (r.apply op).events ++ (r.apply op).repository.announced ops

theorem announced_append (r : Repository) (ops more : List Operation) :
    r.announced (ops ++ more) = r.announced ops ++ (r.run ops).announced more := by
  induction ops generalizing r with
  | nil => rfl
  | cons op ops ih => rw [List.cons_append, announced, announced, ih, run_cons, List.append_assoc]

theorem run_preserves {P : Repository → Prop} (hstep : ∀ r op, P r → P (r.apply op).repository) {r : Repository}
    (ops : List Operation) (h : P r) : P (r.run ops) := by
  induction ops generalizing r with
  | nil => exact h
  | cons op ops ih => exact ih (hstep r op h)

end Repository

end ResourceIndex
