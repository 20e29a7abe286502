import ResourceIndex.Proofs.Repository.Indexes

/-!
# The ledger

What an index answers about files and items can be kept in a plain list: the live files, ordered by when each was last
given, with their declarations as they came. The ledger is that list, together with every id ever issued. However many
operations there are, and in whatever order, the index gives the answers that the ledger allows, and describes exactly
the files that the ledger holds.
-/

namespace ResourceIndex

/-- The live files in the order in which they were last given, and the ids issued so far. -/
structure Ledger where
  files : List LiveFile := []
  issued : List SourceId := []

namespace Ledger

/-- The live file with a given id. -/
def file? (l : Ledger) (id : SourceId) : Option LiveFile :=
  l.files.find? (·.id = id)

/-- Moves a file behind all others, with new declarations. -/
def update (l : Ledger) (id : SourceId) (declarations : List Declaration) : Ledger :=
  match l.file? id with
  | none => l
  | some f => { l with files := l.files.filter (·.id ≠ id) ++ [{ f with declarations := declarations }] }

/-- Enters an operation together with its answer, which says under which id a file was added. -/
def record (l : Ledger) : Operation → Answer → Ledger
  | .addFile path folder configuration declarations, .added id =>
    { files := l.files ++ [⟨id, path, folder, configuration, declarations⟩], issued := id :: l.issued }
  | .updateFile id declarations, _ => l.update id declarations
  | .removeFile id, _ => { l with files := l.files.filter (·.id ≠ id) }
  | .beginRescan, _ => { l with files := [] }
  | _, _ => l

/-- The ledger after a sequence of operations on a repository. -/
def follow (l : Ledger) (r : Repository) : List Operation → Ledger
  | [] => l
  | op :: ops => (l.record op (r.apply op).result).follow (r.apply op).repository ops

end Ledger

/-- The live file as an index may keep it: each resource that it declares stands once, in ascending order, and is inline
if every declaration of it is. -/
structure LiveFile.KeptAs (f : LiveFile) (s : SourceFile) : Prop where
  id : s.id = f.id
  path : s.path = f.path
  folder : s.folder = f.folder
  configuration : s.configuration = f.configuration
  ascending : Declaration.Ascending s.declarations
  mem_iff : ∀ d, d ∈ s.declarations ↔ f.declares d.type d.name ∧ d.isInline = f.declaresInline d.type d.name

namespace Ledger

/-- The ledger allows an answer: an added file gets an id that was never issued, and exactly the live files can be
updated and removed. -/
def Allows (l : Ledger) : Operation → Answer → Prop
  | .addFile .., .added id => id ∉ l.issued
  | .updateFile id _, .updated isIndexed => isIndexed = (l.file? id).isSome
  | .removeFile id, .removed none => l.file? id = none
  | .removeFile id, .removed (some s) => ∃ f, l.file? id = some f ∧ f.KeptAs s
  | .beginRescan, .rescanBegun => True
  | .endRescan, .rescanEnded _ => True
  | _, _ => False

/-- A repository describes the files of a ledger: by id, by number and by path, and item by item, in the order of the
ledger. -/
structure Describes (l : Ledger) (r : Repository) : Prop where
  file?_none : ∀ id, r.file? id = none ↔ l.file? id = none
  file?_some : ∀ id s, r.file? id = some s → ∃ f, l.file? id = some f ∧ f.KeptAs s
  fileCount : r.fileCount = l.files.length
  sourceOf? : ∀ path id, r.sourceOf? path = some id ↔
    (∃ f ∈ l.files, f.id = id ∧ Path.Same f.path path) ∧
      ∀ f ∈ l.files, Path.Same f.path path → id.number ≤ f.id.number
  item : ∀ type name i, r.find? type name = some i →
    i.name = name ∧
    i.variants = (l.files.filter (·.declares type name)).map LiveFile.variant ∧
    i.inlineFlags = (l.files.filter (·.declares type name)).map (·.declaresInline type name)
  no_item : ∀ type name, r.find? type name = none → ∀ f ∈ l.files, f.declares type name = false

end Ledger

/-! ### What an index of live files answers -/

theorem Ledger.filter_id_ne {l : Ledger} {id : SourceId} (h : l.file? id = none) :
    l.files.filter (·.id ≠ id) = l.files := by
  simpa [file?] using h

theorem LiveFile.keptAs_indexed (f : LiveFile) : f.KeptAs f.indexed where
  id := rfl
  path := rfl
  folder := rfl
  configuration := rfl
  ascending := Declaration.merged_ascending f.declarations
  mem_iff d := by
    have hmem : d ∈ f.indexed.declarations ↔ _ := (Declaration.merged_ascending f.declarations).mem_iff d
    rw [hmem, Declaration.flag?_merged, f.flag?_declarations]
    cases f.declares d.type d.name <;> simp [eq_comm]

theorem LiveFile.map_variant_filterMap (live : List LiveFile) (type : ResourceType) (name : String) :
    (live.filterMap (·.contribution? type name)).map (·.variant) =
      (live.filter (·.declares type name)).map LiveFile.variant := by
  induction live with
  | nil => rfl
  | cons f live ih =>
    rw [List.filterMap_cons, List.filter_cons, contribution?]
    cases f.declares type name <;> simpa using ih

theorem LiveFile.map_isInline_filterMap (live : List LiveFile) (type : ResourceType) (name : String) :
    (live.filterMap (·.contribution? type name)).map (·.isInline) =
      (live.filter (·.declares type name)).map (·.declaresInline type name) := by
  induction live with
  | nil => rfl
  | cons f live ih =>
    rw [List.filterMap_cons, List.filter_cons, contribution?]
    cases f.declares type name <;> simpa using ih

namespace Repository

variable {r : Repository} {l : Ledger}

theorem Indexes.describes (h : r.Indexes l.files) : l.Describes r where
  file?_none id := by
    rw [h.file?, Option.map_eq_none_iff]
    rfl
  file?_some id s hs := by
    obtain ⟨f, hf, -, -, rfl⟩ := h.find?_id_of_file?_eq_some hs
    exact ⟨f, hf, f.keptAs_indexed⟩
  fileCount := h.fileCount_eq
  sourceOf? _ _ := h.sourceOf?_eq_some_iff
  item type name i hi := by
    have hcontributions := (provided_of_find? hi).symm.trans (h.provided type name)
    refine ⟨h.coherent.name_of_find? hi, ?_, ?_⟩
    · rw [← i.map_variant_contributions, hcontributions, LiveFile.map_variant_filterMap]
    · rw [← i.map_isInline_contributions, hcontributions, LiveFile.map_isInline_filterMap]
  no_item type name hnone := by
    refine (h.provided_eq_nil_iff type name).mp ?_
    rw [Repository.provided, hnone]
    rfl

/-! ### The invariant of a run -/

/-- The repository is the index of the ledger's files, and issues no id of the ledger again. -/
structure Keeps (r : Repository) (l : Ledger) : Prop where
  indexes : r.Indexes l.files
  issued_lt : ∀ id ∈ l.issued, id.number < r.nextId

theorem keeps_empty : Keeps {} {} where
  indexes := indexes_empty
  issued_lt id hid := by contradiction

/-- An id is of no file on either side, or of one live file and of that file as it is indexed. -/
theorem Keeps.file?_cases (h : r.Keeps l) (id : SourceId) :
    (r.file? id = none ∧ l.file? id = none) ∨
      ∃ f ∈ l.files, f.id = id ∧ r.file? id = some f.indexed ∧ l.file? id = some f := by
  rw [h.indexes.file?]
  cases hlive : l.file? id with
  | none => exact .inl ⟨congrArg (Option.map LiveFile.indexed) hlive, rfl⟩
  | some f =>
    obtain ⟨hf, hid⟩ := (LiveFile.find?_id_eq_some_iff h.indexes.ids_nodup).mp hlive
    exact .inr ⟨f, hf, hid, congrArg (Option.map LiveFile.indexed) hlive, rfl⟩

theorem Keeps.apply (h : r.Keeps l) (op : Operation) :
    (r.apply op).repository.Keeps (l.record op (r.apply op).result) := by
  cases op with
  | addFile path folder configuration declarations =>
    refine ⟨h.indexes.addFile path folder configuration declarations, fun id hid => ?_⟩
    rw [Repository.apply, Change.map, nextId_addFile]
    rcases List.mem_cons.mp hid with rfl | hid
    · exact Nat.lt_succ_self _
    · exact Nat.lt_succ_of_lt (h.issued_lt id hid)
  | updateFile id declarations =>
    rw [Repository.apply, Change.map, Ledger.record, Ledger.update]
    obtain ⟨hfile, hlive⟩ | ⟨f, hf, rfl, hfile, hlive⟩ := h.file?_cases id
    · rw [hlive, updateFile_of_file?_eq_none hfile]
      exact h
    · rw [hlive]
      refine ⟨h.indexes.updateFile hf declarations, fun id hid => ?_⟩
      rw [nextId_updateFile]
      exact h.issued_lt id hid
  | removeFile id =>
    rw [Repository.apply, Change.map, Ledger.record]
    obtain ⟨hfile, hlive⟩ | ⟨f, hf, rfl, hfile, hlive⟩ := h.file?_cases id
    · rw [Ledger.filter_id_ne hlive, removeFile_of_file?_eq_none hfile]
      exact h
    · refine ⟨h.indexes.removeFile hf, fun id hid => ?_⟩
      rw [nextId_removeFile]
      exact h.issued_lt id hid
  | beginRescan => exact ⟨h.indexes.beginRescan, h.issued_lt⟩
  | endRescan => exact h

theorem Keeps.allows (h : r.Keeps l) (op : Operation) : l.Allows op (r.apply op).result := by
  cases op with
  | addFile path folder configuration declarations =>
    intro hissued
    exact Nat.lt_irrefl _ (h.issued_lt _ hissued)
  | updateFile id declarations =>
    rw [Repository.apply, Change.map, Ledger.Allows]
    obtain ⟨hfile, hlive⟩ | ⟨f, -, -, hfile, hlive⟩ := h.file?_cases id
    · rw [updateFile_of_file?_eq_none hfile, hlive, Option.isSome_none]
    · rw [updateFile_of_file?_eq_some hfile, hlive, Option.isSome_some]
  | removeFile id =>
    rw [Repository.apply, Change.map]
    obtain ⟨hfile, hlive⟩ | ⟨f, -, -, hfile, hlive⟩ := h.file?_cases id
    · rw [removeFile_of_file?_eq_none hfile]
      exact hlive
    · rw [removeFile_of_file?_eq_some hfile]
      exact ⟨f, hlive, f.keptAs_indexed⟩
  | beginRescan => trivial
  | endRescan => trivial

theorem Keeps.run (h : r.Keeps l) (ops : List Operation) :
    (r.run ops).Keeps (l.follow r ops) := by
  induction ops generalizing r l with
  | nil => exact h
  | cons op ops ih => exact ih (h.apply op)

/-- Behind every sequence of operations the repository describes the ledger of them, and the ledger allows its answer to
any next operation. -/
theorem run_refines_ledger (ops : List Operation) :
    (Ledger.follow {} {} ops).Describes (run {} ops) ∧
      ∀ op, (Ledger.follow {} {} ops).Allows op ((run {} ops).apply op).result := by
  have hkeeps := keeps_empty.run ops
  exact ⟨hkeeps.indexes.describes, hkeeps.allows⟩

end Repository

end ResourceIndex
