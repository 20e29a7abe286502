import ResourceIndex.Proofs.Repository.Ledger
import ResourceIndex.Proofs.Repository.Listing

/-!
# Rescans

After a rescan a repository still has its old items, and goes on numbering files where it was. Nothing else is left of
what was before: raised by the next id at the rescan, the ids of a new repository that is taken through the same
operations give the same answers. The reason is that both are the index of the same live files up to ids, and that
listings depend on nothing but what provides the resources.
-/

namespace ResourceIndex

/-! ### Raising ids -/

/-- The id whose number is larger by `k`. -/
def SourceId.raise (k : Nat) (id : SourceId) : SourceId :=
  ⟨id.number + k⟩

/-- The variant of the file with the raised id. -/
def Variant.raise (k : Nat) (v : Variant) : Variant :=
  { v with source := v.source.raise k }

/-- The contribution of the file with the raised id. -/
def Contribution.raise (k : Nat) (c : Contribution) : Contribution :=
  { c with variant := c.variant.raise k }

/-- The item provided by the files with raised ids, with the same flags. -/
def Item.raise (k : Nat) (i : Item) : Item :=
  { i with
    variants := i.variants.map (·.raise k)
    length_inlineFlags := by rw [List.length_map, i.length_inlineFlags] }

/-- The file with the raised id. -/
def SourceFile.raise (k : Nat) (f : SourceFile) : SourceFile :=
  { f with id := f.id.raise k }

/-- The live file with the raised id. -/
def LiveFile.raise (k : Nat) (f : LiveFile) : LiveFile :=
  { f with id := f.id.raise k }

/-- The operation with lower ids. There is none for an operation on a file with an id below `k`. -/
def Operation.lower? (k : Nat) : Operation → Option Operation
  | .updateFile id declarations => if k ≤ id.number then some (.updateFile ⟨id.number - k⟩ declarations) else none
  | .removeFile id => if k ≤ id.number then some (.removeFile ⟨id.number - k⟩) else none
  | op => some op

/-- The first answer is the second one with ids raised. Of a summary, the number of items that something provides
counts. -/
def Answer.Raises (k : Nat) : Answer → Answer → Prop
  | .added id, .added other => id = other.raise k
  | .updated isIndexed, .updated other => isIndexed = other
  | .removed file?, .removed other => file? = other.map (·.raise k)
  | .rescanBegun, .rescanBegun => True
  | .rescanEnded summary, .rescanEnded other => summary.items - summary.empty = other.items - other.empty
  | _, _ => False

/-- What is told about an item besides its variants. -/
def Item.derived (i : Item) : Nat × Nat × Bool × Bool × Bool × Bool × Bool :=
  (i.variantCount, i.alternateCount, i.hasNoVariants, i.isDeclaredInline, i.isEditableDirectly, i.hasAlternates,
    i.hasDefault)

/-- To every question, handles apart, the first repository has the answer of the second one with ids raised. -/
structure Repository.Raises (k : Nat) (r fresh : Repository) : Prop where
  file? : ∀ id, r.file? (id.raise k) = (fresh.file? id).map (·.raise k)
  fileCount : r.fileCount = fresh.fileCount
  sourceOf? : ∀ path, r.sourceOf? path = (fresh.sourceOf? path).map (·.raise k)
  types : r.types = fresh.types
  ofType : ∀ type, r.ofType type = (fresh.ofType type).map (·.raise k)
  derived : ∀ type, (r.ofType type).map Item.derived = (fresh.ofType type).map Item.derived

/-! ### Raised views -/

theorem SourceId.raise_inj {k : Nat} {id other : SourceId} : id.raise k = other.raise k ↔ id = other := by
  obtain ⟨m⟩ := id
  obtain ⟨n⟩ := other
  simp [raise]

theorem SourceId.raise_sub {k : Nat} {id : SourceId} (h : k ≤ id.number) :
    (⟨id.number - k⟩ : SourceId).raise k = id := by
  simp [raise, Nat.sub_add_cancel h]

theorem Item.contributions_raise (k : Nat) (i : Item) :
    (i.raise k).contributions = i.contributions.map (·.raise k) := by
  simp [contributions, raise, Contribution.raise, List.zip_map_left, Function.comp_def]

theorem Item.derived_raise (k : Nat) (i : Item) : (i.raise k).derived = i.derived := by
  have hdefault : Variant.isDefault ∘ Variant.raise k = Variant.isDefault := rfl
  simp only [derived, variantCount, alternateCount, hasNoVariants, isDeclaredInline, isEditableDirectly, hasAlternates,
    hasDefault, raise, List.length_map, List.countP_map, List.isEmpty_map, List.any_map, Function.comp_def]
  rfl

theorem LiveFile.contribution?_raise (k : Nat) (f : LiveFile) (type : ResourceType) (name : String) :
    (f.raise k).contribution? type name = (f.contribution? type name).map (·.raise k) := by
  have hdeclares : (f.raise k).declares type name = f.declares type name := rfl
  rw [contribution?, contribution?, hdeclares]
  cases f.declares type name <;> rfl

namespace Repository

variable {k : Nat} {r fresh : Repository} {live : List LiveFile}

theorem provided_raise (h : r.Indexes (live.map (·.raise k))) (hfresh : fresh.Indexes live) (type : ResourceType)
    (name : String) : r.provided type name = (fresh.provided type name).map (·.raise k) := by
  rw [h.provided, hfresh.provided, List.filterMap_map, List.map_filterMap]
  refine List.filterMap_congr fun f _ => ?_
  rw [Function.comp_apply, LiveFile.contribution?_raise]

theorem provided_ne_nil_iff (h : r.Indexes (live.map (·.raise k))) (hfresh : fresh.Indexes live)
    (type : ResourceType) (name : String) : r.provided type name ≠ [] ↔ fresh.provided type name ≠ [] := by
  rw [provided_raise h hfresh, ne_eq, List.map_eq_nil_iff]

theorem file?_raise (h : r.Indexes (live.map (·.raise k))) (hfresh : fresh.Indexes live) (id : SourceId) :
    r.file? (id.raise k) = (fresh.file? id).map (·.raise k) := by
  have hid : ((fun f : LiveFile => decide (f.id = id.raise k)) ∘ LiveFile.raise k) = fun f => decide (f.id = id) := by
    funext f
    exact decide_eq_decide.mpr SourceId.raise_inj
  rw [h.file?, hfresh.file?, List.find?_map, hid, Option.map_map, Option.map_map]
  rfl

theorem sourceOf?_raise (h : r.Indexes (live.map (·.raise k))) (hfresh : fresh.Indexes live) (path : Path) :
    r.sourceOf? path = (fresh.sourceOf? path).map (·.raise k) := by
  ext id
  rw [h.sourceOf?_eq_some_iff, Option.map_eq_some_iff]
  simp only [hfresh.sourceOf?_eq_some_iff, List.mem_map, exists_exists_and_eq_and, forall_exists_index, and_imp,
    forall_apply_eq_imp_iff₂]
  constructor
  · rintro ⟨⟨f, hf, rfl, hpath⟩, hleast⟩
    exact ⟨f.id, ⟨⟨f, hf, rfl, hpath⟩, fun g hg hsame => Nat.le_of_add_le_add_right (hleast g hg hsame)⟩, rfl⟩
  · rintro ⟨_, ⟨⟨f, hf, rfl, hpath⟩, hleast⟩, rfl⟩
    exact ⟨⟨f, hf, rfl, hpath⟩, fun g hg hsame => Nat.add_le_add_right (hleast g hg hsame) k⟩

theorem ofType_raise (h : r.Indexes (live.map (·.raise k))) (hfresh : fresh.Indexes live) (type : ResourceType) :
    r.ofType type = (fresh.ofType type).map (·.raise k) := by
  refine eq_of_ascending (h.coherent.ofType_ascending type) ?_ fun i => ?_
  · exact List.pairwise_map.mpr (hfresh.coherent.ofType_ascending type)
  rw [h.coherent.mem_ofType, provided_raise h hfresh, List.mem_map]
  constructor
  · rintro ⟨hprovided, hne⟩
    have hfilled : fresh.provided type i.name ≠ [] := by
      rintro hnil
      rw [hnil] at hprovided
      exact hne hprovided.symm
    obtain ⟨j, hj, hcontributions⟩ := find?_of_provided_ne_nil hfilled
    have hname := hfresh.coherent.name_of_find? hj
    refine ⟨j, hfresh.coherent.mem_ofType.mpr ⟨?_, hcontributions ▸ hfilled⟩, Item.ext_contributions hname ?_⟩
    · rw [hname, hcontributions]
    · rw [Item.contributions_raise, hcontributions, hprovided]
  · rintro ⟨j, hj, rfl⟩
    obtain ⟨hprovided, hne⟩ := hfresh.coherent.mem_ofType.mp hj
    rw [Item.contributions_raise]
    exact ⟨congrArg _ hprovided, by rwa [ne_eq, List.map_eq_nil_iff]⟩

/-- Two indexes of the same live files up to ids answer alike up to ids. -/
theorem raises_of_indexes (h : r.Indexes (live.map (·.raise k))) (hfresh : fresh.Indexes live) : r.Raises k fresh where
  file? := file?_raise h hfresh
  fileCount := by rw [h.fileCount_eq, hfresh.fileCount_eq, List.length_map]
  sourceOf? := sourceOf?_raise h hfresh
  types := h.coherent.types_eq hfresh.coherent fun type =>
    exists_congr fun name => provided_ne_nil_iff h hfresh type name
  ofType := ofType_raise h hfresh
  derived type := by
    rw [ofType_raise h hfresh, List.map_map]
    exact List.map_congr_left fun i _ => i.derived_raise k

/-! ### Runs side by side -/

/-- Both repositories are the index of the same live files, up to ids, and go on numbering files at a distance of
`k`. -/
def InStep (k : Nat) (r fresh : Repository) : Prop :=
  ∃ live, r.Indexes (live.map (·.raise k)) ∧ fresh.Indexes live ∧ r.nextId = fresh.nextId + k

theorem InStep.addFile (h : InStep k r fresh) (path : Path) (folder : FolderType) (configuration : Configuration)
    (declarations : List Declaration) :
    InStep k (r.addFile path folder configuration declarations).repository
      (fresh.addFile path folder configuration declarations).repository := by
  obtain ⟨live, hr, hfresh, hnext⟩ := h
  refine ⟨_, ?_, hfresh.addFile path folder configuration declarations, ?_⟩
  · rw [List.map_append]
    have hadded := hr.addFile path folder configuration declarations
    rwa [hnext] at hadded
  · rw [nextId_addFile, nextId_addFile, hnext]
    omega

theorem filter_id_ne_raise (live : List LiveFile) (id : SourceId) :
    (live.map (·.raise k)).filter (·.id ≠ id.raise k) = (live.filter (·.id ≠ id)).map (·.raise k) := by
  rw [List.filter_map]
  congr 1
  refine List.filter_congr fun f _ => ?_
  exact decide_eq_decide.mpr (not_congr SourceId.raise_inj)

theorem InStep.updateFile (h : InStep k r fresh) (id : SourceId) (declarations : List Declaration) :
    (r.updateFile (id.raise k) declarations).result = (fresh.updateFile id declarations).result ∧
      InStep k (r.updateFile (id.raise k) declarations).repository
        (fresh.updateFile id declarations).repository := by
  obtain ⟨live, hr, hfresh, hnext⟩ := h
  have hfile := file?_raise hr hfresh id
  cases hold : fresh.file? id with
  | none =>
    rw [hold] at hfile
    rw [updateFile_of_file?_eq_none hold, updateFile_of_file?_eq_none hfile]
    exact ⟨rfl, live, hr, hfresh, hnext⟩
  | some old =>
    obtain ⟨f, -, hf, rfl, rfl⟩ := hfresh.find?_id_of_file?_eq_some hold
    rw [hold] at hfile
    refine ⟨?_, _, ?_, hfresh.updateFile hf declarations, ?_⟩
    · rw [updateFile_of_file?_eq_some hold, updateFile_of_file?_eq_some hfile]
    · rw [List.map_append, ← filter_id_ne_raise]
      exact hr.updateFile (List.mem_map_of_mem hf) declarations
    · rw [nextId_updateFile, nextId_updateFile, hnext]

theorem InStep.removeFile (h : InStep k r fresh) (id : SourceId) :
    (r.removeFile (id.raise k)).result = (fresh.removeFile id).result.map (·.raise k) ∧
      InStep k (r.removeFile (id.raise k)).repository (fresh.removeFile id).repository := by
  obtain ⟨live, hr, hfresh, hnext⟩ := h
  have hfile := file?_raise hr hfresh id
  cases hold : fresh.file? id with
  | none =>
    rw [hold] at hfile
    rw [removeFile_of_file?_eq_none hold, removeFile_of_file?_eq_none hfile]
    exact ⟨rfl, live, hr, hfresh, hnext⟩
  | some old =>
    obtain ⟨f, -, hf, rfl, rfl⟩ := hfresh.find?_id_of_file?_eq_some hold
    rw [hold] at hfile
    refine ⟨?_, _, ?_, hfresh.removeFile hf, ?_⟩
    · rw [removeFile_of_file?_eq_some hold, removeFile_of_file?_eq_some hfile]
      rfl
    · rw [← filter_id_ne_raise]
      exact hr.removeFile (List.mem_map_of_mem hf)
    · rw [nextId_removeFile, nextId_removeFile, hnext]

/-- An operation goes with the operation with lower ids: the answers agree, and the repositories stay in step. -/
theorem InStep.apply (h : InStep k r fresh) {op lowered : Operation} (hop : op.lower? k = some lowered) :
    ((r.apply op).result).Raises k (fresh.apply lowered).result ∧
      InStep k (r.apply op).repository (fresh.apply lowered).repository := by
  cases op with
  | addFile path folder configuration declarations =>
    obtain rfl := Option.some.inj hop
    obtain ⟨live, -, -, hnext⟩ := id h
    exact ⟨congrArg SourceId.mk hnext, h.addFile path folder configuration declarations⟩
  | updateFile id declarations =>
    obtain ⟨hle, rfl⟩ := by simpa [Operation.lower?] using hop
    have hupdate := h.updateFile ⟨id.number - k⟩ declarations
    rwa [SourceId.raise_sub hle] at hupdate
  | removeFile id =>
    obtain ⟨hle, rfl⟩ := by simpa [Operation.lower?] using hop
    have hremove := h.removeFile ⟨id.number - k⟩
    rwa [SourceId.raise_sub hle] at hremove
  | beginRescan =>
    obtain rfl := Option.some.inj hop
    obtain ⟨live, hr, hfresh, hnext⟩ := h
    exact ⟨trivial, [], hr.beginRescan, hfresh.beginRescan, hnext⟩
  | endRescan =>
    obtain rfl := Option.some.inj hop
    refine ⟨?_, h⟩
    obtain ⟨live, hr, hfresh, -⟩ := h
    exact hr.coherent.items_sub_empty_eq hfresh.coherent (provided_ne_nil_iff hr hfresh)

theorem InStep.file?_eq_none (h : InStep k r fresh) {id : SourceId} (hid : id.number < k) : r.file? id = none := by
  obtain ⟨live, hr, -, -⟩ := h
  cases hfile : r.file? id with
  | none => rfl
  | some old =>
    obtain ⟨f, -, hf, rfl, -⟩ := hr.find?_id_of_file?_eq_some hfile
    obtain ⟨g, -, rfl⟩ := List.mem_map.mp hf
    have hle : k ≤ g.id.number + k := Nat.le_add_left ..
    exact absurd hid (Nat.not_lt.mpr hle)

/-- An operation on a file from before does nothing. -/
theorem InStep.apply_stale (h : InStep k r fresh) {op : Operation} (hop : op.lower? k = none) :
    (r.apply op).repository = r := by
  cases op with
  | updateFile id declarations =>
    have hid : id.number < k := by simpa [Operation.lower?] using hop
    rw [Repository.apply, Change.map, updateFile_of_file?_eq_none (h.file?_eq_none hid)]
  | removeFile id =>
    have hid : id.number < k := by simpa [Operation.lower?] using hop
    rw [Repository.apply, Change.map, removeFile_of_file?_eq_none (h.file?_eq_none hid)]
  | _ => contradiction

theorem InStep.run (h : InStep k r fresh) (ops : List Operation) :
    InStep k (r.run ops) (fresh.run (ops.filterMap (·.lower? k))) := by
  induction ops generalizing r fresh with
  | nil => exact h
  | cons op ops ih =>
    rw [List.filterMap_cons, run_cons]
    cases hop : op.lower? k with
    | none =>
      rw [h.apply_stale hop]
      exact ih h
    | some lowered => exact ih (h.apply hop).2

theorem inStep_beginRescan {live : List LiveFile} (h : r.Indexes live) :
    InStep r.nextId r.beginRescan.repository {} :=
  ⟨[], h.beginRescan, indexes_empty, (Nat.zero_add _).symm⟩

/-- After a rescan, and whatever is done from then on, a repository answers as a new one does that is taken through the
same operations, with ids raised by the next id at the rescan. An operation on a file from before is refused, changes
nothing and is silent, and the new repository is not asked for it. -/
theorem beginRescan_forgets (past ops : List Operation) :
    let k := (run {} past).nextId
    let r := (run {} past).beginRescan.repository.run ops
    let fresh := run {} (ops.filterMap (·.lower? k))
    r.Raises k fresh ∧
      (∀ op lowered, op.lower? k = some lowered → ((r.apply op).result).Raises k (fresh.apply lowered).result) ∧
      ∀ id : SourceId, id.number < k →
        (∀ declarations, r.updateFile id declarations = { result := false, repository := r, events := [] }) ∧
        r.removeFile id = { result := none, repository := r, events := [] } := by
  intro k r fresh
  have hstep : InStep k r fresh := (inStep_beginRescan (keeps_empty.run past).indexes).run ops
  obtain ⟨live, hr, hfresh, -⟩ := id hstep
  refine ⟨raises_of_indexes hr hfresh, fun op lowered hop => (hstep.apply hop).1, fun id hid => ?_⟩
  have hfile := hstep.file?_eq_none hid
  exact ⟨updateFile_of_file?_eq_none hfile, removeFile_of_file?_eq_none hfile⟩

/-- Indexed again after a rescan, a file has the id 1, and its old id 0 means nothing any more. -/
theorem beginRescan_forgets_strings :
    let strings : Operation := .addFile ⟨"values/strings.xml"⟩ .values {} [⟨.string, "title", false⟩]
    let r := (run {} [strings]).beginRescan.repository.run [strings]
    r.Raises 1 (run {} [strings]) ∧
      ((r.apply (.removeFile ⟨1⟩)).result).Raises 1 ((run {} [strings]).apply (.removeFile ⟨0⟩)).result ∧
      r.removeFile ⟨0⟩ = { result := none, repository := r, events := [] } := by
  intro strings r
  have hk : (run {} [strings]).nextId = 1 := nextId_addFile ..
  obtain ⟨hraises, hstep, hstale⟩ := beginRescan_forgets [strings] [strings]
  rw [hk] at hraises hstep hstale
  exact ⟨hraises, hstep (.removeFile ⟨1⟩) (.removeFile ⟨0⟩) rfl, (hstale ⟨0⟩ (by decide)).2⟩

end Repository

end ResourceIndex
