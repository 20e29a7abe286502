import Mathlib.Data.Finset.Card
import ResourceIndex.Proofs.Repository.Indexes
import ResourceIndex.Proofs.Repository.Listing

/-!
# Announcements

The events of an operation tell what it did. A file that is given to the index announces exactly those of its resources
that have no item yet; that it was added comes behind them, with the number of resources that it declares. What is
counted as empty at the end of a rescan are the resources that no live file declares.
-/

namespace ResourceIndex.Repository

variable {r : Repository} {live : List LiveFile}

/-! ### New resources -/

theorem Coherent.mem_resources_getOrCreate (hr : r.Coherent) (d : Declaration) (p : ResourceType × String) :
    p ∈ (r.getOrCreate d).repository.resources ↔ p ∈ r.resources ∨ p = d.resource := by
  cases hh : r.handle? d.type d.name with
  | some h =>
    have hmem : d.resource ∈ r.resources := List.mem_of_getElem? ((hr d.type d.name h).mp hh)
    rw [getOrCreate_of_some hh]
    constructor
    · exact Or.inl
    · rintro (hp | rfl)
      · exact hp
      · exact hmem
  | none =>
    rw [resources_getOrCreate_of_none hh, List.mem_append, List.mem_singleton]
    rfl

theorem Coherent.mem_resources_attach (hr : r.Coherent) (v : Variant) (ds : List Declaration)
    (p : ResourceType × String) :
    p ∈ (r.attach v ds).repository.resources ↔ p ∈ r.resources ∨ p ∈ ds.map Declaration.resource := by
  induction ds generalizing r with
  | nil => simp [Repository.attach]
  | cons d ds ih =>
    have hprovide : (r.provide v d).repository.resources = (r.getOrCreate d).repository.resources :=
      resources_modifyItem fun i => i.name_add v d.isInline
    rw [Repository.attach, ih (hr.provide v d), hprovide, hr.mem_resources_getOrCreate, List.map_cons, List.mem_cons,
      or_assoc]

/-- The resources that a file makes are those that it declares and that have no item yet. -/
theorem Coherent.exists_created (hr : r.Coherent) (f : SourceFile) :
    ∃ created, (r.insertFile f).repository.resources = r.resources ++ created ∧
      (r.insertFile f).events = created.map announcement ∧
      created.Nodup ∧ ∀ p, p ∈ created ↔ p ∈ f.declarations.map Declaration.resource ∧ p ∉ r.resources := by
  obtain ⟨created, hcreated, hevents⟩ := exists_resources_insertFile r f
  have hnodup := (hr.insertFile f).nodup
  rw [hcreated, List.nodup_append] at hnodup
  refine ⟨created, hcreated, hevents, hnodup.2.1, fun p => ?_⟩
  have hmem : p ∈ r.resources ++ created ↔ p ∈ r.resources ∨ p ∈ f.declarations.map Declaration.resource := by
    rw [← hcreated]
    exact hr.mem_resources_attach f.variant f.declarations p
  rw [List.mem_append] at hmem
  have hdisjoint : p ∈ created → p ∉ r.resources := fun hp hold => hnodup.2.2 p hold p hp rfl
  tauto

/-! ### Events of the operations -/

theorem mem_events_addFile {path : Path} {folder : FolderType} {configuration : Configuration}
    {declarations : List Declaration} {e : Event} (h : e ∈ (r.addFile path folder configuration declarations).events) :
    (∃ type name, e = .itemCreated type name) ∨ ∃ resources, e = .fileAdded path resources := by
  obtain ⟨created, -, hevents⟩ := exists_resources_insertFile { r with nextId := r.nextId + 1 }
    ⟨⟨r.nextId⟩, path, folder, configuration, Declaration.merged declarations⟩
  rw [Repository.addFile, hevents] at h
  obtain h | h := List.mem_append.mp h
  · obtain ⟨p, -, rfl⟩ := List.mem_map.mp h
    exact .inl ⟨p.1.name, p.2, rfl⟩
  · exact .inr ⟨_, List.mem_singleton.mp h⟩

theorem Coherent.events_addFile (hr : r.Coherent) (path : Path) (folder : FolderType) (configuration : Configuration)
    (declarations : List Declaration) :
    ∃ created, (r.addFile path folder configuration declarations).repository.resources = r.resources ++ created ∧
      (r.addFile path folder configuration declarations).events =
        created.map announcement ++ [.fileAdded path (declarations.map Declaration.resource).toFinset.card] ∧
      created.Nodup ∧ ∀ p, p ∈ created ↔ p ∈ declarations.map Declaration.resource ∧ p ∉ r.resources := by
  obtain ⟨created, hcreated, hevents, hnodup, hmem⟩ :=
    Coherent.exists_created (r := { r with nextId := r.nextId + 1 }) hr
      ⟨⟨r.nextId⟩, path, folder, configuration, Declaration.merged declarations⟩
  refine ⟨created, hcreated, ?_, hnodup, fun p => ?_⟩
  · rw [Repository.addFile, hevents, Declaration.length_merged]
  · rw [hmem, Declaration.mem_map_resource_merged]
    rfl

theorem Coherent.events_updateFile (hr : r.Coherent) {id : SourceId} {old : SourceFile}
    (hfile : r.file? id = some old) (declarations : List Declaration) :
    ∃ created, (r.updateFile id declarations).repository.resources = r.resources ++ created ∧
      (r.updateFile id declarations).events = created.map announcement ∧
      created.Nodup ∧ ∀ p, p ∈ created ↔ p ∈ declarations.map Declaration.resource ∧ p ∉ r.resources := by
  obtain ⟨created, hcreated, hevents, hnodup, hmem⟩ :=
    (hr.eraseFile old).exists_created { old with declarations := Declaration.merged declarations }
  rw [resources_eraseFile] at hcreated
  rw [updateFile_of_file?_eq_some hfile]
  refine ⟨created, hcreated, hevents, hnodup, fun p => ?_⟩
  rw [hmem, Declaration.mem_map_resource_merged, resources_eraseFile]

theorem Indexes.events_endRescan (h : r.Indexes live) :
    r.endRescan.events =
      [.rescanFinished r.resources.length (r.resources.countP fun p => live.all (!·.declares p.1 p.2))] := by
  have hempty : r.entries.countP (·.item.hasNoVariants) =
      r.resources.countP fun p => live.all (!·.declares p.1 p.2) := by
    rw [resources, List.countP_map]
    refine List.countP_congr fun e he => ?_
    rw [e.item.hasNoVariants_iff, ← h.coherent.provided_of_mem he, h.provided_eq_nil_iff]
    simp
  rw [length_resources, ← hempty]
  rfl

end ResourceIndex.Repository
