import ResourceIndex.Proofs.Repository.Ledger
import ResourceIndex.Proofs.Repository.Listing

/-!
# Replacing a file

A file can be given new declarations under its id, or it can be removed and added again under a new one. Both lead to
the same index up to that id: the same items at the same handles, with the same variants and flags in the same order,
and the same files. The events are the same as well, except those that tell of the removal and the addition. The reason
is that, once the file is gone, both ways add a variant to the same resources one after the other, and the variants
differ in the id only.
-/

namespace ResourceIndex

/-! ### Other ids -/

/-- `new` in place of `old`, and every other id as it is. -/
def SourceId.replace (old new id : SourceId) : SourceId :=
  if id = old then new else id

def Variant.mapSource (ρ : SourceId → SourceId) (v : Variant) : Variant :=
  { v with source := ρ v.source }

/-- The item with variants of other sources, each with its flag. -/
def Item.mapSource (ρ : SourceId → SourceId) (i : Item) : Item :=
  { i with
    variants := i.variants.map (·.mapSource ρ)
    length_inlineFlags := by rw [List.length_map, i.length_inlineFlags] }

def Entry.mapSource (ρ : SourceId → SourceId) (e : Entry) : Entry :=
  { e with item := e.item.mapSource ρ }

def SourceFile.mapId (ρ : SourceId → SourceId) (f : SourceFile) : SourceFile :=
  { f with id := ρ f.id }

/-- The event tells of a file that comes or goes. -/
def Event.isOfFile : Event → Bool
  | .fileAdded .. => true
  | .fileRemoved _ => true
  | _ => false

theorem SourceId.replace_self (old new : SourceId) : replace old new old = new :=
  if_pos rfl

theorem SourceId.replace_of_ne {old id : SourceId} (new : SourceId) (h : id ≠ old) : replace old new id = id :=
  if_neg h

section

variable {ρ : SourceId → SourceId}

theorem Item.mapSource_add (i : Item) (v : Variant) (isInline : Bool) :
    (i.mapSource ρ).add (v.mapSource ρ) isInline = (i.add v isInline).mapSource ρ := by
  apply Item.ext
  · rfl
  · simp [mapSource, add]
  · rfl

theorem Item.mapSource_eq_self {i : Item} (h : ∀ v ∈ i.variants, ρ v.source = v.source) : i.mapSource ρ = i := by
  have hvariants : i.variants.map (·.mapSource ρ) = i.variants := by
    refine (List.map_congr_left fun v hv => ?_).trans i.variants.map_id
    rw [Variant.mapSource, h v hv]
    rfl
  exact Item.ext rfl hvariants rfl

theorem map_mapSource_eq_self {entries : List Entry} (h : ∀ e ∈ entries, ∀ v ∈ e.item.variants, ρ v.source = v.source) :
    entries.map (·.mapSource ρ) = entries := by
  refine (List.map_congr_left fun e he => ?_).trans entries.map_id
  rw [Entry.mapSource, Item.mapSource_eq_self (h e he)]
  rfl

theorem map_mapId_eq_self {files : List SourceFile} (h : ∀ f ∈ files, ρ f.id = f.id) :
    files.map (·.mapId ρ) = files := by
  refine (List.map_congr_left fun f hf => ?_).trans files.map_id
  rw [SourceFile.mapId, h f hf]
  rfl

end

namespace Repository

/-! ### The same items under other ids -/

/-- The second repository has the items of the first one at the same handles, provided by other sources. -/
structure SameItems (ρ : SourceId → SourceId) (a b : Repository) : Prop where
  entries : b.entries = a.entries.map (·.mapSource ρ)
  lookup : b.lookup = a.lookup

end Repository

/-- The two changes have one result and the same events, and leave the same items under other ids. -/
structure Change.SameItems {α : Type} (ρ : SourceId → SourceId) (c d : Change α) : Prop where
  result : d.result = c.result
  items : c.repository.SameItems ρ d.repository
  events : d.events = c.events

namespace Repository

section

variable {ρ : SourceId → SourceId} {a b : Repository}

theorem SameItems.modifyItem (h : a.SameItems ρ b) (k : Handle) {f g : Item → Item}
    (hfg : ∀ i, g (i.mapSource ρ) = (f i).mapSource ρ) : (a.modifyItem k f).SameItems ρ (b.modifyItem k g) where
  entries := by
    apply List.ext_getElem?
    intro n
    simp only [Repository.modifyItem, h.entries, List.getElem?_map, List.getElem?_modify]
    cases a.entries[n]? with
    | none => rfl
    | some e =>
      by_cases hn : k.index = n
      · simp [hn, Entry.mapSource, hfg]
      · simp [hn]
  lookup := h.lookup

theorem SameItems.getOrCreate (h : a.SameItems ρ b) (d : Declaration) :
    (a.getOrCreate d).SameItems ρ (b.getOrCreate d) := by
  have hcount : b.itemCount = a.itemCount := by rw [itemCount, itemCount, h.entries, List.length_map]
  have hhandle : b.handle? d.type d.name = a.handle? d.type d.name := by rw [handle?, handle?, h.lookup]
  cases hh : a.handle? d.type d.name with
  | some k =>
    rw [getOrCreate_of_some hh, getOrCreate_of_some (hhandle.trans hh)]
    exact ⟨rfl, h, rfl⟩
  | none =>
    rw [getOrCreate_of_none hh, getOrCreate_of_none (hhandle.trans hh), hcount]
    refine ⟨rfl, ⟨?_, ?_⟩, rfl⟩
    · simp only [h.entries, List.map_append]
      rfl
    · simp only [h.lookup]

theorem SameItems.provide (h : a.SameItems ρ b) (v : Variant) (d : Declaration) :
    (a.provide v d).SameItems ρ (b.provide (v.mapSource ρ) d) := by
  obtain ⟨hresult, hitems, hevents⟩ := h.getOrCreate d
  refine ⟨rfl, ?_, hevents⟩
  rw [Repository.provide, Repository.provide, hresult]
  exact hitems.modifyItem (f := (·.add v d.isInline)) (g := (·.add (v.mapSource ρ) d.isInline)) _
    fun i => i.mapSource_add v d.isInline

theorem SameItems.attach (h : a.SameItems ρ b) (v : Variant) (ds : List Declaration) :
    (a.attach v ds).SameItems ρ (b.attach (v.mapSource ρ) ds) := by
  induction ds generalizing a b with
  | nil => exact ⟨rfl, h, rfl⟩
  | cons d ds ih =>
    have hfirst := h.provide v d
    have hothers := ih hfirst.items
    refine ⟨rfl, hothers.items, ?_⟩
    rw [Repository.attach, Repository.attach, hfirst.events, hothers.events]

theorem SameItems.insertFile (h : a.SameItems ρ b) (f : SourceFile) :
    (a.insertFile f).SameItems ρ (b.insertFile (f.mapId ρ)) := by
  have hattach := h.attach f.variant f.declarations
  exact ⟨rfl, ⟨hattach.items.entries, hattach.items.lookup⟩, hattach.events⟩

end

/-! ### The same files under other ids -/

variable {r : Repository} {live : List LiveFile}

/-- Every variant is of a live file. -/
theorem Indexes.exists_source (h : r.Indexes live) {e : Entry} (he : e ∈ r.entries) {v : Variant}
    (hv : v ∈ e.item.variants) : ∃ f ∈ live, f.id = v.source := by
  rw [← Item.map_variant_contributions, ← h.coherent.provided_of_mem he, h.provided] at hv
  obtain ⟨c, hc, rfl⟩ := List.mem_map.mp hv
  obtain ⟨f, hf, hcontribution⟩ := List.mem_filterMap.mp hc
  exact ⟨f, hf, (LiveFile.source_of_mem_contribution? hcontribution).symm⟩

/-- The second repository is the first one with the id `new` in place of `old`, and the first one knows no `new`. -/
structure Replaces (old new : SourceId) (a b : Repository) : Prop where
  items : a.SameItems (SourceId.replace old new) b
  files : b.fileList.Perm (a.fileList.map (·.mapId (SourceId.replace old new)))
  id_ne : ∀ f ∈ a.fileList, f.id ≠ new
  source_ne : ∀ e ∈ a.entries, ∀ v ∈ e.item.variants, v.source ≠ new

/-- What is indexed under an id that is still to be issued is what is indexed under the id of a file, with the new id in
the place of that one. -/
theorem Indexes.replaces {a b : Repository} {f : LiveFile} {number : Nat} (ha : a.Indexes (live ++ [f]))
    (hids : ∀ g ∈ live, g.id ≠ f.id) (hb : b.Indexes (live ++ [{ f with id := ⟨number⟩ }]))
    (hnumber : a.nextId ≤ number) (hitems : a.SameItems (SourceId.replace f.id ⟨number⟩) b) :
    a.Replaces f.id ⟨number⟩ b := by
  have hnew : ∀ g ∈ live ++ [f], g.id ≠ ⟨number⟩ := by
    intro g hg heq
    have hlt := ha.id_lt g hg
    rw [heq] at hlt
    exact absurd hlt (Nat.not_lt.mpr hnumber)
  have hothers : (live.map LiveFile.indexed).map (·.mapId (SourceId.replace f.id ⟨number⟩)) =
      live.map LiveFile.indexed := by
    apply map_mapId_eq_self
    intro s hs
    obtain ⟨g, hg, rfl⟩ := List.mem_map.mp hs
    exact SourceId.replace_of_ne _ (hids g hg)
  have hfiles : (live ++ [{ f with id := ⟨number⟩ }]).map LiveFile.indexed =
      ((live ++ [f]).map LiveFile.indexed).map (·.mapId (SourceId.replace f.id ⟨number⟩)) := by
    rw [List.map_append, List.map_append, List.map_append, hothers]
    simp [LiveFile.indexed, SourceFile.mapId, SourceId.replace_self]
  refine ⟨hitems, ?_, ?_, ?_⟩
  · exact (hb.fileList_perm.trans (.of_eq hfiles)).trans (ha.fileList_perm.symm.map _)
  · intro s hs
    obtain ⟨g, hg, rfl⟩ := ha.mem_fileList.mp hs
    exact hnew g hg
  · intro e he v hv
    obtain ⟨g, hg, hsource⟩ := ha.exists_source he hv
    rw [← hsource]
    exact hnew g hg

/-! ### Both ways -/

/-- Among files with other ids, a file that is put back under its own id and one that is added under a new id give the
same items up to the id, and the same events up to the one that tells of the addition. -/
theorem Indexes.sameItems_addFile (h : r.Indexes live) (f : LiveFile) (hids : ∀ g ∈ live, g.id ≠ f.id) :
    let put := r.insertFile f.indexed
    let added := r.addFile f.path f.folder f.configuration f.declarations
    put.repository.SameItems (SourceId.replace f.id ⟨r.nextId⟩) added.repository ∧
      ∃ resources, added.events = put.events ++ [.fileAdded f.path resources] := by
  have hstart : r.SameItems (SourceId.replace f.id ⟨r.nextId⟩) { r with nextId := r.nextId + 1 } := by
    refine ⟨(map_mapSource_eq_self fun e he v hv => ?_).symm, rfl⟩
    obtain ⟨g, hg, hsource⟩ := h.exists_source he hv
    exact SourceId.replace_of_ne _ (hsource ▸ hids g hg)
  have hinsert := hstart.insertFile f.indexed
  have hfile : f.indexed.mapId (SourceId.replace f.id ⟨r.nextId⟩) =
      ⟨⟨r.nextId⟩, f.path, f.folder, f.configuration, Declaration.merged f.declarations⟩ := by
    rw [SourceFile.mapId, LiveFile.indexed, SourceId.replace_self]
  rw [hfile] at hinsert
  refine ⟨hinsert.items, (Declaration.merged f.declarations).length, ?_⟩
  rw [Repository.addFile, ← hinsert.events]

theorem Indexes.replaces_addFile (h : r.Indexes live) (f : LiveFile) (hids : ∀ g ∈ live, g.id ≠ f.id)
    (hlt : f.id.number < r.nextId) :
    (r.insertFile f.indexed).repository.Replaces f.id ⟨r.nextId⟩
      (r.addFile f.path f.folder f.configuration f.declarations).repository := by
  have hnotMem : f.id ∉ live.map (·.id) := by
    intro hmem
    obtain ⟨g, hg, hid⟩ := List.mem_map.mp hmem
    exact hids g hg hid
  have hput := h.insertFile hnotMem hlt
  have hadded := h.addFile f.path f.folder f.configuration f.declarations
  exact hput.replaces hids hadded (Nat.le_of_eq (nextId_insertFile ..)) (h.sameItems_addFile f hids).1

/-- Putting a file into the table tells of new resources only. -/
theorem filter_events_insertFile (r : Repository) (f : SourceFile) :
    (r.insertFile f).events.filter (!·.isOfFile) = (r.insertFile f).events := by
  obtain ⟨created, -, hevents⟩ := exists_resources_insertFile r f
  rw [hevents, List.filter_eq_self]
  intro e he
  obtain ⟨p, -, rfl⟩ := List.mem_map.mp he
  rfl

theorem Indexes.replaces_updateFile (h : r.Indexes live) {f : LiveFile} (hf : f ∈ live)
    (declarations : List Declaration) :
    let updated := r.updateFile f.id declarations
    let removed := r.removeFile f.id
    let added := removed.repository.addFile f.path f.folder f.configuration declarations
    updated.result = true ∧ removed.result = some f.indexed ∧
      updated.repository.Replaces f.id added.result added.repository ∧
      updated.events = (removed.events ++ added.events).filter (!·.isOfFile) := by
  let changed : LiveFile := { f with declarations := declarations }
  have hids : ∀ g ∈ live.filter (·.id ≠ f.id), g.id ≠ changed.id := by
    intro g hg
    simpa using (List.mem_filter.mp hg).2
  have hlt : changed.id.number < (r.eraseFile f.indexed).nextId := by
    rw [nextId_eraseFile]
    exact h.id_lt f hf
  rw [updateFile_of_file?_eq_some (h.file?_eq_some hf), removeFile_of_file?_eq_some (h.file?_eq_some hf)]
  refine ⟨rfl, rfl, (h.eraseFile hf).replaces_addFile changed hids hlt, ?_⟩
  obtain ⟨-, resources, hadded⟩ := (h.eraseFile hf).sameItems_addFile changed hids
  have hfilter := filter_events_insertFile (r.eraseFile f.indexed) changed.indexed
  rw [hadded, List.filter_append, List.filter_append, hfilter]
  exact (List.append_nil _).symm

/-- In every repository that can be reached, a file that is updated, and the same file removed and added again with
these declarations, lead to the same repository up to the id of the file: item by item the same variants and flags in
the same order, and the same files. The update tells what the other way tells, apart from the removal and the addition.
An update of a file that is not indexed changes nothing and is silent. -/
theorem updateFile_replaces (ops : List Operation) (id : SourceId) (declarations : List Declaration) :
    let r := run {} ops
    let updated := r.updateFile id declarations
    let removed := r.removeFile id
    (∀ old, r.file? id = some old →
      let added := removed.repository.addFile old.path old.folder old.configuration declarations
      updated.result = true ∧ removed.result = some old ∧
        updated.repository.Replaces id added.result added.repository ∧
        updated.events = (removed.events ++ added.events).filter (!·.isOfFile)) ∧
    (r.file? id = none → updated = { result := false, repository := r, events := [] }) := by
  intro r updated removed
  have h := (keeps_empty.run ops).indexes
  refine ⟨fun old hold => ?_, fun hnone => updateFile_of_file?_eq_none hnone declarations⟩
  obtain ⟨f, -, hf, rfl, rfl⟩ := h.find?_id_of_file?_eq_some hold
  exact h.replaces_updateFile hf declarations

/-- A file that shares one of its resources with another file keeps that one, loses the other and gains a new one. -/
theorem updateFile_replaces_strings :
    let ops : List Operation :=
      [.addFile ⟨"values/strings.xml"⟩ .values {} [⟨.string, "title", false⟩, ⟨.string, "hint", false⟩],
        .addFile ⟨"values-fr/strings.xml"⟩ .values { language := some "fr" } [⟨.string, "title", false⟩]]
    let declarations : List Declaration := [⟨.string, "title", false⟩, ⟨.string, "caption", false⟩]
    let r := run {} ops
    let updated := r.updateFile ⟨0⟩ declarations
    let added := (r.removeFile ⟨0⟩).repository.addFile ⟨"values/strings.xml"⟩ .values {} declarations
    (∃ old, r.file? ⟨0⟩ = some old ∧ (r.removeFile ⟨0⟩).result = some old) ∧ added.result = ⟨2⟩ ∧
      updated.repository.Replaces ⟨0⟩ ⟨2⟩ added.repository ∧ updated.events = [.itemCreated "string" "caption"] ∧
      r.file? ⟨2⟩ = none ∧ r.updateFile ⟨2⟩ declarations = { result := false, repository := r, events := [] } := by
  intro ops declarations r updated added
  have hfile : r.file? ⟨0⟩ = some ⟨⟨0⟩, ⟨"values/strings.xml"⟩, .values, {},
      [⟨.string, "hint", false⟩, ⟨.string, "title", false⟩]⟩ := by decide
  have hresult : added.result = ⟨2⟩ := by decide
  have hevents : updated.events = [.itemCreated "string" "caption"] := by decide
  have hnone : r.file? ⟨2⟩ = none := by decide
  obtain ⟨-, hremoved, hreplaces, -⟩ := (updateFile_replaces ops ⟨0⟩ declarations).1 _ hfile
  have hsilent := (updateFile_replaces ops ⟨2⟩ declarations).2 hnone
  exact ⟨⟨_, hfile, hremoved⟩, hresult, hresult ▸ hreplaces, hevents, hnone, hsilent⟩

end Repository

end ResourceIndex
