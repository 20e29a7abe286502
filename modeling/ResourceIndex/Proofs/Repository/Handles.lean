import ResourceIndex.Proofs.Repository.Coherence

/-!
# Handles

A handle is found for one resource and leads back to it, in every repository that operations can reach, and whatever is
done afterwards: items are only ever appended.
-/

namespace ResourceIndex.Repository

theorem coherent_empty : Coherent {} := by
  intro type name h
  simp [handle?, resources]

theorem Coherent.addFile {r : Repository} (hr : r.Coherent) (path : Path) (folder : FolderType)
    (configuration : Configuration) (declarations : List Declaration) :
    (r.addFile path folder configuration declarations).repository.Coherent :=
  Coherent.insertFile (r := { r with nextId := r.nextId + 1 }) hr _

theorem Coherent.updateFile {r : Repository} (hr : r.Coherent) (id : SourceId) (declarations : List Declaration) :
    (r.updateFile id declarations).repository.Coherent := by
  rw [Repository.updateFile]
  split
  next => exact hr
  next old _ => exact (hr.eraseFile old).insertFile _

theorem Coherent.removeFile {r : Repository} (hr : r.Coherent) (id : SourceId) :
    (r.removeFile id).repository.Coherent := by
  rw [Repository.removeFile]
  split
  next => exact hr
  next old _ => exact hr.eraseFile old

@[simp] theorem resources_beginRescan (r : Repository) : r.beginRescan.repository.resources = r.resources := by
  simp [beginRescan, resources, Function.comp_def]

theorem Coherent.beginRescan {r : Repository} (hr : r.Coherent) : r.beginRescan.repository.Coherent := by
  intro type name h
  rw [resources_beginRescan]
  exact hr type name h

theorem Coherent.apply {r : Repository} (hr : r.Coherent) (op : Operation) : (r.apply op).repository.Coherent := by
  cases op with
  | addFile path folder configuration declarations => exact hr.addFile path folder configuration declarations
  | updateFile id declarations => exact hr.updateFile id declarations
  | removeFile id => exact hr.removeFile id
  | beginRescan => exact hr.beginRescan
  | endRescan => exact hr

theorem Coherent.run {r : Repository} (hr : r.Coherent) (ops : List Operation) : (r.run ops).Coherent :=
  run_preserves (fun _ op h => h.apply op) ops hr

/-- Every run from the empty repository ends in a coherent one. -/
theorem coherent_run (ops : List Operation) : (run {} ops).Coherent :=
  coherent_empty.run ops

/-! ### Resources keep their places -/

theorem resources_prefix_apply (r : Repository) (op : Operation) :
    r.resources <+: (r.apply op).repository.resources := by
  cases op with
  | addFile path folder configuration declarations =>
    obtain ⟨created, hcreated, -⟩ := exists_resources_insertFile { r with nextId := r.nextId + 1 }
      ⟨⟨r.nextId⟩, path, folder, configuration, Declaration.merged declarations⟩
    exact ⟨created, hcreated.symm⟩
  | updateFile id declarations =>
    simp only [apply, Change.map, updateFile]
    split
    next => exact List.prefix_rfl
    next old _ =>
      obtain ⟨created, hcreated, -⟩ := exists_resources_insertFile (r.eraseFile old)
        { old with declarations := Declaration.merged declarations }
      rw [resources_eraseFile] at hcreated
      exact ⟨created, hcreated.symm⟩
  | removeFile id =>
    simp only [apply, Change.map, removeFile]
    split
    next => exact List.prefix_rfl
    next old _ => exact ⟨[], (List.append_nil _).trans (resources_eraseFile r old).symm⟩
  | beginRescan => exact ⟨[], (List.append_nil _).trans (resources_beginRescan r).symm⟩
  | endRescan => exact List.prefix_rfl

theorem resources_prefix_run (r : Repository) (ops : List Operation) : r.resources <+: (r.run ops).resources :=
  run_preserves (P := fun s => r.resources <+: s.resources)
    (fun s op h => h.trans (resources_prefix_apply s op)) ops List.prefix_rfl

theorem itemCount_le_run (r : Repository) (ops : List Operation) : r.itemCount ≤ (r.run ops).itemCount := by
  simpa using (resources_prefix_run r ops).length_le

theorem Coherent.handle?_run {r : Repository} (hr : r.Coherent) {type : ResourceType} {name : String} {h : Handle}
    (hh : r.handle? type name = some h) (ops : List Operation) : (r.run ops).handle? type name = some h := by
  obtain ⟨hlt, hget⟩ := List.getElem?_eq_some_iff.mp ((hr type name h).mp hh)
  refine (hr.run ops type name h).mpr ?_
  rw [List.prefix_iff_getElem?.mp (resources_prefix_run r ops) h.index hlt, hget]

/-! ### Handles and resources -/

theorem Coherent.exists_resource {r : Repository} (hr : r.Coherent) {h : Handle} (hlt : h.index < r.itemCount) :
    ∃ type i, r.type? h = some type ∧ r.item? h = some i ∧
      ∀ t n, r.handle? t n = some h ↔ t = type ∧ n = i.name := by
  have hentry : r.entries[h.index]? = some r.entries[h.index] := List.getElem?_eq_getElem hlt
  refine ⟨r.entries[h.index].type, r.entries[h.index].item, by simp [type?, hentry], by simp [item?, hentry], ?_⟩
  intro t n
  rw [hr t n h, resources, List.getElem?_map, hentry]
  simp [eq_comm]

theorem Coherent.handle_unique {r : Repository} (hr : r.Coherent) {h k : Handle} {type : ResourceType} {i j : Item}
    (hh : r.type? h = some type ∧ r.item? h = some i) (hk : r.type? k = some type ∧ r.item? k = some j)
    (hname : i.name = j.name) : h = k := by
  have hleft := (hr type j.name h).mpr (resources_getElem?_eq_some_iff.mpr ⟨hh.1, i, hh.2, hname⟩)
  have hright := (hr type j.name k).mpr (resources_getElem?_eq_some_iff.mpr ⟨hk.1, j, hk.2, rfl⟩)
  exact Option.some.inj (hleft.symm.trans hright)

theorem type?_eq_none_iff {r : Repository} {h : Handle} : r.type? h = none ↔ r.itemCount ≤ h.index := by
  simp [type?, itemCount]

theorem item?_eq_none_iff {r : Repository} {h : Handle} : r.item? h = none ↔ r.itemCount ≤ h.index := by
  simp [item?, itemCount]

/-- A handle that was found once is found for the same resource ever after, and leads to the item of that resource. In
every repository that can be reached, the handles below the number of items and the resources with a handle correspond
one to one, the number of items never falls, and a handle from it on leads nowhere. -/
theorem handles_run (past future : List Operation) :
    (∀ type name h, (run {} past).handle? type name = some h →
      ((run {} past).run future).handle? type name = some h ∧
      ((run {} past).run future).type? h = some type ∧
      ∃ i, ((run {} past).run future).item? h = some i ∧ i.name = name) ∧
    (∀ h : Handle, h.index < (run {} past).itemCount →
      ∃ type i, (run {} past).type? h = some type ∧ (run {} past).item? h = some i ∧
        ∀ t n, (run {} past).handle? t n = some h ↔ t = type ∧ n = i.name) ∧
    (∀ h k type i j, (run {} past).type? h = some type → (run {} past).item? h = some i →
      (run {} past).type? k = some type → (run {} past).item? k = some j → i.name = j.name → h = k) ∧
    (run {} past).itemCount ≤ ((run {} past).run future).itemCount ∧
    ∀ h : Handle, (run {} past).itemCount ≤ h.index →
      (run {} past).type? h = none ∧ (run {} past).item? h = none := by
  have hr := coherent_run past
  refine ⟨?_, ?_, ?_, itemCount_le_run _ future, ?_⟩
  · intro type name h hh
    have hlater := hr.handle?_run hh future
    exact ⟨hlater, resources_getElem?_eq_some_iff.mp ((hr.run future type name h).mp hlater)⟩
  · exact fun h hlt => hr.exists_resource hlt
  · exact fun h k type i j hht hhi hkt hki hname => hr.handle_unique ⟨hht, hhi⟩ ⟨hkt, hki⟩ hname
  · exact fun h hle => ⟨type?_eq_none_iff.mpr hle, item?_eq_none_iff.mpr hle⟩

/-- The first resource of an index has the handle 0, also after a rescan that does not find it again. -/
theorem handles_run_title :
    let past : List Operation := [.addFile ⟨"values/strings.xml"⟩ .values {} [⟨.string, "title", false⟩]]
    let r := (run {} past).run [.beginRescan, .endRescan]
    (run {} past).handle? .string "title" = some ⟨0⟩ ∧
      (r.handle? .string "title" = some ⟨0⟩ ∧ r.type? ⟨0⟩ = some .string ∧
        ∃ i, r.item? ⟨0⟩ = some i ∧ i.name = "title") ∧
      (∃ type i, (run {} past).type? ⟨0⟩ = some type ∧ (run {} past).item? ⟨0⟩ = some i ∧
        ∀ t n, (run {} past).handle? t n = some ⟨0⟩ ↔ t = type ∧ n = i.name) ∧
      (run {} past).type? ⟨1⟩ = none ∧ (run {} past).item? ⟨1⟩ = none := by
  intro past r
  have hfound : (run {} past).handle? .string "title" = some ⟨0⟩ := by decide
  obtain ⟨hmeaning, hbelow, -, -, hbeyond⟩ := handles_run past [.beginRescan, .endRescan]
  exact ⟨hfound, hmeaning .string "title" ⟨0⟩ hfound, hbelow ⟨0⟩ (by decide), hbeyond ⟨1⟩ (by decide)⟩

end ResourceIndex.Repository
