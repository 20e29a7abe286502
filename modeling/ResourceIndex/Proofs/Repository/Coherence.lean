import ResourceIndex.Proofs.Item.Contributions
import ResourceIndex.Proofs.Repository.Run

/-!
# Lookup and items

The lookup and the items are written in one place only, where an item is made, but read everywhere. That they belong
together is one equivalence: the lookup finds a handle for a resource exactly if the resource stands at that handle.
Every operation keeps it, and none moves a resource that has a handle.
-/

namespace ResourceIndex.Repository

/-- The resource behind each handle. -/
def resources (r : Repository) : List (ResourceType × String) :=
  r.entries.map fun e => (e.type, e.item.name)

/-- The event that announces a new resource. -/
def announcement (p : ResourceType × String) : Event :=
  .itemCreated p.1.name p.2

/-- The lookup leads to a handle exactly from the resource behind it. -/
def Coherent (r : Repository) : Prop :=
  ∀ type name h, r.handle? type name = some h ↔ r.resources[h.index]? = some (type, name)

@[simp] theorem length_resources (r : Repository) : r.resources.length = r.itemCount := by
  simp [resources, itemCount]

theorem resources_getElem?_eq_some_iff {r : Repository} {h : Handle} {type : ResourceType} {name : String} :
    r.resources[h.index]? = some (type, name) ↔ r.type? h = some type ∧ ∃ i, r.item? h = some i ∧ i.name = name := by
  simp only [resources, List.getElem?_map, type?, item?]
  cases r.entries[h.index]? <;> simp

theorem Coherent.nodup {r : Repository} (hr : r.Coherent) : r.resources.Nodup := by
  rw [List.nodup_iff_pairwise_ne, List.pairwise_iff_getElem]
  intro i j hi hj hlt heq
  -- equal resources have one handle
  rcases hp : r.resources[j] with ⟨type, name⟩
  have hleft : r.handle? type name = some ⟨i⟩ := (hr _ _ _).mpr (List.getElem?_eq_some_iff.mpr ⟨hi, heq.trans hp⟩)
  have hright : r.handle? type name = some ⟨j⟩ := (hr _ _ _).mpr (List.getElem?_eq_some_iff.mpr ⟨hj, hp⟩)
  have hidx := congrArg (Option.map Handle.index) (hleft.symm.trans hright)
  simp only [Option.map_some, Option.some.injEq] at hidx
  omega

/-! ### One item -/

section Item

variable {r : Repository} {h : Handle} {f : Item → Item}

@[simp] theorem handle?_modifyItem (type : ResourceType) (name : String) :
    (r.modifyItem h f).handle? type name = r.handle? type name := by
  rfl

@[simp] theorem files_modifyItem : (r.modifyItem h f).files = r.files := by
  rfl

@[simp] theorem nextId_modifyItem : (r.modifyItem h f).nextId = r.nextId := by
  rfl

theorem resources_modifyItem (hf : ∀ i, (f i).name = i.name) : (r.modifyItem h f).resources = r.resources := by
  refine List.ext_getElem? fun n => ?_
  simp only [resources, modifyItem, List.getElem?_map, List.getElem?_modify]
  cases r.entries[n]? with
  | none => rfl
  | some e =>
    by_cases hn : h.index = n <;> simp [hn, hf]

theorem Coherent.modifyItem (hr : r.Coherent) (hf : ∀ i, (f i).name = i.name) : (r.modifyItem h f).Coherent := by
  intro type name k
  rw [handle?_modifyItem, resources_modifyItem hf]
  exact hr type name k

theorem find?_modifyItem (type : ResourceType) (name : String) :
    (r.modifyItem h f).find? type name =
      (r.find? type name).map fun i => if r.handle? type name = some h then f i else i := by
  simp only [find?, handle?_modifyItem]
  cases hk : r.handle? type name with
  | none => rfl
  | some k =>
    obtain ⟨k⟩ := k
    obtain ⟨n⟩ := h
    simp only [Option.bind_some, item?, Repository.modifyItem, List.getElem?_modify, Option.some.injEq,
      Handle.mk.injEq]
    by_cases hkn : n = k
    · subst hkn
      cases r.entries[n]? <;> simp
    · cases r.entries[k]? <;> simp [hkn, Ne.symm hkn]

end Item

/-! ### One declaration -/

theorem getOrCreate_of_some {r : Repository} {d : Declaration} {h : Handle} (hh : r.handle? d.type d.name = some h) :
    r.getOrCreate d = { result := h, repository := r } := by
  simp only [getOrCreate, hh]

theorem getOrCreate_of_none {r : Repository} {d : Declaration} (hh : r.handle? d.type d.name = none) :
    r.getOrCreate d =
      { result := ⟨r.itemCount⟩
        repository := { r with
          entries := r.entries ++ [⟨d.type, .named d.name⟩]
          lookup := r.lookup.insert d.type d.name ⟨r.itemCount⟩ }
        events := [.itemCreated d.type.name d.name] } := by
  simp only [getOrCreate, hh]

@[simp] theorem files_getOrCreate (r : Repository) (d : Declaration) :
    (r.getOrCreate d).repository.files = r.files := by
  rw [getOrCreate]
  split <;> rfl

@[simp] theorem nextId_getOrCreate (r : Repository) (d : Declaration) :
    (r.getOrCreate d).repository.nextId = r.nextId := by
  rw [getOrCreate]
  split <;> rfl

theorem handle?_getOrCreate_of_none {r : Repository} {d : Declaration} (hh : r.handle? d.type d.name = none)
    (type : ResourceType) (name : String) :
    (r.getOrCreate d).repository.handle? type name =
      if d.type = type ∧ d.name = name then some ⟨r.itemCount⟩ else r.handle? type name := by
  rw [getOrCreate_of_none hh]
  exact Lookup.handle?_insert ..

theorem resources_getOrCreate_of_none {r : Repository} {d : Declaration} (hh : r.handle? d.type d.name = none) :
    (r.getOrCreate d).repository.resources = r.resources ++ [(d.type, d.name)] := by
  simp [getOrCreate_of_none hh, resources]

theorem Coherent.getOrCreate {r : Repository} (hr : r.Coherent) (d : Declaration) :
    (r.getOrCreate d).repository.Coherent := by
  cases hh : r.handle? d.type d.name with
  | some h => rwa [getOrCreate_of_some hh]
  | none =>
    intro type name h
    rw [handle?_getOrCreate_of_none hh, resources_getOrCreate_of_none hh, List.getElem?_append, length_resources]
    have hold := hr type name h
    by_cases hlt : h.index < r.itemCount
    · -- an old handle cannot lead to the new resource
      rw [if_pos hlt, ← hold]
      split
      next hof =>
        obtain ⟨rfl, rfl⟩ := hof
        have hne : h ≠ ⟨r.itemCount⟩ := fun heq => by simp [heq] at hlt
        simp [hh, hne.symm]
      next => rfl
    · have hnone : r.handle? type name ≠ some h := by
        intro heq
        have hlt' := (List.getElem?_eq_some_iff.mp (hold.mp heq)).1
        exact hlt (by simpa using hlt')
      rw [if_neg hlt, List.getElem?_singleton]
      obtain ⟨n⟩ := h
      by_cases hof : d.type = type ∧ d.name = name
      · simp only [hof, and_self, if_true, Option.some.injEq, Handle.mk.injEq]
        grind
      · simp [hof, hnone]

theorem handle?_getOrCreate (r : Repository) (d : Declaration) :
    (r.getOrCreate d).repository.handle? d.type d.name = some (r.getOrCreate d).result := by
  cases hh : r.handle? d.type d.name with
  | some h => rw [getOrCreate_of_some hh, hh]
  | none => rw [handle?_getOrCreate_of_none hh, if_pos ⟨rfl, rfl⟩, getOrCreate_of_none hh]

/-- Making an item puts its resource behind all others and announces it. -/
theorem exists_resources_getOrCreate (r : Repository) (d : Declaration) :
    ∃ created, (r.getOrCreate d).repository.resources = r.resources ++ created ∧
      (r.getOrCreate d).events = created.map announcement := by
  cases hh : r.handle? d.type d.name with
  | some h => exact ⟨[], by simp [getOrCreate_of_some hh]⟩
  | none =>
    refine ⟨[(d.type, d.name)], resources_getOrCreate_of_none hh, ?_⟩
    rw [getOrCreate_of_none hh]
    rfl

/-! ### One file -/

@[simp] theorem files_provide (r : Repository) (v : Variant) (d : Declaration) :
    (r.provide v d).repository.files = r.files := by
  simp [provide]

@[simp] theorem nextId_provide (r : Repository) (v : Variant) (d : Declaration) :
    (r.provide v d).repository.nextId = r.nextId := by
  simp [provide]

theorem Coherent.provide {r : Repository} (hr : r.Coherent) (v : Variant) (d : Declaration) :
    (r.provide v d).repository.Coherent :=
  (hr.getOrCreate d).modifyItem fun i => i.name_add v d.isInline

theorem exists_resources_provide (r : Repository) (v : Variant) (d : Declaration) :
    ∃ created, (r.provide v d).repository.resources = r.resources ++ created ∧
      (r.provide v d).events = created.map announcement := by
  obtain ⟨created, hresources, hevents⟩ := exists_resources_getOrCreate r d
  refine ⟨created, ?_, hevents⟩
  rw [← hresources]
  exact resources_modifyItem fun i => i.name_add v d.isInline

theorem attach_preserves {P : Repository → Prop} {v : Variant}
    (hstep : ∀ r d, P r → P (r.provide v d).repository) {r : Repository} (ds : List Declaration) (h : P r) :
    P (r.attach v ds).repository := by
  induction ds generalizing r with
  | nil => exact h
  | cons d ds ih => exact ih (hstep r d h)

@[simp] theorem files_attach (r : Repository) (v : Variant) (ds : List Declaration) :
    (r.attach v ds).repository.files = r.files :=
  attach_preserves (P := fun s => s.files = r.files) (fun s d h => (files_provide s v d).trans h) ds rfl

@[simp] theorem nextId_attach (r : Repository) (v : Variant) (ds : List Declaration) :
    (r.attach v ds).repository.nextId = r.nextId :=
  attach_preserves (P := fun s => s.nextId = r.nextId) (fun s d h => (nextId_provide s v d).trans h) ds rfl

theorem Coherent.attach {r : Repository} (hr : r.Coherent) (v : Variant) (ds : List Declaration) :
    (r.attach v ds).repository.Coherent :=
  attach_preserves (fun _ d h => h.provide v d) ds hr

theorem exists_resources_attach (r : Repository) (v : Variant) (ds : List Declaration) :
    ∃ created, (r.attach v ds).repository.resources = r.resources ++ created ∧
      (r.attach v ds).events = created.map announcement := by
  induction ds generalizing r with
  | nil => exact ⟨[], by simp [attach]⟩
  | cons d ds ih =>
    obtain ⟨first, hfirst, hfirstEvents⟩ := exists_resources_provide r v d
    obtain ⟨others, hothers, hothersEvents⟩ := ih (r.provide v d).repository
    refine ⟨first ++ others, ?_, ?_⟩
    · rw [attach, hothers, hfirst, List.append_assoc]
    · rw [attach, hothersEvents, hfirstEvents, List.map_append]

theorem withdraw_cases (r : Repository) (source : SourceId) (d : Declaration) :
    (r.handle? d.type d.name = none ∧ r.withdraw source d = r) ∨
      ∃ h, r.handle? d.type d.name = some h ∧ r.withdraw source d = r.modifyItem h (·.remove source) := by
  rw [withdraw]
  cases r.handle? d.type d.name <;> simp

theorem detach_preserves {P : Repository → Prop} {f : SourceFile}
    (hstep : ∀ r h, P r → P (r.modifyItem h (·.remove f.id))) {r : Repository} (h : P r) : P (r.detach f) := by
  rw [detach]
  induction f.declarations generalizing r with
  | nil => exact h
  | cons d ds ih =>
    refine ih ?_
    change P (r.withdraw f.id d)
    obtain ⟨-, heq⟩ | ⟨k, -, heq⟩ := r.withdraw_cases f.id d
    · rwa [heq]
    · rw [heq]
      exact hstep r k h

@[simp] theorem files_detach (r : Repository) (f : SourceFile) : (r.detach f).files = r.files :=
  detach_preserves (P := fun s => s.files = r.files) (fun _ _ h => h) rfl

@[simp] theorem nextId_detach (r : Repository) (f : SourceFile) : (r.detach f).nextId = r.nextId :=
  detach_preserves (P := fun s => s.nextId = r.nextId) (fun _ _ h => h) rfl

@[simp] theorem resources_detach (r : Repository) (f : SourceFile) : (r.detach f).resources = r.resources :=
  detach_preserves (P := fun s => s.resources = r.resources)
    (fun _ _ h => (resources_modifyItem fun i => i.name_remove f.id).trans h) rfl

theorem Coherent.detach {r : Repository} (hr : r.Coherent) (f : SourceFile) : (r.detach f).Coherent :=
  detach_preserves (fun _ _ h => h.modifyItem fun i => i.name_remove f.id) hr

theorem Coherent.insertFile {r : Repository} (hr : r.Coherent) (f : SourceFile) :
    (r.insertFile f).repository.Coherent :=
  hr.attach f.variant f.declarations

theorem exists_resources_insertFile (r : Repository) (f : SourceFile) :
    ∃ created, (r.insertFile f).repository.resources = r.resources ++ created ∧
      (r.insertFile f).events = created.map announcement :=
  exists_resources_attach r f.variant f.declarations

@[simp] theorem nextId_insertFile (r : Repository) (f : SourceFile) :
    (r.insertFile f).repository.nextId = r.nextId :=
  nextId_attach r f.variant f.declarations

theorem Coherent.eraseFile {r : Repository} (hr : r.Coherent) (f : SourceFile) : (r.eraseFile f).Coherent :=
  hr.detach f

@[simp] theorem resources_eraseFile (r : Repository) (f : SourceFile) : (r.eraseFile f).resources = r.resources :=
  resources_detach r f

@[simp] theorem nextId_eraseFile (r : Repository) (f : SourceFile) : (r.eraseFile f).nextId = r.nextId :=
  nextId_detach r f

end ResourceIndex.Repository
