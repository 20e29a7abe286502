import ResourceIndex.Proofs.Declaration.Merged
import ResourceIndex.Proofs.Repository.Coherence

/-!
# What provides a resource

The contributions to a resource are the view through which files and items meet. Attaching a file appends one
contribution to every resource that it declares, detaching it takes that contribution out again, and the contributions
to other resources stay as they are.
-/

namespace ResourceIndex.Repository

/-- The contributions to a resource, in the order of their arrival; there are none if it has no item. -/
def provided (r : Repository) (type : ResourceType) (name : String) : List Contribution :=
  ((r.find? type name).map (·.contributions)).getD []

theorem Coherent.find?_eq_some {r : Repository} (hr : r.Coherent) {type : ResourceType} {name : String} {h : Handle}
    (hh : r.handle? type name = some h) : ∃ i, r.find? type name = some i ∧ r.item? h = some i ∧ i.name = name := by
  obtain ⟨-, i, hi, hname⟩ := resources_getElem?_eq_some_iff.mp ((hr type name h).mp hh)
  exact ⟨i, by rw [find?, hh, Option.bind_some, hi], hi, hname⟩

theorem Coherent.name_of_find? {r : Repository} (hr : r.Coherent) {type : ResourceType} {name : String} {i : Item}
    (hi : r.find? type name = some i) : i.name = name := by
  obtain ⟨h, hh, -⟩ := Option.bind_eq_some_iff.mp hi
  obtain ⟨j, hj, -, hname⟩ := hr.find?_eq_some hh
  rwa [Option.some.inj (hi.symm.trans hj)]

theorem provided_of_find? {r : Repository} {type : ResourceType} {name : String} {i : Item}
    (hi : r.find? type name = some i) : r.provided type name = i.contributions := by
  simp [provided, hi]

theorem Coherent.provided_modifyItem {r : Repository} (hr : r.Coherent) {f : Item → Item}
    {g : List Contribution → List Contribution} (hf : ∀ i, (f i).contributions = g i.contributions) {d : Declaration}
    {h : Handle} (hh : r.handle? d.type d.name = some h) (type : ResourceType) (name : String) :
    (r.modifyItem h f).provided type name =
      if d.type = type ∧ d.name = name then g (r.provided type name) else r.provided type name := by
  simp only [provided, find?_modifyItem]
  by_cases hof : d.type = type ∧ d.name = name
  · obtain ⟨rfl, rfl⟩ := hof
    obtain ⟨i, hi, -⟩ := hr.find?_eq_some hh
    simp [hi, hh, hf]
  · have hne : r.handle? type name ≠ some h := by
      intro heq
      have hsame := ((hr type name h).mp heq).symm.trans ((hr d.type d.name h).mp hh)
      simp only [Option.some.injEq, Prod.mk.injEq] at hsame
      exact hof ⟨hsame.1.symm, hsame.2.symm⟩
    simp [hne, hof]

/-- A new item has no contributions yet, so that making it provides nothing. -/
theorem Coherent.provided_getOrCreate {r : Repository} (hr : r.Coherent) (d : Declaration) (type : ResourceType)
    (name : String) : (r.getOrCreate d).repository.provided type name = r.provided type name := by
  cases hh : r.handle? d.type d.name with
  | some h => rw [getOrCreate_of_some hh]
  | none =>
    rw [provided, provided, find?, find?, handle?_getOrCreate_of_none hh]
    split
    next hof =>
      obtain ⟨rfl, rfl⟩ := hof
      simp [hh, getOrCreate_of_none hh, item?, itemCount]
    next =>
      cases hk : r.handle? type name with
      | none => rfl
      | some k =>
        -- an old item stays where it is
        obtain ⟨hlt, -⟩ := List.getElem?_eq_some_iff.mp ((hr type name k).mp hk)
        rw [length_resources, itemCount] at hlt
        simp [getOrCreate_of_none hh, item?, List.getElem?_append_left hlt]

theorem provided_of_handle?_eq_none {r : Repository} {type : ResourceType} {name : String}
    (hh : r.handle? type name = none) : r.provided type name = [] := by
  simp [provided, find?, hh]

/-! ### Attaching -/

theorem Coherent.provided_provide {r : Repository} (hr : r.Coherent) (v : Variant) (d : Declaration)
    (type : ResourceType) (name : String) :
    (r.provide v d).repository.provided type name =
      r.provided type name ++ if d.isOf type name then [⟨v, d.isInline⟩] else [] := by
  have hmodify := (hr.getOrCreate d).provided_modifyItem (g := (· ++ [⟨v, d.isInline⟩]))
    (fun i => i.contributions_add v d.isInline) (handle?_getOrCreate r d) type name
  rw [Repository.provide, hmodify, hr.provided_getOrCreate]
  by_cases hof : d.type = type ∧ d.name = name
  · rw [if_pos hof, if_pos (Declaration.isOf_iff.mpr hof)]
  · rw [if_neg hof, if_neg (mt Declaration.isOf_iff.mp hof), List.append_nil]

theorem Coherent.provided_attach {r : Repository} (hr : r.Coherent) (v : Variant) (ds : List Declaration)
    (type : ResourceType) (name : String) :
    (r.attach v ds).repository.provided type name =
      r.provided type name ++ (ds.filter (·.isOf type name)).map fun d => ⟨v, d.isInline⟩ := by
  induction ds generalizing r with
  | nil => simp [Repository.attach]
  | cons d ds ih =>
    rw [Repository.attach, ih (hr.provide v d), hr.provided_provide, List.filter_cons]
    split <;> simp

/-- What a file contributes to a resource by its merged declarations. -/
theorem Coherent.provided_attach_merged {r : Repository} (hr : r.Coherent) (v : Variant) (ds : List Declaration)
    (type : ResourceType) (name : String) :
    (r.attach v (Declaration.merged ds)).repository.provided type name =
      r.provided type name ++ (Declaration.flag? ds type name).toList.map (Contribution.mk v) := by
  rw [hr.provided_attach, (Declaration.merged_ascending ds).filter_isOf, Declaration.flag?_merged, List.map_map]
  rfl

/-! ### Detaching -/

theorem Coherent.withdraw {r : Repository} (hr : r.Coherent) (source : SourceId) (d : Declaration) :
    (r.withdraw source d).Coherent := by
  obtain ⟨-, heq⟩ | ⟨h, -, heq⟩ := r.withdraw_cases source d
  · rwa [heq]
  · rw [heq]
    exact hr.modifyItem fun i => i.name_remove source

theorem Coherent.provided_withdraw {r : Repository} (hr : r.Coherent) (source : SourceId) (d : Declaration)
    (type : ResourceType) (name : String) :
    (r.withdraw source d).provided type name =
      if d.isOf type name then (r.provided type name).eraseP (·.variant.source = source)
      else r.provided type name := by
  obtain ⟨hnone, heq⟩ | ⟨h, hh, heq⟩ := r.withdraw_cases source d
  · rw [heq]
    split
    next hof =>
      obtain ⟨rfl, rfl⟩ := Declaration.isOf_iff.mp hof
      rw [provided_of_handle?_eq_none hnone, List.eraseP_nil]
    next => rfl
  · rw [heq, hr.provided_modifyItem (fun i => i.contributions_remove source) hh]
    simp only [Declaration.isOf_iff]

theorem Coherent.provided_foldl_withdraw {r : Repository} (hr : r.Coherent) (source : SourceId)
    {ds : List Declaration} (hds : Declaration.Ascending ds) (type : ResourceType) (name : String) :
    (ds.foldl (fun r d => r.withdraw source d) r).provided type name =
      if (Declaration.flag? ds type name).isSome then (r.provided type name).eraseP (·.variant.source = source)
      else r.provided type name := by
  induction ds generalizing r with
  | nil => rfl
  | cons d ds ih =>
    rw [List.foldl_cons, ih (hr.withdraw source d) (List.pairwise_cons.mp hds).2, hr.provided_withdraw,
      Declaration.flag?_cons]
    by_cases hof : d.isOf type name = true
    · -- no other declaration is of this resource, so that only one contribution goes
      have hnone : Declaration.flag? ds type name = none := Declaration.flag?_eq_none_iff.mpr (hds.isOf_eq_false hof)
      simp [hof, hnone]
    · simp [hof]

theorem Coherent.provided_detach {r : Repository} (hr : r.Coherent) {f : SourceFile}
    (hf : Declaration.Ascending f.declarations) (type : ResourceType) (name : String) :
    (r.detach f).provided type name =
      if (Declaration.flag? f.declarations type name).isSome then
        (r.provided type name).eraseP (·.variant.source = f.id)
      else r.provided type name :=
  hr.provided_foldl_withdraw f.id hf type name

end ResourceIndex.Repository
