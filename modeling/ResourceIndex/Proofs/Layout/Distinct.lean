import ResourceIndex.Proofs.Layout.Pasting

/-!
# Pasted elements declare distinct ids

The copies of pasted elements declare no id that was taken before the paste, and no two of them declare one id. Each
declaration takes one more id. A declared id keeps its name exactly if the name is still free when its turn comes.
-/

namespace ResourceIndex.Layout

/-- The names that a renaming gives to the ids of an element. -/
def newIds (renames : Renaming) (attributes : List Attribute) : List String :=
  (declaredIds attributes).map renames.nameOf

theorem flatMap_declaredIds_zipWith_copyAttributes (renamings : List Renaming) (elements : List (List Attribute)) :
    (renamings.zipWith (copyAttributes []) elements).flatMap declaredIds =
      (renamings.zipWith newIds elements).flatten := by
  rw [List.flatMap_def, List.map_zipWith]
  simp only [declaredIds_copyAttributes_nil]
  rfl

namespace Pasting

variable {p : Pasting}

/-- The name of an element's own id behind the whole paste. -/
theorem nameOf_head (p : Pasting) {attributes : List Attribute} (rest : List (List Attribute)) {id : String}
    (hid : id ∈ declaredIds attributes) :
    Renaming.nameOf ((p.declareAll [] (declaredIds attributes)).2 ++ (p.run (attributes :: rest)).1.shared) id =
      p.nameAfter [] (declaredIds attributes) id :=
  nameOf_own_append_shared (mem_declared_declareAll.mpr (.inl hid)) rest

theorem newIds_head (p : Pasting) (attributes : List Attribute) (rest : List (List Attribute)) :
    newIds ((p.declareAll [] (declaredIds attributes)).2 ++ (p.run (attributes :: rest)).1.shared) attributes =
      (declaredIds attributes).map (p.nameAfter [] (declaredIds attributes)) :=
  List.map_congr_left fun _ hid => p.nameOf_head rest hid

theorem Consistent.newIds_of_renamings (h : p.Consistent []) (elements : List (List Attribute)) :
    ∀ names ∈ (p.renamings elements).zipWith newIds elements,
      ∀ name ∈ names, name ∈ (p.run elements).1.taken ∧ name ∉ p.taken := by
  induction elements generalizing p with
  | nil => simp [List.zipWith_nil_right]
  | cons attributes rest ih =>
    rw [renamings_cons, List.zipWith_cons_cons, List.forall_mem_cons, newIds_head]
    refine ⟨fun name hname => ?_, fun names hnames name hname => ?_⟩
    · obtain ⟨id, hid, rfl⟩ := List.mem_map.mp hname
      obtain ⟨htaken, hfree⟩ := h.nameAfter_of_mem hid
      exact ⟨mem_taken_run htaken rest, hfree⟩
    · obtain ⟨htaken, hfree⟩ := ih (h.declareAll _).next names hnames name hname
      exact ⟨htaken, fun hbefore => hfree (mem_taken_declareAll hbefore _)⟩

theorem Consistent.pairwise_newIds (h : p.Consistent []) (elements : List (List Attribute)) :
    ((p.renamings elements).zipWith newIds elements).Pairwise List.Disjoint := by
  induction elements generalizing p with
  | nil => simp [List.zipWith_nil_right]
  | cons attributes rest ih =>
    have hnext := (h.declareAll (declaredIds attributes)).next
    rw [renamings_cons, List.zipWith_cons_cons, List.pairwise_cons, newIds_head]
    refine ⟨fun names hnames name hhead htail => ?_, ih hnext⟩
    obtain ⟨id, hid, rfl⟩ := List.mem_map.mp hhead
    exact (hnext.newIds_of_renamings rest names hnames _ htail).2 (h.nameAfter_of_mem hid).1

/-- If no element declares an id twice, an id keeps its name exactly if no element before declares it, it is not taken
before the paste, and it is the new name of no id that is declared before. -/
theorem Consistent.nameOf_eq_iff (h : p.Consistent []) {before behind : List (List Attribute)}
    {attributes : List Attribute} (hnodup : ∀ e ∈ before ++ attributes :: behind, (declaredIds e).Nodup)
    {left right : List String} {id : String} (hids : declaredIds attributes = left ++ id :: right)
    {renames : Renaming} (hrenames : (p.renamings (before ++ attributes :: behind))[before.length]? = some renames) :
    renames.nameOf id = id ↔
      (∀ e ∈ before, id ∉ declaredIds e) ∧ id ∉ p.taken ∧
        id ∉ ((p.renamings (before ++ attributes :: behind)).zipWith newIds before).flatten ∧
        id ∉ left.map renames.nameOf := by
  induction before generalizing p with
  | nil =>
    rw [List.nil_append, renamings_cons] at hrenames
    obtain rfl := Option.some.inj hrenames
    have hnames : ∀ x ∈ declaredIds attributes, Renaming.nameOf _ x = p.nameAfter [] (declaredIds attributes) x :=
      fun x hx => p.nameOf_head behind hx
    rw [hids] at hnames
    have hleft := List.map_congr_left fun x hx => hnames x (List.mem_append_left _ hx)
    have hkept := h.nameAfter_eq_iff (hids ▸ hnodup attributes List.mem_cons_self)
    rw [hids, hleft, hnames id (List.mem_append_right _ List.mem_cons_self), hkept]
    simp [List.zipWith_nil_right]
  | cons first before ih =>
    rw [List.cons_append] at hnodup hrenames ⊢
    rw [List.forall_mem_cons] at hnodup
    rw [renamings_cons] at hrenames ⊢
    have hnext := (h.declareAll (declaredIds first)).next
    have hfirst := (h.declareAll (declaredIds first)).taken id
    rw [mem_declared_declareAll] at hfirst
    rw [ih hnext hnodup.2 hrenames, h.mem_taken_declareAll_iff hnodup.1, List.zipWith_cons_cons, newIds_head,
      List.flatten_cons, List.mem_append, List.forall_mem_cons]
    rw [h.mem_taken_declareAll_iff hnodup.1] at hfirst
    grind

end Pasting

/-! ### The whole paste -/

theorem Pasting.consistent_start (taken : Ids) : Consistent { taken := taken } [] :=
  ⟨fun _ hid => absurd hid List.not_mem_nil, fun _ _ => rfl, fun _ _ => rfl⟩

/-- No two copies of pasted elements declare one id, and none declares an id that was taken before. Behind the paste all
these ids are taken, one more for each declaration. If no element declares an id twice, a declared id keeps its name
exactly if no earlier element declares it, it was not taken before, and no earlier declaration was given it. -/
theorem remap_distinct (excluded : List AttributeName) (elements : List (List Attribute)) (taken : Ids) :
    let renamings := (remap elements taken).1
    let after := (remap elements taken).2
    let copies := renamings.zipWith (copyAttributes excluded) elements
    renamings.length = elements.length ∧
    copies.Pairwise (fun a b => (declaredIds a).Disjoint (declaredIds b)) ∧
    (∀ copy ∈ copies, ∀ id ∈ declaredIds copy, id ∉ taken ∧ id ∈ after) ∧
    (∀ id ∈ taken, id ∈ after) ∧
    after.size = taken.size + (elements.flatMap declaredIds).length ∧
    ((∀ attributes ∈ elements, (declaredIds attributes).Nodup) →
      ∀ before left a right behind id renames, elements = before ++ (left ++ a :: right) :: behind →
        a.declaredId? = some id → renamings[before.length]? = some renames →
        ((a.rename renames).declaredId? = some id ↔
          (∀ e ∈ before, id ∉ declaredIds e) ∧ id ∉ taken ∧
          id ∉ (renamings.zipWith (copyAttributes []) before).flatMap declaredIds ∧
          id ∉ declaredIds (copyAttributes [] renames left))) := by
  intro renamings after copies
  have hstart := Pasting.consistent_start taken
  have hsubset (renames : Renaming) (attributes : List Attribute) :
      declaredIds (copyAttributes excluded renames attributes) ⊆ newIds renames attributes :=
    (declaredIds_copyAttributes_sublist excluded renames attributes).subset
  have hcopies : copies = (renamings.zip elements).map (Function.uncurry (copyAttributes excluded)) :=
    List.map_uncurry_zip_eq_zipWith.symm
  have hnames : renamings.zipWith newIds elements = (renamings.zip elements).map (Function.uncurry newIds) :=
    List.map_uncurry_zip_eq_zipWith.symm
  refine ⟨Pasting.length_renamings _ elements, ?_, ?_, ?_, Pasting.size_taken_run _ elements, ?_⟩
  · have hpairwise : (renamings.zipWith newIds elements).Pairwise List.Disjoint := hstart.pairwise_newIds elements
    rw [hnames, List.pairwise_map] at hpairwise
    rw [hcopies, List.pairwise_map]
    exact hpairwise.imp fun hdisjoint id ha hb => hdisjoint (hsubset _ _ ha) (hsubset _ _ hb)
  · intro copy hcopy id hid
    rw [hcopies] at hcopy
    obtain ⟨⟨renames, attributes⟩, hmem, rfl⟩ := List.mem_map.mp hcopy
    have hnew : newIds renames attributes ∈ renamings.zipWith newIds elements := by
      rw [hnames]
      exact List.mem_map_of_mem hmem
    obtain ⟨htaken, hfree⟩ := hstart.newIds_of_renamings elements _ hnew id (hsubset _ _ hid)
    exact ⟨hfree, htaken⟩
  · exact fun id hid => Pasting.mem_taken_run hid elements
  · rintro hnodup before left a right behind id renames rfl hid hrenames
    have hids : declaredIds (left ++ a :: right) = declaredIds left ++ id :: declaredIds right := by
      rw [declaredIds, List.filterMap_append, List.filterMap_cons_some hid]
      rfl
    rw [Attribute.declaredId?_rename, hid, Option.map_some, Option.some_inj,
      flatMap_declaredIds_zipWith_copyAttributes, declaredIds_copyAttributes_nil]
    exact hstart.nameOf_eq_iff hnodup hids hrenames

/-- Next to `ok` and `ok1`, a pasted `ok` becomes `ok2`, and a pasted `label` keeps its name. -/
theorem remap_distinct_label :
    let ok : Attribute := ⟨.id, "@+id/ok"⟩
    let label : Attribute := ⟨.id, "@+id/label"⟩
    let below : Attribute := ⟨⟨some platformUri, "layout_below"⟩, "@id/ok"⟩
    let elements := [[ok], [label, below]]
    let taken : Ids := Std.TreeSet.ofList ["ok", "ok1"]
    let renames : Renaming := [("ok", "ok2")]
    (∀ attributes ∈ elements, (declaredIds attributes).Nodup) ∧ (remap elements taken).1 = [renames, renames] ∧
      (label.rename renames).declaredId? = some "label" ∧ (ok.rename renames).declaredId? ≠ some "ok" ∧
      ((remap elements taken).1.zipWith (copyAttributes []) elements).Pairwise fun a b =>
        (declaredIds a).Disjoint (declaredIds b) := by
  intro ok label below elements taken renames
  have hnodup : ∀ attributes ∈ elements, (declaredIds attributes).Nodup := by decide +kernel
  have hrenamings : (remap elements taken).1 = [renames, renames] := by decide +kernel
  obtain ⟨-, hdisjoint, -, -, -, hkept⟩ := remap_distinct [] elements taken
  have hlabel := hkept hnodup [[ok]] [] label [below] [] "label" renames rfl (by decide +kernel)
    (by rw [hrenamings]; rfl)
  have hok := hkept hnodup [] [] ok [] [[label, below]] "ok" renames rfl (by decide +kernel) (by rw [hrenamings]; rfl)
  refine ⟨hnodup, hrenamings, hlabel.mpr ?_, fun hsame => ?_, hdisjoint⟩
  · rw [hrenamings]
    decide +kernel
  · exact absurd (hok.mp hsame).2.1 (by decide +kernel)

end ResourceIndex.Layout
