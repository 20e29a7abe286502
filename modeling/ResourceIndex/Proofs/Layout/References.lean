import ResourceIndex.Proofs.Layout.Distinct

/-!
# References between pasted elements

A reference inside a pasted set leads to the element that it led to before. In every copy an id has the name that its
first declarer ends up with, but a later declarer of the same id, and it alone, has a fresh name for it, under which it
also refers to itself. References that lead out of the pasted set stay as they are.
-/

namespace ResourceIndex.Layout

/-- The element at a position declares an id, and its copy declares the id under a new name. -/
def EndsAs (elements : List (List Attribute)) (renamings : List Renaming) (i : Nat) (id new : String) : Prop :=
  ∃ attributes renames, elements[i]? = some attributes ∧ renamings[i]? = some renames ∧
    ∃ a ∈ attributes, a.declaredId? = some id ∧ (a.rename renames).declaredId? = some new

/-- The element at a position declares an id, and no element before it does. -/
def IsFirstDeclarer (elements : List (List Attribute)) (id : String) (i : Nat) : Prop :=
  (∃ attributes, elements[i]? = some attributes ∧ id ∈ declaredIds attributes) ∧
    ∀ e ∈ elements.take i, id ∉ declaredIds e

theorem endsAs_nameOf {elements : List (List Attribute)} {renamings : List Renaming} {i : Nat} {id : String}
    {attributes : List Attribute} {renames : Renaming} (hattributes : elements[i]? = some attributes)
    (hrenames : renamings[i]? = some renames) (hid : id ∈ declaredIds attributes) :
    EndsAs elements renamings i id (renames.nameOf id) := by
  obtain ⟨a, ha, hdeclared⟩ := mem_declaredIds.mp hid
  refine ⟨attributes, renames, hattributes, hrenames, a, ha, hdeclared, ?_⟩
  rw [Attribute.declaredId?_rename, hdeclared, Option.map_some]

theorem getElem?_newIds {elements : List (List Attribute)} {renamings : List Renaming} {i : Nat}
    {attributes : List Attribute} {renames : Renaming} (hattributes : elements[i]? = some attributes)
    (hrenames : renamings[i]? = some renames) :
    (renamings.zipWith newIds elements)[i]? = some (newIds renames attributes) := by
  rw [List.getElem?_zipWith, hrenames, hattributes]

theorem exists_eq_append_cons {α : Type} {l : List α} {i : Nat} {a : α} (h : l[i]? = some a) :
    ∃ before behind, l = before ++ a :: behind ∧ before.length = i := by
  obtain ⟨hlt, rfl⟩ := List.getElem?_eq_some_iff.mp h
  refine ⟨l.take i, l.drop (i + 1), ?_, List.length_take_of_le (Nat.le_of_lt hlt)⟩
  rw [List.getElem_cons_drop, List.take_append_drop]

namespace Pasting

variable {p : Pasting} {elements : List (List Attribute)}

/-- Among elements that declare no id twice, one has a name of its own for exactly those ids that it declares and that
were declared before. -/
theorem exists_own {i : Nat} {attributes : List Attribute} (hnodup : ∀ e ∈ elements, (declaredIds e).Nodup)
    (hattributes : elements[i]? = some attributes) :
    ∃ own : Renaming, (p.renamings elements)[i]? = some (own ++ (p.run elements).1.shared) ∧
      ∀ id, own.lookup id = none ↔
        ¬(id ∈ declaredIds attributes ∧ (id ∈ p.declared ∨ ∃ e ∈ elements.take i, id ∈ declaredIds e)) := by
  induction elements generalizing p i with
  | nil => simp at hattributes
  | cons first rest ih =>
    rw [List.forall_mem_cons] at hnodup
    cases i with
    | zero =>
      obtain rfl := Option.some.inj hattributes
      refine ⟨(p.declareAll [] (declaredIds first)).2, rfl, fun id => ?_⟩
      rw [lookup_own_declareAll_eq_none_iff hnodup.1]
      simp
    | succ i =>
      obtain ⟨own, hown, hlookup⟩ := ih (p := (p.declareAll [] (declaredIds first)).1) hnodup.2 hattributes
      refine ⟨own, hown, fun id => ?_⟩
      rw [hlookup, mem_declared_declareAll, List.take_succ_cons, List.exists_mem_cons_iff, or_assoc, or_left_comm]

/-- An element without a name of its own for an id has the name that the first declarer ends up with. -/
theorem endsAs_first {id : String} {first : Nat} {own : Renaming} (hnodup : ∀ e ∈ elements, (declaredIds e).Nodup)
    (hid : id ∉ p.declared) (hfirst : IsFirstDeclarer elements id first) (hnone : own.lookup id = none) :
    EndsAs elements (p.renamings elements) first id (Renaming.nameOf (own ++ (p.run elements).1.shared) id) := by
  obtain ⟨⟨declarer, hdeclarer, hmem⟩, hbefore⟩ := hfirst
  obtain ⟨owned, howned, hlookup⟩ := exists_own (p := p) hnodup hdeclarer
  have hownednone : owned.lookup id = none := by
    refine (hlookup id).mpr fun hdeclared => ?_
    obtain ⟨e, he, hearlier⟩ := hdeclared.2.resolve_left hid
    exact hbefore e he hearlier
  have hends := endsAs_nameOf hdeclarer howned hmem
  rwa [Renaming.nameOf_append_of_lookup_eq_none hownednone,
    ← Renaming.nameOf_append_of_lookup_eq_none hnone] at hends

theorem Consistent.lookup_shared_run_eq_none (h : p.Consistent []) {id : String} (hid : id ∉ p.declared)
    (hnone : ∀ e ∈ elements, id ∉ declaredIds e) : (p.run elements).1.shared.lookup id = none := by
  refine (h.run elements).shared id fun hdeclared => ?_
  obtain hbefore | ⟨e, he, hmem⟩ := mem_declared_run.mp hdeclared
  · exact hid hbefore
  · exact hnone e he hmem

theorem Consistent.disjoint_newIds (h : p.Consistent []) {i j : Nat} (hne : i ≠ j) {a b : List Attribute}
    {renamesA renamesB : Renaming} (ha : elements[i]? = some a) (hb : elements[j]? = some b)
    (hrenamesA : (p.renamings elements)[i]? = some renamesA) (hrenamesB : (p.renamings elements)[j]? = some renamesB) :
    (newIds renamesA a).Disjoint (newIds renamesB b) := by
  have hpairwise := h.pairwise_newIds elements
  obtain ⟨hilt, hieq⟩ := List.getElem?_eq_some_iff.mp (getElem?_newIds ha hrenamesA)
  obtain ⟨hjlt, hjeq⟩ := List.getElem?_eq_some_iff.mp (getElem?_newIds hb hrenamesB)
  rw [← hieq, ← hjeq]
  obtain hlt | hgt := Nat.lt_or_gt_of_ne hne
  · exact List.pairwise_iff_getElem.mp hpairwise i j hilt hjlt hlt
  · exact fun id hleft hright => List.pairwise_iff_getElem.mp hpairwise j i hjlt hilt hgt hright hleft

/-- A later declarer of an id has a name for it that is new to the paste and to every other copy. -/
theorem Consistent.nameOf_fresh (h : p.Consistent []) {j : Nat} {attributes : List Attribute} {renames : Renaming}
    (hnodup : ∀ e ∈ elements, (declaredIds e).Nodup) (hattributes : elements[j]? = some attributes)
    (hrenames : (p.renamings elements)[j]? = some renames) {id : String} (hid : id ∈ declaredIds attributes)
    (hlater : ∃ e ∈ elements.take j, id ∈ declaredIds e) :
    renames.nameOf id ≠ id ∧ renames.nameOf id ∉ p.taken ∧
      ∀ k e other, k ≠ j → elements[k]? = some e → (p.renamings elements)[k]? = some other →
        renames.nameOf id ∉ declaredIds (copyAttributes [] other e) := by
  have hnew : renames.nameOf id ∈ newIds renames attributes := List.mem_map_of_mem hid
  have hlist := List.mem_of_getElem? (getElem?_newIds hattributes hrenames)
  refine ⟨fun hsame => ?_, (h.newIds_of_renamings elements _ hlist _ hnew).2, fun k e other hne he hother => ?_⟩
  · -- An id that an earlier element declares is taken, so that it cannot be kept.
    obtain ⟨before, behind, rfl, rfl⟩ := exists_eq_append_cons hattributes
    obtain ⟨left, right, hids⟩ := List.append_of_mem hid
    rw [List.take_left] at hlater
    obtain ⟨e, he, hmem⟩ := hlater
    exact ((h.nameOf_eq_iff hnodup hids hrenames).mp hsame).1 e he hmem
  · rw [declaredIds_copyAttributes_nil]
    exact h.disjoint_newIds hne.symm hattributes he hrenames hother hnew

end Pasting

/-- Let no pasted element declare an id twice. In the copy of an element every attribute keeps its name and its place.
A value that refers to an id keeps its mark, and its id becomes: itself if no pasted element declares it, what the first
declarer of the id ends up with if the element is that declarer or declares the id not at all, and a fresh name if it
declares the id again. Any other value stays. -/
theorem remap_references (elements : List (List Attribute)) (taken : Ids)
    (hnodup : ∀ attributes ∈ elements, (declaredIds attributes).Nodup) :
    let renamings := (remap elements taken).1
    ∀ j attributes, elements[j]? = some attributes → ∃ renames, renamings[j]? = some renames ∧
      copyAttributes [] renames attributes = attributes.map (·.rename renames) ∧
      ∀ a ∈ attributes, (a.rename renames).name = a.name ∧
        ((∀ r : IdReference, a.value ≠ r.toValue) → (a.rename renames).value = a.value) ∧
        ∀ r : IdReference, a.value = r.toValue →
          ∃ new, (a.rename renames).value = { r with name := new }.toValue ∧
            ((∀ e ∈ elements, r.name ∉ declaredIds e) → new = r.name) ∧
            (∀ first, IsFirstDeclarer elements r.name first → j = first ∨ r.name ∉ declaredIds attributes →
              EndsAs elements renamings first r.name new) ∧
            (r.name ∈ declaredIds attributes → ¬IsFirstDeclarer elements r.name j →
              EndsAs elements renamings j r.name new ∧ new ≠ r.name ∧ new ∉ taken ∧
                ∀ k e other, k ≠ j → elements[k]? = some e → renamings[k]? = some other →
                  new ∉ declaredIds (copyAttributes [] other e)) := by
  intro renamings j attributes hattributes
  have hstart := Pasting.consistent_start taken
  obtain ⟨own, hrenames, hown⟩ := Pasting.exists_own (p := { taken := taken }) hnodup hattributes
  refine ⟨_, hrenames, copyAttributes_nil _ attributes, fun a ha => ⟨Attribute.name_rename, fun hother => ?_, ?_⟩⟩
  · cases hvalue : IdReference.ofValue? a.value with
    | none => rw [Attribute.rename_of_ofValue?_eq_none hvalue]
    | some r => exact absurd (IdReference.toValue_of_ofValue? hvalue).symm (hother r)
  · rintro r hr
    have hvalue : IdReference.ofValue? a.value = some r := by
      rw [hr, IdReference.ofValue?_toValue]
    refine ⟨_, Attribute.value_rename hvalue, fun hnone => ?_, fun first hfirst hwhere => ?_, fun hid hnot => ?_⟩
    · have hnotown := (hown r.name).mpr fun hdeclared => hnone _ (List.mem_of_getElem? hattributes) hdeclared.1
      rw [Renaming.nameOf_append_of_lookup_eq_none hnotown, Renaming.nameOf,
        hstart.lookup_shared_run_eq_none List.not_mem_nil hnone, Option.getD_none]
    · have hnone : own.lookup r.name = none := by
        refine (hown r.name).mpr fun hdeclared => ?_
        obtain rfl | hnotdeclared := hwhere
        · obtain ⟨e, he, hmem⟩ := hdeclared.2.resolve_left List.not_mem_nil
          exact hfirst.2 e he hmem
        · exact hnotdeclared hdeclared.1
      exact Pasting.endsAs_first hnodup List.not_mem_nil hfirst hnone
    · have hlater : ∃ e ∈ elements.take j, r.name ∈ declaredIds e := by
        by_contra! hnone
        exact hnot ⟨⟨attributes, hattributes, hid⟩, hnone⟩
      exact ⟨endsAs_nameOf hattributes hrenames hid, hstart.nameOf_fresh hnodup hattributes hrenames hid hlater⟩

/-- Of two pasted elements that declare `ok`, the second one gets a fresh name, and refers to itself by it; a third
element refers to the first one. -/
theorem remap_references_ok :
    let ok : Attribute := ⟨.id, "@+id/ok"⟩
    let below : Attribute := ⟨⟨some platformUri, "layout_below"⟩, "@id/ok"⟩
    let elements := [[ok], [ok, below], [below]]
    let renamings := (remap elements {}).1
    (∀ attributes ∈ elements, (declaredIds attributes).Nodup) ∧
      (∃ renames new, renamings[1]? = some renames ∧ (below.rename renames).value = IdReference.toValue ⟨false, new⟩ ∧
        EndsAs elements renamings 1 "ok" new ∧ new ≠ "ok") ∧
      ∃ renames new, renamings[2]? = some renames ∧ (below.rename renames).value = IdReference.toValue ⟨false, new⟩ ∧
        EndsAs elements renamings 0 "ok" new := by
  intro ok below elements renamings
  have hnodup : ∀ attributes ∈ elements, (declaredIds attributes).Nodup := by decide +kernel
  have hfirst : IsFirstDeclarer elements "ok" 0 := ⟨⟨[ok], rfl, by decide +kernel⟩, by simp⟩
  have hsecond : ¬IsFirstDeclarer elements "ok" 1 := fun h => h.2 [ok] List.mem_cons_self (by decide +kernel)
  obtain ⟨renames, hrenames, -, hvalues⟩ := remap_references elements {} hnodup 1 [ok, below] rfl
  obtain ⟨other, hother, -, hothers⟩ := remap_references elements {} hnodup 2 [below] rfl
  obtain ⟨-, -, hbelow⟩ := hvalues below (by simp)
  obtain ⟨-, -, habove⟩ := hothers below List.mem_cons_self
  obtain ⟨new, hnew, -, -, hlater⟩ := hbelow ⟨false, "ok"⟩ (by decide +kernel)
  obtain ⟨name, hname, -, hends, -⟩ := habove ⟨false, "ok"⟩ (by decide +kernel)
  obtain ⟨hself, hne, -⟩ := hlater (by decide +kernel) hsecond
  exact ⟨hnodup, ⟨renames, new, hrenames, hnew, hself, hne⟩,
    other, name, hother, hname, hends 0 hfirst (.inr (by decide +kernel))⟩

end ResourceIndex.Layout
