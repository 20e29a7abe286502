import ResourceIndex.Proofs.Layout.References

/-!
# References that are captured

A fresh name is free among the ids that are taken, but nobody looks for it among the references of the pasted elements.
So a reference that leads out of the pasted set can come to lead into it, in one way only: its id is not taken, no
pasted element declares it, and it is just the name that was picked for a renamed declaration. A reference to a taken
id is never captured.
-/

namespace ResourceIndex.Layout

/-- Some of these elements declares the id that the attribute refers to. -/
def Attribute.RefersInto (a : Attribute) (elements : List (List Attribute)) : Prop :=
  ∃ r, IdReference.ofValue? a.value = some r ∧ ∃ e ∈ elements, r.name ∈ declaredIds e

theorem Attribute.refersInto_iff {a : Attribute} {r : IdReference} (hvalue : IdReference.ofValue? a.value = some r)
    {elements : List (List Attribute)} : a.RefersInto elements ↔ ∃ e ∈ elements, r.name ∈ declaredIds e := by
  simp only [RefersInto, hvalue, Option.some.injEq, exists_eq_left']

namespace Pasting

variable {p : Pasting} {own : Renaming} {elements : List (List Attribute)}

/-- A declaration keeps its id or is given a numbered name. -/
theorem given_cases (p : Pasting) (id : String) :
    p.given id = id ∨ ∃ n, 1 ≤ n ∧ p.given id = numbered (stem id) n := by
  rw [given]
  split
  next =>
    obtain ⟨n, hn, heq, -⟩ := exists_freshId_eq id p.taken
    exact .inr ⟨n, (List.mem_range'_1.mp hn).1, heq⟩
  next => exact .inl rfl

/-- A declared id ends with the name that one of its declarations is given. -/
theorem Consistent.exists_nameAfter_eq_given (h : p.Consistent own) {ids : List String} {id : String} (hid : id ∈ ids) :
    ∃ q : Pasting, p.nameAfter own ids id = q.given id := by
  induction ids generalizing p own with
  | nil => exact absurd hid List.not_mem_nil
  | cons first ids ih =>
    by_cases hlater : id ∈ ids
    · exact ih (h.declare first) hlater
    · obtain rfl : id = first := (List.mem_cons.mp hid).resolve_right hlater
      exact ⟨p, h.nameAfter_cons_self hlater⟩

theorem Consistent.exists_nameOf_eq_given (h : p.Consistent []) {i : Nat} {attributes : List Attribute}
    {renames : Renaming} (hattributes : elements[i]? = some attributes)
    (hrenames : (p.renamings elements)[i]? = some renames) {id : String} (hid : id ∈ declaredIds attributes) :
    ∃ q : Pasting, renames.nameOf id = q.given id := by
  induction elements generalizing p i with
  | nil => simp at hattributes
  | cons first rest ih =>
    rw [renamings_cons] at hrenames
    cases i with
    | zero =>
      obtain rfl := Option.some.inj hattributes
      obtain rfl := Option.some.inj hrenames
      rw [p.nameOf_head rest hid]
      exact h.exists_nameAfter_eq_given hid
    | succ i => exact ih (h.declareAll (declaredIds first)).next hattributes hrenames

/-- No element has a new name for an id that none of them declares. -/
theorem Consistent.nameOf_of_undeclared (h : p.Consistent []) {id : String} (hid : id ∉ p.declared)
    (hnone : ∀ e ∈ elements, id ∉ declaredIds e) : ∀ renames ∈ p.renamings elements, renames.nameOf id = id := by
  induction elements generalizing p with
  | nil => exact List.forall_mem_nil _
  | cons first rest ih =>
    have hshared := h.lookup_shared_run_eq_none hid hnone
    obtain ⟨hfirst, hrest⟩ := List.forall_mem_cons.mp hnone
    have hdeclared : id ∉ (p.declareAll [] (declaredIds first)).1.declared := by
      rw [mem_declared_declareAll]
      exact not_or.mpr ⟨hfirst, hid⟩
    have hnext := h.declareAll (declaredIds first)
    rw [renamings_cons, List.forall_mem_cons]
    refine ⟨?_, ih hnext.next hdeclared hrest⟩
    rw [Renaming.nameOf_append_of_lookup_eq_none (hnext.own id hdeclared), Renaming.nameOf, hshared, Option.getD_none]

end Pasting

/-! ### The whole paste -/

/-- A pasted element declares another id, for which a numbered name is picked, and it is this one. -/
def IsPicked (elements : List (List Attribute)) (renamings : List Renaming) (name : String) : Prop :=
  ∃ i id n, EndsAs elements renamings i id name ∧ id ≠ name ∧ 1 ≤ n ∧ name = numbered (stem id) n

variable {elements : List (List Attribute)} {taken : Ids}

/-- A copy declares new names of ids that its element declares. -/
theorem exists_of_mem_copies {renamings : List Renaming} {excluded : List AttributeName} {name : String}
    (h : ∃ copy ∈ renamings.zipWith (copyAttributes excluded) elements, name ∈ declaredIds copy) :
    ∃ (i : Nat) (attributes : List Attribute) (renames : Renaming), elements[i]? = some attributes ∧
      renamings[i]? = some renames ∧ ∃ id ∈ declaredIds attributes, renames.nameOf id = name := by
  obtain ⟨copy, hcopy, hname⟩ := h
  obtain ⟨i, hi⟩ := List.mem_iff_getElem?.mp hcopy
  obtain ⟨renames, attributes, hrenames, hattributes, rfl⟩ := List.getElem?_zipWith_eq_some.mp hi
  have hnew := (declaredIds_copyAttributes_sublist excluded renames attributes).subset hname
  exact ⟨i, attributes, renames, hattributes, hrenames, List.mem_map.mp hnew⟩

/-- What a pasted element declares under a name that none of them declared was picked for it, and was not taken. -/
theorem picked_of_undeclared {i : Nat} {attributes : List Attribute} {renames : Renaming}
    (hattributes : elements[i]? = some attributes) (hrenames : (remap elements taken).1[i]? = some renames)
    {id : String} (hid : id ∈ declaredIds attributes) (hnone : ∀ e ∈ elements, renames.nameOf id ∉ declaredIds e) :
    renames.nameOf id ∉ taken ∧ IsPicked elements (remap elements taken).1 (renames.nameOf id) := by
  have hstart := Pasting.consistent_start taken
  have hlist := List.mem_of_getElem? (getElem?_newIds hattributes hrenames)
  have hne : id ≠ renames.nameOf id := fun hsame =>
    hnone attributes (List.mem_of_getElem? hattributes) (by rwa [← hsame])
  obtain ⟨q, hq⟩ := hstart.exists_nameOf_eq_given hattributes hrenames hid
  obtain hkept | ⟨n, hn, hnumbered⟩ := q.given_cases id
  · exact absurd (hq.trans hkept).symm hne
  · refine ⟨(hstart.newIds_of_renamings elements _ hlist _ (List.mem_map_of_mem hid)).2, ?_⟩
    exact ⟨i, id, n, endsAs_nameOf hattributes hrenames hid, hne, hn, hq.trans hnumbered⟩

/-- An attribute whose copy refers to an id that a copy declares has referred to an id that a pasted element declares,
or else it has kept its value, and its id, which was not taken, happens to be picked for another one. -/
theorem remap_captures (excluded : List AttributeName) (elements : List (List Attribute)) (taken : Ids) :
    let renamings := (remap elements taken).1
    let copies := renamings.zipWith (copyAttributes excluded) elements
    ∀ (j : Nat) attributes, elements[j]? = some attributes → ∃ renames : Renaming, renamings[j]? = some renames ∧
      ∀ a ∈ attributes, (a.rename renames).RefersInto copies → a.RefersInto elements ∨
        a.rename renames = a ∧
          ∃ r, IdReference.ofValue? a.value = some r ∧ r.name ∉ taken ∧ IsPicked elements renamings r.name := by
  intro renamings copies j attributes hattributes
  have hlength : renamings.length = elements.length := Pasting.length_renamings _ elements
  have hlt : j < renamings.length := hlength ▸ (List.getElem?_eq_some_iff.mp hattributes).1
  have hrenames : renamings[j]? = some renamings[j] := List.getElem?_eq_getElem hlt
  refine ⟨renamings[j], hrenames, fun a _ hinto => or_iff_not_imp_left.mpr fun hout => ?_⟩
  obtain ⟨s, hs, hcopy⟩ := hinto
  cases hvalue : IdReference.ofValue? a.value with
  | none =>
    rw [Attribute.rename_of_ofValue?_eq_none hvalue, hvalue] at hs
    contradiction
  | some r =>
    rw [Attribute.refersInto_iff hvalue] at hout
    have hundeclared : ∀ e ∈ elements, r.name ∉ declaredIds e := fun e he hid => hout ⟨e, he, hid⟩
    have hname : Renaming.nameOf renamings[j] r.name = r.name :=
      (Pasting.consistent_start taken).nameOf_of_undeclared List.not_mem_nil hundeclared _
        (List.mem_of_getElem? hrenames)
    have hsame := Attribute.rename_of_nameOf_eq hvalue hname
    obtain rfl : r = s := by
      rw [hsame, hvalue] at hs
      exact Option.some.inj hs
    obtain ⟨i, declarer, renames, hdeclarer, hrenames, id, hid, hnew⟩ := exists_of_mem_copies hcopy
    obtain ⟨hfree, hpicked⟩ := picked_of_undeclared hdeclarer hrenames hid (by rwa [hnew])
    rw [hnew] at hfree hpicked
    exact ⟨hsame, r, rfl, hfree, hpicked⟩

/-- With `ok` taken, the element that declares `ok` is pasted as `ok1`, the id of an element outside the pasted set that
another one lies below. -/
theorem remap_captures_below :
    let ok : Attribute := ⟨.id, "@+id/ok"⟩
    let below : Attribute := ⟨⟨some platformUri, "layout_below"⟩, "@id/ok1"⟩
    let elements := [[ok], [below]]
    let taken : Ids := Std.TreeSet.ofList ["ok"]
    let renames : Renaming := [("ok", "ok1")]
    (remap elements taken).1 = [renames, renames] ∧
      (below.rename renames).RefersInto ([renames, renames].zipWith (copyAttributes []) elements) ∧
      ¬below.RefersInto elements ∧ below.rename renames = below ∧
      ∃ r, IdReference.ofValue? below.value = some r ∧ r.name ∉ taken ∧
        IsPicked elements [renames, renames] r.name := by
  intro ok below elements taken renames
  have hrenamings : (remap elements taken).1 = [renames, renames] := by decide +kernel
  have hkept : below.rename renames = below := by decide +kernel
  have hvalue : IdReference.ofValue? below.value = some ⟨false, "ok1"⟩ := by decide +kernel
  have hinto : (below.rename renames).RefersInto ([renames, renames].zipWith (copyAttributes []) elements) := by
    rw [hkept, Attribute.refersInto_iff hvalue]
    decide +kernel
  have hout : ¬below.RefersInto elements := by
    rw [Attribute.refersInto_iff hvalue]
    decide +kernel
  have hcaptures := remap_captures [] elements taken 1 [below] rfl
  rw [hrenamings] at hcaptures
  obtain ⟨other, hother, hcaptures⟩ := hcaptures
  obtain rfl : renames = other := Option.some.inj hother
  exact ⟨hrenamings, hinto, hout, (hcaptures below List.mem_cons_self hinto).resolve_left hout⟩

/-- A reference to an id that no pasted element declares can come to lead into the pasted set. -/
theorem not_refersInto_of_refersInto_rename :
    ¬∀ (elements : List (List Attribute)) (taken : Ids) (j : Nat) (attributes : List Attribute) (renames : Renaming),
      elements[j]? = some attributes → (remap elements taken).1[j]? = some renames → ∀ a ∈ attributes,
        (a.rename renames).RefersInto ((remap elements taken).1.zipWith (copyAttributes []) elements) →
          a.RefersInto elements := by
  intro hclosed
  let ok : Attribute := ⟨.id, "@+id/ok"⟩
  let below : Attribute := ⟨⟨some platformUri, "layout_below"⟩, "@id/ok1"⟩
  let elements := [[ok], [below]]
  let renames : Renaming := [("ok", "ok1")]
  have hrenamings : (remap elements (Std.TreeSet.ofList ["ok"])).1 = [renames, renames] := by decide +kernel
  have hkept : below.rename renames = below := by decide +kernel
  have hvalue : IdReference.ofValue? below.value = some ⟨false, "ok1"⟩ := by decide +kernel
  have hback := hclosed elements (Std.TreeSet.ofList ["ok"]) 1 [below] renames rfl (by rw [hrenamings]; rfl) below
    List.mem_cons_self
  rw [hrenamings, hkept, Attribute.refersInto_iff hvalue, Attribute.refersInto_iff hvalue] at hback
  exact absurd (hback (by decide +kernel)) (by decide +kernel)

end ResourceIndex.Layout
