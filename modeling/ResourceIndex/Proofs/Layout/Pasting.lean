import ResourceIndex.Proofs.Layout.FreshId
import ResourceIndex.Proofs.Layout.Renaming

/-!
# Going over pasted elements

Every declaration that a paste goes over is given a name that is not taken, which is taken from then on. The name that
an id has in an element changes only when the element declares it, and what an id becomes for all elements is settled
with its first declaration. So the names of an element's ids lie between the ids taken before the element and those
taken behind it.
-/

namespace ResourceIndex.Layout

theorem Ids.mem_insert {taken : Ids} {new id : String} : id ∈ taken.insert new ↔ id = new ∨ id ∈ taken := by
  rw [Std.TreeSet.mem_insert, Std.LawfulEqCmp.compare_eq_iff_eq, eq_comm]

namespace Pasting

variable {p : Pasting} {own : Renaming}

/-- The name that an id has in an element with own new names. -/
def nameIn (p : Pasting) (own : Renaming) (id : String) : String :=
  Renaming.nameOf (own ++ p.shared) id

/-- The name that the next declaration of an id is given. -/
def given (p : Pasting) (id : String) : String :=
  if id ∈ p.declared ∨ id ∈ p.taken then freshId id p.taken else id

theorem given_not_mem (p : Pasting) (id : String) : p.given id ∉ p.taken := by
  rw [given]
  split
  next => exact freshId_not_mem id p.taken
  next h => exact fun htaken => h (.inr htaken)

/-- What going over a declaration can do: a repeated one gets a name of its own, the first one of a taken id gets a name
for all elements, and any other one keeps its id. -/
theorem declare_cases (p : Pasting) (own : Renaming) (id : String) :
    (id ∈ p.declared ∧
      p.declare own id = ({ p with taken := p.taken.insert (p.given id) }, (id, p.given id) :: own)) ∨
    (id ∉ p.declared ∧
      p.declare own id = (⟨p.taken.insert (p.given id), id :: p.declared, (id, p.given id) :: p.shared⟩, own)) ∨
    (id ∉ p.declared ∧ p.given id = id ∧
      p.declare own id = (⟨p.taken.insert (p.given id), id :: p.declared, p.shared⟩, own)) := by
  by_cases hdeclared : id ∈ p.declared
  · have hgiven : p.given id = freshId id p.taken := if_pos (.inl hdeclared)
    exact .inl ⟨hdeclared, by rw [declare, if_pos hdeclared, hgiven]⟩
  by_cases htaken : id ∈ p.taken
  · have hgiven : p.given id = freshId id p.taken := if_pos (.inr htaken)
    exact .inr (.inl ⟨hdeclared, by rw [declare, if_neg hdeclared, if_pos htaken, hgiven]⟩)
  · have hgiven : p.given id = id := if_neg (by simp [hdeclared, htaken])
    exact .inr (.inr ⟨hdeclared, hgiven, by rw [declare, if_neg hdeclared, if_neg htaken, hgiven]⟩)

/-- Only declared ids have new names, and declared ids are taken. -/
structure Consistent (p : Pasting) (own : Renaming) : Prop where
  taken : ∀ id ∈ p.declared, id ∈ p.taken
  shared : ∀ id, id ∉ p.declared → p.shared.lookup id = none
  own : ∀ id, id ∉ p.declared → own.lookup id = none

theorem Consistent.given_eq_iff (h : p.Consistent own) (id : String) : p.given id = id ↔ id ∉ p.taken := by
  constructor
  · intro hgiven
    rw [← hgiven]
    exact p.given_not_mem id
  · intro htaken
    exact if_neg fun hor => htaken (hor.elim (h.taken id) fun htaken => htaken)

/-! ### One declaration -/

theorem taken_declare (p : Pasting) (own : Renaming) (id : String) :
    (p.declare own id).1.taken = p.taken.insert (p.given id) := by
  obtain ⟨-, h⟩ | ⟨-, h⟩ | ⟨-, -, h⟩ := p.declare_cases own id <;> rw [h]

theorem mem_declared_declare {id other : String} :
    other ∈ (p.declare own id).1.declared ↔ other = id ∨ other ∈ p.declared := by
  obtain ⟨hid, h⟩ | ⟨-, h⟩ | ⟨-, -, h⟩ := p.declare_cases own id
  · rw [h]
    exact ⟨.inr, fun hor => hor.elim (fun heq => heq ▸ hid) fun hmem => hmem⟩
  · rw [h, List.mem_cons]
  · rw [h, List.mem_cons]

theorem lookup_cons_of_ne {renames : Renaming} {id other new : String} (h : other ≠ id) :
    List.lookup other ((id, new) :: renames) = renames.lookup other := by
  rw [List.lookup_cons, beq_false_of_ne h]

theorem lookup_shared_declare {other : String} (h : other ∈ p.declared) (id : String) :
    (p.declare own id).1.shared.lookup other = p.shared.lookup other := by
  obtain ⟨-, hstep⟩ | ⟨hid, hstep⟩ | ⟨-, -, hstep⟩ := p.declare_cases own id
  · rw [hstep]
  · have hne : other ≠ id := fun heq => hid (heq ▸ h)
    rw [hstep, lookup_cons_of_ne hne]
  · rw [hstep]

theorem Consistent.declare (h : p.Consistent own) (id : String) :
    (p.declare own id).1.Consistent (p.declare own id).2 := by
  refine ⟨fun other hother => ?_, fun other hother => ?_, fun other hother => ?_⟩
  · rw [taken_declare, Ids.mem_insert]
    obtain rfl | hdeclared := mem_declared_declare.mp hother
    · by_cases htaken : other ∈ p.taken
      · exact .inr htaken
      · exact .inl ((h.given_eq_iff other).mpr htaken).symm
    · exact .inr (h.taken other hdeclared)
  · obtain ⟨hne, hdeclared⟩ := not_or.mp (mt mem_declared_declare.mpr hother)
    obtain ⟨-, hstep⟩ | ⟨-, hstep⟩ | ⟨-, -, hstep⟩ := p.declare_cases own id
    · rw [hstep, h.shared other hdeclared]
    · rw [hstep, lookup_cons_of_ne hne, h.shared other hdeclared]
    · rw [hstep, h.shared other hdeclared]
  · obtain ⟨hne, hdeclared⟩ := not_or.mp (mt mem_declared_declare.mpr hother)
    obtain ⟨-, hstep⟩ | ⟨-, hstep⟩ | ⟨-, -, hstep⟩ := p.declare_cases own id
    · rw [hstep, lookup_cons_of_ne hne, h.own other hdeclared]
    · rw [hstep, h.own other hdeclared]
    · rw [hstep, h.own other hdeclared]

theorem Consistent.nameIn_declare_self (h : p.Consistent own) (id : String) :
    (p.declare own id).1.nameIn (p.declare own id).2 id = p.given id := by
  obtain ⟨-, hstep⟩ | ⟨hid, hstep⟩ | ⟨hid, hgiven, hstep⟩ := p.declare_cases own id
  · rw [hstep, nameIn, Renaming.nameOf, List.cons_append, List.lookup_cons_self]
    rfl
  · rw [hstep, nameIn, Renaming.nameOf_append_of_lookup_eq_none (h.own id hid), Renaming.nameOf,
      List.lookup_cons_self]
    rfl
  · rw [hstep, nameIn, Renaming.nameOf_append_of_lookup_eq_none (h.own id hid), Renaming.nameOf,
      h.shared id hid, hgiven]
    rfl

theorem nameIn_declare_of_ne {id other : String} (h : other ≠ id) :
    (p.declare own id).1.nameIn (p.declare own id).2 other = p.nameIn own other := by
  rw [nameIn, nameIn, Renaming.nameOf_append, Renaming.nameOf_append]
  obtain ⟨-, hstep⟩ | ⟨-, hstep⟩ | ⟨-, -, hstep⟩ := p.declare_cases own id
  · rw [hstep, lookup_cons_of_ne h]
  · rw [hstep, lookup_cons_of_ne h]
  · rw [hstep]

theorem lookup_own_declare_eq_none_iff {id other : String} :
    (p.declare own id).2.lookup other = none ↔ own.lookup other = none ∧ ¬(other = id ∧ id ∈ p.declared) := by
  obtain ⟨hid, hstep⟩ | ⟨hid, hstep⟩ | ⟨hid, -, hstep⟩ := p.declare_cases own id
  · by_cases heq : other = id
    · simp [hstep, heq, hid]
    · simp [hstep, lookup_cons_of_ne heq, heq]
  · simp [hstep, hid]
  · simp [hstep, hid]

/-! ### The declarations of one element -/

theorem declareAll_cons (p : Pasting) (own : Renaming) (id : String) (ids : List String) :
    p.declareAll own (id :: ids) = (p.declare own id).1.declareAll (p.declare own id).2 ids := by
  rfl

theorem mem_taken_declareAll {id : String} (h : id ∈ p.taken) (ids : List String) :
    id ∈ (p.declareAll own ids).1.taken := by
  induction ids generalizing p own with
  | nil => exact h
  | cons first ids ih =>
    rw [declareAll_cons]
    refine ih ?_
    rw [taken_declare, Ids.mem_insert]
    exact .inr h

theorem size_taken_declareAll (p : Pasting) (own : Renaming) (ids : List String) :
    (p.declareAll own ids).1.taken.size = p.taken.size + ids.length := by
  induction ids generalizing p own with
  | nil => rfl
  | cons id ids ih =>
    have hfree : p.taken.contains (p.given id) = false :=
      Bool.eq_false_iff.mpr fun h => p.given_not_mem id (Std.TreeSet.mem_iff_contains.mpr h)
    rw [declareAll_cons, ih, taken_declare, Std.TreeSet.size_insert, hfree, List.length_cons]
    simp only [Bool.false_eq_true, if_false]
    omega

theorem mem_declared_declareAll {ids : List String} {id : String} :
    id ∈ (p.declareAll own ids).1.declared ↔ id ∈ ids ∨ id ∈ p.declared := by
  induction ids generalizing p own with
  | nil => simp [declareAll]
  | cons first ids ih => rw [declareAll_cons, ih, mem_declared_declare, List.mem_cons, or_assoc, or_left_comm]

theorem lookup_shared_declareAll {id : String} (h : id ∈ p.declared) (ids : List String) :
    (p.declareAll own ids).1.shared.lookup id = p.shared.lookup id := by
  induction ids generalizing p own with
  | nil => rfl
  | cons first ids ih =>
    rw [declareAll_cons, ih (mem_declared_declare.mpr (.inr h)), lookup_shared_declare h]

theorem Consistent.declareAll (h : p.Consistent own) (ids : List String) :
    (p.declareAll own ids).1.Consistent (p.declareAll own ids).2 := by
  induction ids generalizing p own with
  | nil => exact h
  | cons id ids ih => exact ih (h.declare id)

/-- The name that an id has in an element behind its declarations. -/
def nameAfter (p : Pasting) (own : Renaming) (ids : List String) (id : String) : String :=
  (p.declareAll own ids).1.nameIn (p.declareAll own ids).2 id

theorem nameAfter_cons (p : Pasting) (own : Renaming) (first : String) (ids : List String) (id : String) :
    p.nameAfter own (first :: ids) id = (p.declare own first).1.nameAfter (p.declare own first).2 ids id := by
  rfl

theorem nameAfter_of_not_mem {ids : List String} {id : String} (h : id ∉ ids) :
    p.nameAfter own ids id = p.nameIn own id := by
  induction ids generalizing p own with
  | nil => rfl
  | cons first ids ih =>
    obtain ⟨hne, hrest⟩ := not_or.mp (mt List.mem_cons.mpr h)
    rw [nameAfter_cons, ih hrest, nameIn_declare_of_ne hne]

theorem Consistent.nameAfter_cons_self (h : p.Consistent own) {id : String} {ids : List String} (hid : id ∉ ids) :
    p.nameAfter own (id :: ids) id = p.given id := by
  rw [nameAfter_cons, nameAfter_of_not_mem hid, h.nameIn_declare_self]

/-- A declared id ends with a name that was free before the element and is taken behind it. -/
theorem Consistent.nameAfter_of_mem (h : p.Consistent own) {ids : List String} {id : String} (hid : id ∈ ids) :
    p.nameAfter own ids id ∈ (p.declareAll own ids).1.taken ∧ p.nameAfter own ids id ∉ p.taken := by
  induction ids generalizing p own with
  | nil => exact absurd hid List.not_mem_nil
  | cons first ids ih =>
    by_cases hlater : id ∈ ids
    · -- The last declaration of the id decides.
      obtain ⟨htaken, hfree⟩ := ih (h.declare first) hlater
      refine ⟨htaken, fun hbefore => hfree ?_⟩
      rw [taken_declare, Ids.mem_insert]
      exact .inr hbefore
    · obtain rfl : id = first := (List.mem_cons.mp hid).resolve_right hlater
      rw [h.nameAfter_cons_self hlater, declareAll_cons]
      refine ⟨mem_taken_declareAll ?_ ids, p.given_not_mem id⟩
      rw [taken_declare, Ids.mem_insert]
      exact .inl rfl

/-! ### Elements that declare no id twice -/

theorem Consistent.mem_taken_declareAll_iff (h : p.Consistent own) {ids : List String} (hnodup : ids.Nodup)
    {name : String} :
    name ∈ (p.declareAll own ids).1.taken ↔ name ∈ p.taken ∨ name ∈ ids.map (p.nameAfter own ids) := by
  induction ids generalizing p own with
  | nil =>
    rw [List.map_nil, Pasting.declareAll]
    simp
  | cons id ids ih =>
    obtain ⟨hid, hrest⟩ := List.nodup_cons.mp hnodup
    rw [declareAll_cons, ih (h.declare id) hrest, taken_declare, Ids.mem_insert, List.map_cons, List.mem_cons,
      h.nameAfter_cons_self hid, or_assoc, or_left_comm]
    rfl

/-- A declared id keeps its name if the name is neither taken before the element nor given to one of the ids that stand
before it. -/
theorem Consistent.nameAfter_eq_iff (h : p.Consistent own) {left right : List String} {id : String}
    (hnodup : (left ++ id :: right).Nodup) :
    p.nameAfter own (left ++ id :: right) id = id ↔
      id ∉ p.taken ∧ id ∉ left.map (p.nameAfter own (left ++ id :: right)) := by
  induction left generalizing p own with
  | nil =>
    rw [List.nil_append, h.nameAfter_cons_self (List.nodup_cons.mp hnodup).1, h.given_eq_iff]
    simp
  | cons first left ih =>
    obtain ⟨hfirst, hrest⟩ := List.nodup_cons.mp hnodup
    have hgiven := h.nameAfter_cons_self hfirst
    have hih := ih (h.declare first) hrest
    rw [taken_declare, Ids.mem_insert, not_or, and_assoc, and_left_comm] at hih
    rw [List.map_cons, List.mem_cons, not_or]
    exact hih.trans (by rw [← hgiven]; rfl)

theorem lookup_own_declareAll_eq_none_iff {ids : List String} (hnodup : ids.Nodup) {id : String} :
    (p.declareAll own ids).2.lookup id = none ↔ own.lookup id = none ∧ ¬(id ∈ ids ∧ id ∈ p.declared) := by
  induction ids generalizing p own with
  | nil => simp [declareAll]
  | cons first ids ih =>
    obtain ⟨hfirst, hrest⟩ := List.nodup_cons.mp hnodup
    rw [declareAll_cons, ih hrest, lookup_own_declare_eq_none_iff, mem_declared_declare, List.mem_cons]
    by_cases heq : id = first
    · simp [heq, hfirst]
    · simp [heq]

/-! ### All elements -/

theorem run_cons (p : Pasting) (attributes : List Attribute) (rest : List (List Attribute)) :
    p.run (attributes :: rest) =
      (((p.declareAll [] (declaredIds attributes)).1.run rest).1,
        (p.declareAll [] (declaredIds attributes)).2 :: ((p.declareAll [] (declaredIds attributes)).1.run rest).2) := by
  rfl

/-- The new names for each element: its own ones, before those that are settled for all elements in the end. -/
def renamings (p : Pasting) (elements : List (List Attribute)) : List Renaming :=
  (p.run elements).2.map (· ++ (p.run elements).1.shared)

theorem renamings_cons (p : Pasting) (attributes : List Attribute) (rest : List (List Attribute)) :
    p.renamings (attributes :: rest) =
      ((p.declareAll [] (declaredIds attributes)).2 ++ (p.run (attributes :: rest)).1.shared) ::
        (p.declareAll [] (declaredIds attributes)).1.renamings rest := by
  rfl

/-- Between two elements nothing has a name of its own. -/
theorem Consistent.next (h : p.Consistent own) : p.Consistent [] :=
  ⟨h.taken, h.shared, fun _ _ => rfl⟩

theorem Consistent.run (h : p.Consistent []) (elements : List (List Attribute)) : (p.run elements).1.Consistent [] := by
  induction elements generalizing p with
  | nil => exact h
  | cons attributes rest ih => exact ih (h.declareAll (declaredIds attributes)).next

theorem length_renamings (p : Pasting) (elements : List (List Attribute)) :
    (p.renamings elements).length = elements.length := by
  induction elements generalizing p with
  | nil => rfl
  | cons attributes rest ih => rw [renamings_cons, List.length_cons, ih, List.length_cons]

theorem mem_taken_run {id : String} (h : id ∈ p.taken) (elements : List (List Attribute)) :
    id ∈ (p.run elements).1.taken := by
  induction elements generalizing p with
  | nil => exact h
  | cons attributes rest ih => exact ih (mem_taken_declareAll h (declaredIds attributes))

theorem size_taken_run (p : Pasting) (elements : List (List Attribute)) :
    (p.run elements).1.taken.size = p.taken.size + (elements.flatMap declaredIds).length := by
  induction elements generalizing p with
  | nil => rfl
  | cons attributes rest ih =>
    rw [run_cons, ih, size_taken_declareAll, List.flatMap_cons, List.length_append, Nat.add_assoc]

theorem mem_declared_run {elements : List (List Attribute)} {id : String} :
    id ∈ (p.run elements).1.declared ↔ id ∈ p.declared ∨ ∃ attributes ∈ elements, id ∈ declaredIds attributes := by
  induction elements generalizing p with
  | nil => simp [run]
  | cons attributes rest ih => rw [run_cons, ih, mem_declared_declareAll, List.exists_mem_cons_iff, or_assoc, or_left_comm]

theorem lookup_shared_run {id : String} (h : id ∈ p.declared) (elements : List (List Attribute)) :
    (p.run elements).1.shared.lookup id = p.shared.lookup id := by
  induction elements generalizing p with
  | nil => rfl
  | cons attributes rest ih =>
    rw [run_cons, ih (mem_declared_declareAll.mpr (.inr h)), lookup_shared_declareAll h]

/-- What an element's ids are called is settled when the element has been gone over. -/
theorem nameOf_own_append_shared {id : String} (h : id ∈ p.declared) (elements : List (List Attribute)) :
    Renaming.nameOf (own ++ (p.run elements).1.shared) id = p.nameIn own id := by
  rw [nameIn, Renaming.nameOf_append, Renaming.nameOf_append, lookup_shared_run h]

end Pasting

end ResourceIndex.Layout
