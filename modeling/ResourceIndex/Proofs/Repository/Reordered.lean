import ResourceIndex.Proofs.Item.Edits
import ResourceIndex.Proofs.Repository.Handles
import ResourceIndex.Proofs.Repository.Provided
import ResourceIndex.Report.Basic

/-!
# Files in another order

Files that are added in another order get other ids, and items other handles and other orders of their variants. What
stays is how often each resource is provided in each configuration, inline or not, and a report on an index tells
nothing more of its items.
-/

namespace ResourceIndex

/-- What is left of a contribution without its file: the configuration, and whether it is inline. -/
def Contribution.kind (c : Contribution) : Configuration × Bool :=
  (c.variant.configuration, c.isInline)

/-! ### Items -/

namespace Item

/-- The kinds of the contributions, in the order of their arrival. -/
def kinds (i : Item) : List (Configuration × Bool) :=
  i.contributions.map Contribution.kind

theorem length_kinds (i : Item) : i.kinds.length = i.variantCount := by
  rw [kinds, List.length_map, length_contributions]

theorem countP_kinds (i : Item) : i.kinds.countP (!·.1.isDefault) = i.alternateCount := by
  rw [kinds, List.countP_map, alternateCount, ← countP_contributions]
  rfl

theorem isDeclaredInline_iff_kinds (i : Item) :
    i.isDeclaredInline = true ↔ i.kinds ≠ [] ∧ ∀ k ∈ i.kinds, k.2 = true := by
  rw [isDeclaredInline_iff, kinds, ne_eq, ne_eq, List.map_eq_nil_iff, List.forall_mem_map]
  rfl

end Item

/-- A report on a resource depends on no more than the kinds of its variants, and not on their order. -/
theorem ResourceReport.ofItem_eq_of_perm {i j : Item} (hname : i.name = j.name) (hkinds : i.kinds.Perm j.kinds)
    (type : ResourceType) : ofItem type i = ofItem type j := by
  have hcount : i.variantCount = j.variantCount := by rw [← i.length_kinds, ← j.length_kinds, hkinds.length_eq]
  have halternates : i.alternateCount = j.alternateCount := by
    rw [← i.countP_kinds, ← j.countP_kinds, hkinds.countP_eq]
  have hdefault : i.hasDefault = j.hasDefault := by
    rw [Bool.eq_iff_iff, i.hasDefault_iff, j.hasDefault_iff, hcount, halternates]
  have hinline : i.isDeclaredInline = j.isDeclaredInline := by
    rw [Bool.eq_iff_iff, i.isDeclaredInline_iff_kinds, j.isDeclaredInline_iff_kinds]
    simp only [ne_eq, hkinds.mem_iff, ← List.length_eq_zero_iff, hkinds.length_eq]
  have hqualified : i.hasAlternates = j.hasAlternates := by
    rw [Bool.eq_iff_iff, i.hasAlternates_iff, j.hasAlternates_iff, halternates]
  simp only [ofItem, Item.isEditableDirectly, hname, hcount, halternates, hdefault, hinline, hqualified]

/-! ### Additions -/

/-- The operation adds a file. -/
def Operation.IsAddition : Operation → Prop
  | .addFile .. => True
  | _ => False

/-- The kind of contribution that an added file makes to a resource. -/
def Operation.offer? (type : ResourceType) (name : String) : Operation → Option (Configuration × Bool)
  | .addFile _ _ configuration declarations => (Declaration.flag? declarations type name).map (configuration, ·)
  | _ => none

namespace Repository

variable {r : Repository} {ops others : List Operation}

/-- The kinds of contributions to a resource, in the order of their arrival. -/
def kinds (r : Repository) (type : ResourceType) (name : String) : List (Configuration × Bool) :=
  (r.provided type name).map Contribution.kind

theorem Coherent.apply_addition (hr : r.Coherent) {op : Operation} (hop : op.IsAddition) :
    (r.apply op).repository.Coherent ∧ ∀ type name,
      (r.apply op).repository.kinds type name = r.kinds type name ++ (op.offer? type name).toList := by
  cases op with
  | addFile path folder configuration declarations =>
    refine ⟨hr.addFile path folder configuration declarations, fun type name => ?_⟩
    have hissued : Coherent { r with nextId := r.nextId + 1 } := hr
    have hprovided := hissued.provided_attach_merged ⟨⟨r.nextId⟩, path, configuration⟩ declarations type name
    refine (congrArg (List.map Contribution.kind) hprovided).trans ?_
    rw [List.map_append, List.map_map, Operation.offer?]
    cases Declaration.flag? declarations type name <;> rfl
  | _ => contradiction

theorem Coherent.run_additions (hr : r.Coherent) (hops : ∀ op ∈ ops, op.IsAddition) :
    (r.run ops).Coherent ∧ ∀ type name,
      (r.run ops).kinds type name = r.kinds type name ++ ops.filterMap (·.offer? type name) := by
  induction ops generalizing r with
  | nil => exact ⟨hr, fun type name => (List.append_nil _).symm⟩
  | cons op ops ih =>
    obtain ⟨hop, hops⟩ := List.forall_mem_cons.mp hops
    obtain ⟨hcoherent, hstep⟩ := hr.apply_addition hop
    obtain ⟨hrun, hkinds⟩ := ih hcoherent hops
    refine ⟨hrun, fun type name => ?_⟩
    rw [run_cons, hkinds, hstep, List.append_assoc, List.filterMap_cons]
    cases op.offer? type name <;> rfl

/-- The same resources are provided by contributions of the same kinds. -/
def SameKinds (a b : Repository) : Prop :=
  ∀ type name, (a.kinds type name).Perm (b.kinds type name)

/-- The order of additions does not matter for the kinds of contributions. -/
theorem Coherent.sameKinds_run (hr : r.Coherent) (hops : ∀ op ∈ ops, op.IsAddition) (h : ops.Perm others) :
    (r.run ops).SameKinds (r.run others) := by
  intro type name
  have hothers : ∀ op ∈ others, op.IsAddition := fun op hop => hops op (h.mem_iff.mpr hop)
  rw [(hr.run_additions hops).2, (hr.run_additions hothers).2]
  exact (h.filterMap _).append_left _

theorem SameKinds.symm {a b : Repository} (h : a.SameKinds b) : b.SameKinds a :=
  fun type name => (h type name).symm

theorem kinds_of_find? {type : ResourceType} {name : String} {i : Item} (hi : r.find? type name = some i) :
    r.kinds type name = i.kinds := by
  rw [kinds, provided_of_find? hi, Item.kinds]

end Repository

end ResourceIndex
