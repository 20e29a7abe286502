import ResourceIndex.Proofs.Declaration.Merged
import ResourceIndex.Proofs.Text.Bytes

/-!
# Lists that declare the same

Neither the order nor the repetition of declarations counts. Two lists declare the same if they mention the same
resources and agree for each of them on whether every mention is inline; such lists are merged into the same list.
-/

namespace ResourceIndex.Declaration

/-- Every declaration of the resource is inline. -/
def OnlyInline (ds : List Declaration) (p : ResourceType × String) : Prop :=
  ∀ d ∈ ds, d.resource = p → d.isInline = true

/-- The lists mention the same resources, and the same ones only inline. -/
structure Alike (ds es : List Declaration) : Prop where
  resource : ∀ p, p ∈ ds.map resource ↔ p ∈ es.map resource
  onlyInline : ∀ p ∈ ds.map Declaration.resource, OnlyInline ds p ↔ OnlyInline es p

/-- What merging leaves of declarations: each mentioned resource once and nothing else, in strictly ascending order of
type and of the bytes of the name, and inline if every mention was. -/
structure IsMergeOf (kept ds : List Declaration) : Prop where
  ascending : kept.Pairwise fun a b =>
    compare a.type b.type = .lt ∨ a.type = b.type ∧ Text.bytes a.name < Text.bytes b.name
  once : ∀ p ∈ ds.map resource, (kept.map resource).count p = 1
  mentioned : ∀ d ∈ kept, d.resource ∈ ds.map resource
  inline : ∀ d ∈ kept, d.isInline = true ↔ OnlyInline ds d.resource

theorem resource_eq_iff_isOf {d : Declaration} {type : ResourceType} {name : String} :
    d.resource = (type, name) ↔ d.isOf type name = true := by
  rw [isOf_iff, resource, Prod.mk.injEq]

theorem flag?_eq_some_iff {ds : List Declaration} {type : ResourceType} {name : String} {b : Bool} :
    flag? ds type name = some b ↔ (type, name) ∈ ds.map resource ∧ (b = true ↔ OnlyInline ds (type, name)) := by
  have hall : OnlyInline ds (type, name) ↔ (ds.filter (·.isOf type name)).all (·.isInline) = true := by
    simp only [OnlyInline, resource_eq_iff_isOf, List.all_eq_true, List.mem_filter, and_imp]
  rw [mem_map_resource_iff, hall, flag?]
  cases ds.filter (·.isOf type name) with
  | nil => simp
  | cons d found =>
    simp only [Option.some.injEq, ne_eq, reduceCtorEq, not_false_eq_true, true_and]
    cases (d :: found).all (·.isInline) <;> cases b <;> simp

/-- Lists that declare the same give the same answer for every resource. -/
theorem Alike.flag?_eq {ds es : List Declaration} (h : Alike ds es) (type : ResourceType) (name : String) :
    flag? ds type name = flag? es type name := by
  refine Option.ext fun b => ?_
  rw [flag?_eq_some_iff, flag?_eq_some_iff, ← h.resource]
  exact and_congr_right fun hmem => by rw [h.onlyInline _ hmem]

theorem Alike.merged_eq {ds es : List Declaration} (h : Alike ds es) : merged ds = merged es := by
  refine (merged_ascending ds).eq_of_flag?_eq (merged_ascending es) fun type name => ?_
  rw [flag?_merged, flag?_merged, h.flag?_eq]

theorem compareResource_eq_lt_iff {a b : Declaration} :
    compareResource a b = .lt ↔
      compare a.type b.type = .lt ∨ a.type = b.type ∧ Text.bytes a.name < Text.bytes b.name := by
  rw [compareResource, Ordering.then_eq_lt, Std.LawfulEqCmp.compare_eq_iff_eq, Text.compare_eq_lt_iff]

theorem merged_isMergeOf (ds : List Declaration) : IsMergeOf (merged ds) ds where
  ascending := (merged_ascending ds).imp compareResource_eq_lt_iff.mp
  once p hp := by
    rw [← mem_map_resource_merged] at hp
    exact List.count_eq_one_of_mem (merged_ascending ds).nodup_map_resource hp
  mentioned d hd := (mem_map_resource_merged ds _).mp (List.mem_map_of_mem hd)
  inline d hd := by
    have hflag := ((merged_ascending ds).mem_iff d).mp hd
    rw [flag?_merged] at hflag
    exact (flag?_eq_some_iff.mp hflag).2

end ResourceIndex.Declaration
