import ResourceIndex.Proofs.Repository.Handles
import ResourceIndex.Proofs.Repository.Provided

/-!
# Live files

A live file is a file as it was last given to the index. Listed in the order in which they were given, the live files
determine everything that an index answers apart from handles: the file table holds each of them with merged
declarations, and a resource is provided by those that declare it, in that order. Every operation that changes the index
changes the list in the obvious way.
-/

namespace ResourceIndex

/-- A file as it was last given to the index, with its declarations as they came. -/
structure LiveFile where
  id : SourceId
  path : Path
  folder : FolderType
  configuration : Configuration
  declarations : List Declaration

namespace LiveFile

/-- The file declares a resource. -/
def declares (f : LiveFile) (type : ResourceType) (name : String) : Bool :=
  f.declarations.any (·.isOf type name)

/-- Every declaration that the file makes of a resource is inline. -/
def declaresInline (f : LiveFile) (type : ResourceType) (name : String) : Bool :=
  (f.declarations.filter (·.isOf type name)).all (·.isInline)

/-- The variant that the file provides. -/
def variant (f : LiveFile) : Variant :=
  ⟨f.id, f.path, f.configuration⟩

/-- The file as the index keeps it. -/
def indexed (f : LiveFile) : SourceFile :=
  ⟨f.id, f.path, f.folder, f.configuration, Declaration.merged f.declarations⟩

/-- What the file contributes to a resource. -/
def contribution? (f : LiveFile) (type : ResourceType) (name : String) : Option Contribution :=
  if f.declares type name then some ⟨f.variant, f.declaresInline type name⟩ else none

theorem flag?_declarations (f : LiveFile) (type : ResourceType) (name : String) :
    Declaration.flag? f.declarations type name =
      if f.declares type name then some (f.declaresInline type name) else none := by
  cases hdeclares : f.declares type name with
  | false => simpa [Declaration.flag?_eq_none_iff, declares] using hdeclares
  | true =>
    obtain ⟨d, hd, hof⟩ := List.any_eq_true.mp hdeclares
    have hmem : d ∈ f.declarations.filter (·.isOf type name) := List.mem_filter.mpr ⟨hd, hof⟩
    rw [Declaration.flag?, declaresInline]
    split
    next hnil => simp [hnil] at hmem
    next => rfl

theorem flag?_indexed (f : LiveFile) (type : ResourceType) (name : String) :
    Declaration.flag? f.indexed.declarations type name =
      if f.declares type name then some (f.declaresInline type name) else none :=
  (Declaration.flag?_merged f.declarations type name).trans (f.flag?_declarations type name)

theorem source_of_mem_contribution? {f : LiveFile} {type : ResourceType} {name : String} {c : Contribution}
    (hc : c ∈ f.contribution? type name) : c.variant.source = f.id := by
  rw [contribution?] at hc
  split at hc
  · exact (Option.some.inj hc) ▸ rfl
  · contradiction

end LiveFile

/-! ### Lists of live files -/

namespace LiveFile

variable {live : List LiveFile}

theorem find?_id_eq_some_iff (hids : (live.map (·.id)).Nodup) {id : SourceId} {f : LiveFile} :
    live.find? (·.id = id) = some f ↔ f ∈ live ∧ f.id = id := by
  constructor
  · intro hf
    exact ⟨List.mem_of_find?_eq_some hf, by simpa using List.find?_some hf⟩
  · rintro ⟨hf, rfl⟩
    induction live with
    | nil => contradiction
    | cons g live ih =>
      obtain ⟨hg, hids⟩ := List.nodup_cons.mp hids
      rcases List.mem_cons.mp hf with rfl | hf
      · simp
      · have hne : g.id ≠ f.id := fun heq => hg (List.mem_map.mpr ⟨f, hf, heq.symm⟩)
        rw [List.find?_cons_of_neg (by simpa using hne), ih hids hf]

theorem find?_filter_id_ne (live : List LiveFile) (id other : SourceId) :
    (live.filter (·.id ≠ id)).find? (·.id = other) = if id = other then none else live.find? (·.id = other) := by
  rw [List.find?_filter]
  split
  next heq =>
    subst heq
    simp
  next hne =>
    congr 1
    funext f
    by_cases hf : f.id = other
    · simp [hf, Ne.symm hne]
    · simp [hf]

theorem perm_cons_filter_id_ne (hids : (live.map (·.id)).Nodup) {f : LiveFile} (hf : f ∈ live) :
    live.Perm (f :: live.filter (·.id ≠ f.id)) := by
  induction live with
  | nil => contradiction
  | cons g live ih =>
    obtain ⟨hg, hids⟩ := List.nodup_cons.mp hids
    rcases List.mem_cons.mp hf with rfl | hf
    · have hothers : ∀ x ∈ live, x.id ≠ f.id := fun x hx heq => hg (List.mem_map.mpr ⟨x, hx, heq⟩)
      rw [List.filter_cons_of_neg (by simp), List.filter_eq_self.mpr (by simpa using hothers)]
    · have hne : g.id ≠ f.id := fun heq => hg (List.mem_map.mpr ⟨f, hf, heq.symm⟩)
      rw [List.filter_cons_of_pos (by simpa using hne)]
      exact ((ih hids hf).cons g).trans (.swap ..)

/-- The contributions of all files but one are all contributions without those of that file. -/
theorem filterMap_contribution?_filter (live : List LiveFile) (id : SourceId) (type : ResourceType) (name : String) :
    (live.filter (·.id ≠ id)).filterMap (·.contribution? type name) =
      (live.filterMap (·.contribution? type name)).filter (·.variant.source ≠ id) := by
  induction live with
  | nil => rfl
  | cons f live ih =>
    rw [List.filter_cons, List.filterMap_cons]
    cases hf : f.contribution? type name with
    | none =>
      split
      · rw [List.filterMap_cons, hf, ih]
      · exact ih
    | some c =>
      have hsource : c.variant.source = f.id := source_of_mem_contribution? hf
      by_cases hid : f.id = id
      · simpa [hid, hsource] using ih
      · simpa [hid, hsource, hf] using ih

theorem sources_nodup (hids : (live.map (·.id)).Nodup) (type : ResourceType) (name : String) :
    ((live.filterMap (·.contribution? type name)).map (·.variant.source)).Nodup := by
  refine hids.sublist ?_
  clear hids
  induction live with
  | nil => exact List.Sublist.slnil
  | cons f live ih =>
    rw [List.filterMap_cons]
    cases hf : f.contribution? type name with
    | none => exact ih.cons _
    | some c =>
      rw [List.map_cons, List.map_cons, source_of_mem_contribution? hf]
      exact ih.cons_cons _

end LiveFile

/-- Where sources differ, taking out the first contribution of a source takes out all of them. -/
theorem eraseP_source_eq_filter {cs : List Contribution} (hcs : (cs.map (·.variant.source)).Nodup) (id : SourceId) :
    cs.eraseP (·.variant.source = id) = cs.filter (·.variant.source ≠ id) := by
  induction cs with
  | nil => rfl
  | cons c cs ih =>
    obtain ⟨hc, hcs⟩ := List.nodup_cons.mp hcs
    by_cases hid : c.variant.source = id
    · have hothers : ∀ x ∈ cs, x.variant.source ≠ id := fun x hx heq =>
        hc (List.mem_map.mpr ⟨x, hx, heq.trans hid.symm⟩)
      rw [List.eraseP_cons_of_pos (by simpa using hid), List.filter_cons_of_neg (by simpa using hid),
        List.filter_eq_self.mpr (by simpa using hothers)]
    · rw [List.eraseP_cons_of_neg (by simpa using hid), List.filter_cons_of_pos (by simpa using hid), ih hcs]

end ResourceIndex
