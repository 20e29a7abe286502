import ResourceIndex.Proofs.Declaration.Alike
import ResourceIndex.Proofs.Repository.Ledger

/-!
# Declarations in any order

An index reads the declarations of a file merged. So files with lists that declare the same are added and updated in
the same way: with the same repository behind it, the same result and the same events, today and in every sequence of
operations.
-/

namespace ResourceIndex

/-- The operations differ at most in lists of declarations, and these declare the same. -/
inductive Operation.Alike : Operation → Operation → Prop where
  | addFile (path : Path) (folder : FolderType) (configuration : Configuration) {ds es : List Declaration}
      (h : Declaration.Alike ds es) :
      Alike (.addFile path folder configuration ds) (.addFile path folder configuration es)
  | updateFile (id : SourceId) {ds es : List Declaration} (h : Declaration.Alike ds es) :
      Alike (.updateFile id ds) (.updateFile id es)
  | same (op : Operation) : Alike op op

namespace Repository

open Declaration (Alike IsMergeOf)

variable {ds es : List Declaration}

theorem addFile_eq_of_alike (r : Repository) (path : Path) (folder : FolderType) (configuration : Configuration)
    (h : Alike ds es) : r.addFile path folder configuration es = r.addFile path folder configuration ds := by
  simp only [addFile, h.merged_eq]

theorem updateFile_eq_of_alike (r : Repository) (id : SourceId) (h : Alike ds es) :
    r.updateFile id es = r.updateFile id ds := by
  simp only [updateFile, h.merged_eq]

theorem apply_eq_of_alike (r : Repository) {op other : Operation} (h : op.Alike other) :
    r.apply other = r.apply op := by
  cases h with
  | addFile path folder configuration h => simp only [apply, r.addFile_eq_of_alike path folder configuration h]
  | updateFile id h => simp only [apply, r.updateFile_eq_of_alike id h]
  | same => rfl

/-- Sequences of operations whose lists declare the same lead to one repository through the same events. -/
theorem run_eq_of_alike (r : Repository) {ops others : List Operation} (h : ops.Forall₂ Operation.Alike others) :
    r.run others = r.run ops ∧ r.announced others = r.announced ops := by
  induction h generalizing r with
  | nil => exact ⟨rfl, rfl⟩
  | @cons op other ops others hop _ ih =>
    obtain ⟨hrun, hannounced⟩ := ih (r.apply op).repository
    rw [run_cons, run_cons, announced, announced, r.apply_eq_of_alike hop]
    exact ⟨hrun, by rw [hannounced]⟩

/-- In every repository that can be reached, what a file keeps of declarations is their merge, and nothing that an
addition or an update does depends on the order of the declarations or on how often each stands among them: lists that
declare the same have the same result, the same repository and the same events. -/
theorem declarations_unordered (past : List Operation) (ds : List Declaration) :
    let r := run {} past
    (∀ path folder configuration,
      let added := r.addFile path folder configuration ds
      (∃ kept, added.repository.file? added.result = some ⟨added.result, path, folder, configuration, kept⟩ ∧
        IsMergeOf kept ds) ∧
      ∀ es, Alike ds es → r.addFile path folder configuration es = added) ∧
    ∀ id,
      let updated := r.updateFile id ds
      updated.result = (r.file? id).isSome ∧
      (∀ old, r.file? id = some old →
        ∃ kept, updated.repository.file? id = some { old with declarations := kept } ∧ IsMergeOf kept ds) ∧
      ∀ es, Alike ds es → r.updateFile id es = updated := by
  intro r
  have h := (keeps_empty.run past).indexes
  refine ⟨fun path folder configuration => ⟨⟨_, ?_, Declaration.merged_isMergeOf ds⟩, fun es =>
    r.addFile_eq_of_alike path folder configuration⟩, fun id => ⟨?_, fun old hold => ?_, fun es =>
    r.updateFile_eq_of_alike id⟩⟩
  · exact (h.addFile path folder configuration ds).file?_eq_some (List.mem_append_right _ List.mem_cons_self)
  · cases hfile : r.file? id with
    | none => rw [updateFile_of_file?_eq_none hfile, Option.isSome_none]
    | some old => rw [updateFile_of_file?_eq_some hfile, Option.isSome_some]
  · obtain ⟨f, -, hf, rfl, rfl⟩ := h.find?_id_of_file?_eq_some hold
    refine ⟨_, ?_, Declaration.merged_isMergeOf ds⟩
    exact (h.updateFile hf ds).file?_eq_some (List.mem_append_right _ List.mem_cons_self)

/-- A layout mentions `ok` inline and then as a resource of its own. It may mention both again, in any order. -/
theorem declarations_unordered_ok :
    let past : List Operation := [.addFile ⟨"values/ids.xml"⟩ .values {} [⟨.id, "ok", true⟩]]
    let ds : List Declaration := [⟨.id, "ok", true⟩, ⟨.string, "title", false⟩, ⟨.id, "ok", false⟩]
    let es : List Declaration := [⟨.id, "ok", false⟩, ⟨.id, "ok", true⟩, ⟨.id, "ok", true⟩, ⟨.string, "title", false⟩]
    let r := run {} past
    Alike ds es ∧ r.updateFile ⟨0⟩ es = r.updateFile ⟨0⟩ ds ∧
      ∃ old kept, r.file? ⟨0⟩ = some old ∧
        (r.updateFile ⟨0⟩ ds).repository.file? ⟨0⟩ = some { old with declarations := kept } ∧ IsMergeOf kept ds := by
  intro past ds es r
  have hfile : r.file? ⟨0⟩ = some ⟨⟨0⟩, ⟨"values/ids.xml"⟩, .values, {}, [⟨.id, "ok", true⟩]⟩ := by decide
  have halike : Alike ds es := by
    constructor
    · simp [ds, es, Declaration.resource, or_comm]
    · simp [ds, es, Declaration.resource, Declaration.OnlyInline]
  obtain ⟨-, hkept, hsame⟩ := (declarations_unordered past ds).2 ⟨0⟩
  obtain ⟨kept, hkept, hmerge⟩ := hkept _ hfile
  exact ⟨halike, hsame es halike, _, kept, hfile, hkept, hmerge⟩

end Repository

end ResourceIndex
