import ResourceIndex.Proofs.Configuration.RoundTrip
import ResourceIndex.Proofs.Repository.Ledger
import ResourceIndex.Proofs.Scan.Steady

/-!
# What a rescan adds

A rescan that ends well has forgotten every file and added others, each with what the name of its folder says. So every
variant that such an index holds has a configuration that a folder name can spell.
-/

namespace ResourceIndex

/-- Some folder name says of the file what is known of it. -/
def PendingFile.IsNamed (f : PendingFile) : Prop :=
  ∃ name folder, Folder.ofName? name = some folder ∧ f.folder = folder.type ∧ f.configuration = folder.configuration

theorem PendingFile.IsNamed.wellFormed {f : PendingFile} (h : f.IsNamed) : f.configuration.WellFormed := by
  obtain ⟨name, folder, hname, -, hconfiguration⟩ := h
  rw [hconfiguration]
  exact Folder.wellFormed_of_ofName? hname

namespace Scanner

variable {s : Scanner} {fs : FileSystem} {dir : Path}

/-! ### Listed files -/

theorem of_mem_pendingIn {folder : Folder} {files : List PendingFile} (h : s.pendingIn fs dir folder = .ok files) :
    ∀ f ∈ files, f.folder = folder.type ∧ f.configuration = folder.configuration := by
  intro f hf
  rw [pendingIn] at h
  split at h
  next => contradiction
  next l _ _ =>
    obtain rfl := Except.ok.inj h
    obtain ⟨⟨name, node⟩, -, hnode⟩ := List.mem_filterMap.mp hf
    cases node with
    | file content =>
      cases hignored : s.ignores name with
      | true => simp [hignored] at hnode
      | false =>
        obtain rfl : _ = f := by simpa [hignored] using hnode
        exact ⟨rfl, rfl⟩
    | directory => contradiction
    | link target => contradiction

theorem isNamed_of_mem_filesOf {entry : String × Node} {f : PendingFile} (hf : f ∈ s.filesOf fs dir entry) :
    f.IsNamed := by
  rw [filesOf] at hf
  split at hf
  next folder _ hname =>
    cases hpending : s.pendingIn fs (dir.join entry.1) folder with
    | error fault => simp [hpending, Except.toOption] at hf
    | ok files =>
      have hmem : f ∈ files := by simpa [hpending, Except.toOption] using hf
      exact ⟨entry.1, folder, hname, of_mem_pendingIn hpending f hmem⟩
  next => contradiction

theorem isNamed_of_mem_filesIn {entries : List (String × Node)} {f : PendingFile} (hf : f ∈ s.filesIn fs dir entries) :
    f.IsNamed := by
  obtain ⟨entry, -, hmem⟩ := List.mem_flatMap.mp hf
  exact isNamed_of_mem_filesOf hmem

theorem isNamed_of_mem_filesAt {f : PendingFile} (hf : f ∈ s.filesAt fs dir) : f.IsNamed := by
  rw [filesAt] at hf
  cases hdir : fs.directory? dir with
  | none => simp [hdir] at hf
  | some l =>
    rw [hdir, Option.elim_some] at hf
    exact isNamed_of_mem_filesIn hf

/-! ### Added files -/

theorem exists_of_mem_additions {files : List PendingFile} {op : Operation} (hop : op ∈ s.additions fs files) :
    ∃ f ∈ files, ∃ declarations, op = addition f declarations := by
  obtain ⟨f, hf, hadded⟩ := List.mem_filterMap.mp hop
  obtain ⟨declarations, -, rfl⟩ := Option.map_eq_some_iff.mp hadded
  exact ⟨f, hf, declarations, rfl⟩

end Scanner

/-! ### Configurations -/

/-- The configuration under which an operation adds a file. -/
def Operation.configuration? : Operation → Option Configuration
  | addFile _ _ configuration _ => some configuration
  | _ => none

/-- A file that is moved behind the others keeps its configuration. -/
theorem Ledger.exists_configuration_of_mem_update {l : Ledger} {id : SourceId} {declarations : List Declaration}
    {f : LiveFile} (hf : f ∈ (l.update id declarations).files) : ∃ g ∈ l.files, f.configuration = g.configuration := by
  rw [update] at hf
  cases hold : l.file? id with
  | none =>
    rw [hold] at hf
    exact ⟨f, hf, rfl⟩
  | some g =>
    rw [hold] at hf
    obtain hkept | hmoved := List.mem_append.mp hf
    · exact ⟨f, List.mem_of_mem_filter hkept, rfl⟩
    · obtain rfl := List.mem_singleton.mp hmoved
      exact ⟨g, List.mem_of_find?_eq_some hold, rfl⟩

/-- The live files have configurations that they were added with. -/
theorem Ledger.forall_configuration_follow {P : Configuration → Prop} {l : Ledger} (r : Repository)
    {ops : List Operation} (hl : ∀ f ∈ l.files, P f.configuration) (hops : ∀ op ∈ ops, ∀ c ∈ op.configuration?, P c) :
    ∀ f ∈ (l.follow r ops).files, P f.configuration := by
  induction ops generalizing l r with
  | nil => exact hl
  | cons op ops ih =>
    obtain ⟨hop, hops⟩ := List.forall_mem_cons.mp hops
    refine ih _ (fun f hf => ?_) hops
    cases op with
    | addFile path folder configuration declarations =>
      obtain hold | hnew := List.mem_append.mp hf
      · exact hl f hold
      · obtain rfl := List.mem_singleton.mp hnew
        exact hop configuration rfl
    | updateFile id declarations =>
      obtain ⟨g, hg, heq⟩ := Ledger.exists_configuration_of_mem_update hf
      exact heq ▸ hl g hg
    | removeFile id => exact hl f (List.mem_of_mem_filter hf)
    | beginRescan => contradiction
    | endRescan => exact hl f hf

end ResourceIndex
