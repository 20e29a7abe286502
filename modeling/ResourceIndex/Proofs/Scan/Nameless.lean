import ResourceIndex.Proofs.Declaration.InlineIds
import ResourceIndex.Proofs.Declaration.Readers
import ResourceIndex.Proofs.Scan.Counted
import ResourceIndex.Proofs.Scan.Origin

/-!
# Resources without a name

A file name that begins with a dot names no resource, and a mark with no name behind it declares no id. An element of a
values file is not checked like that: with an empty `name` attribute it declares a resource without a name. So an index
that is filled by scans alone can hold resources without a name, but from such elements only.
-/

namespace ResourceIndex

/-- The file is an XML file of a values folder, and an element of it declares a resource of this type that has no
name. -/
def FileSystem.HoldsNameless (fs : FileSystem) (f : PendingFile) (type : ResourceType) : Prop :=
  f.folder = .values ∧ f.path.hasExtension "xml" ∧ ∃ text ds, fs.readText f.path = .ok text ∧
    Values.declarations text = .ok ds ∧ (type, "") ∈ ds.map Declaration.resource

/-- An element in the text of the file has an empty `name` attribute. -/
def FileSystem.HasEmptyName (fs : FileSystem) (p : Path) : Prop :=
  ∃ text, fs.readText p = .ok text ∧
    ∃ head ∈ Markup.headsOf (Markup.read text).events, head.value? "name".toList = some []

/-! ### Names of declarations -/

theorem InlineIds.name_ne_empty_of_mem {text : String} {ids : List Declaration} (h : declarations text = .ok ids) :
    ∀ d ∈ ids, d.name ≠ "" := by
  intro d hd hname
  obtain ⟨value, hdeclared⟩ := exists_declared?_of_mem h hd
  obtain ⟨⟨-, hne⟩, hvalue, -⟩ := declared?_eq_some_iff.mp hdeclared
  refine hne (hvalue.trans ?_)
  rw [hname, String.toList_empty, List.append_nil]

/-- Every declaration of a values file has the name that some element gives. -/
theorem Values.exists_head_of_mem {text : String} {ds : List Declaration} (h : declarations text = .ok ds)
    {d : Declaration} (hd : d ∈ ds) :
    ∃ head ∈ Markup.headsOf (Markup.read text).events, head.value? "name".toList = some d.name.toList := by
  obtain ⟨tag, htag, type, hnamed⟩ := exists_named?_of_mem h hd
  obtain ⟨name, hname, -, rfl⟩ := named?_eq_some_iff.mp hnamed
  exact ⟨tag.head, List.mem_map_of_mem htag, hname.trans (congrArg some String.toList_ofList.symm)⟩

theorem FileSystem.HoldsNameless.hasEmptyName {fs : FileSystem} {f : PendingFile} {type : ResourceType}
    (h : fs.HoldsNameless f type) : fs.HasEmptyName f.path := by
  obtain ⟨-, -, text, ds, htext, hds, hmem⟩ := h
  obtain ⟨d, hd, hresource⟩ := List.mem_map.mp hmem
  obtain ⟨head, hhead, hname⟩ := Values.exists_head_of_mem hds hd
  have hempty : d.name = "" := (Prod.mk.inj hresource).2
  rw [hempty] at hname
  exact ⟨text, htext, head, hhead, hname⟩

/-! ### One file -/

namespace Scanner

variable {s : Scanner} {fs : FileSystem} {f : PendingFile} {ds : List Declaration} {type : ResourceType}

theorem name_ne_empty_of_resourceName? {p : Path} {name : String} (h : resourceName? p = some name) : name ≠ "" := by
  rw [resourceName?] at h
  split at h
  next => contradiction
  next => contradiction
  next cs hne _ =>
    obtain rfl := Option.some.inj h
    simpa using hne

theorem name_ne_empty_of_inlineDeclarations (h : s.inlineDeclarations fs f = .ok ds) : ∀ d ∈ ds, d.name ≠ "" := by
  rw [inlineDeclarations] at h
  split at h
  next =>
    obtain ⟨text, -, h⟩ := bind_eq_ok h
    obtain rfl := Except.ok.inj h
    cases hids : InlineIds.declarations text with
    | error fault => exact List.forall_mem_nil _
    | ok ids => exact InlineIds.name_ne_empty_of_mem hids
  next =>
    obtain rfl := Except.ok.inj h
    exact List.forall_mem_nil _

theorem valuesDeclarations_eq_ok_iff {p : Path} (hxml : p.hasExtension "xml") :
    valuesDeclarations fs p = .ok ds ↔ ∃ text, fs.readText p = .ok text ∧ Values.declarations text = .ok ds := by
  rw [valuesDeclarations, if_pos hxml, readText]
  cases fs.readText p with
  | error fault => simp [bind, Except.bind]
  | ok text => cases hds : Values.declarations text <;> simp [bind, Except.bind, hds]

theorem nameless_mem_valuesDeclarations_iff (hfolder : f.folder = .values) (h : valuesDeclarations fs f.path = .ok ds) :
    (type, "") ∈ ds.map Declaration.resource ↔ fs.HoldsNameless f type := by
  by_cases hxml : f.path.hasExtension "xml"
  · obtain ⟨text, htext, hds⟩ := (valuesDeclarations_eq_ok_iff hxml).mp h
    constructor
    · exact fun hmem => ⟨hfolder, hxml, text, ds, htext, hds, hmem⟩
    · rintro ⟨-, -, other, es, hother, hes, hmem⟩
      have hsame := (valuesDeclarations_eq_ok_iff hxml).mpr ⟨other, hother, hes⟩
      obtain rfl := Except.ok.inj (h.symm.trans hsame)
      exact hmem
  · rw [valuesDeclarations, if_neg hxml] at h
    obtain rfl := Except.ok.inj h
    exact iff_of_false List.not_mem_nil fun hholds => hxml hholds.2.1

/-- The declarations without a name are those of values files; any other file has a name, and so have the ids in it. -/
theorem nameless_mem_iff (h : s.declarationsOf fs f = .ok ds) :
    (type, "") ∈ ds.map Declaration.resource ↔ fs.HoldsNameless f type := by
  rw [declarationsOf] at h
  split at h
  next hnone =>
    have hfolder : f.folder = .values := by
      cases hcases : f.folder <;> simp [FolderType.resourceType?, hcases] at hnone ⊢
    exact nameless_mem_valuesDeclarations_iff hfolder h
  next own hown =>
    have hfolder : ¬fs.HoldsNameless f type := fun hholds => by simp [hholds.1, FolderType.resourceType?] at hown
    split at h
    next => contradiction
    next name hname =>
      obtain ⟨ids, hids, h⟩ := bind_eq_ok h
      obtain rfl := Except.ok.inj h
      refine iff_of_false (fun hmem => ?_) hfolder
      obtain ⟨d, hd, hresource⟩ := List.mem_map.mp hmem
      have hempty : d.name = "" := (Prod.mk.inj hresource).2
      obtain rfl | hid := List.mem_cons.mp hd
      · exact name_ne_empty_of_resourceName? hname hempty
      · exact name_ne_empty_of_inlineDeclarations hids d hid hempty

end Scanner

/-! ### Whole indexes -/

/-- However an index is filled by scans and rescans, and whatever comes of them: every file has the declarations that
one of them reads in it, and those without a name are the ones that its elements make without a name, for which one of
them has an empty `name` attribute; an item without a name goes back to such an element as well, of a file that may be
gone. -/
theorem Repository.nameless_serve (requests : List ScanRequest) :
    let r := Repository.serve {} requests
    (∀ f ∈ r.fileList, ∃ q ∈ requests, ∃ ds, q.Reads f.pending ds ∧ f.declarations = Declaration.merged ds ∧
      ∀ type, ((type, "") ∈ f.declarations.map Declaration.resource ↔ q.fileSystem.HoldsNameless f.pending type) ∧
        ((type, "") ∈ f.declarations.map Declaration.resource → q.fileSystem.HasEmptyName f.path)) ∧
      (∀ type, (type, "") ∈ r.resources → ∃ q ∈ requests, ∃ f ∈ q.files,
        q.fileSystem.HoldsNameless f type ∧ q.fileSystem.HasEmptyName f.path) ∧
      ∀ f ∈ r.fileList, ∀ type, (type, "") ∈ f.declarations.map Declaration.resource → (type, "") ∈ r.resources := by
  intro r
  have horigin : r.ComesFrom fun f ds => ∃ q ∈ requests, q.Reads f ds := comesFrom_serve requests
  refine ⟨fun f hf => ?_, fun type hp => ?_, fun f hf type hp => ?_⟩
  · obtain ⟨ds, ⟨q, hq, hreads⟩, hmerged⟩ := horigin.exists_read hf
    refine ⟨q, hq, ds, hreads, hmerged, fun type => ?_⟩
    rw [hmerged, Declaration.mem_map_resource_merged]
    have hnameless : (type, "") ∈ ds.map Declaration.resource ↔ q.fileSystem.HoldsNameless f.pending type :=
      Scanner.nameless_mem_iff hreads.2
    exact ⟨hnameless, fun hmem => (hnameless.mp hmem).hasEmptyName⟩
  · obtain ⟨f, ds, ⟨q, hq, hmem, hread⟩, hdeclared⟩ := horigin.resources _ hp
    have hholds := (Scanner.nameless_mem_iff hread).mp hdeclared
    exact ⟨q, hq, f, hmem, hholds, hholds.hasEmptyName⟩
  · obtain ⟨live, hindexes, -⟩ := horigin.indexes
    exact hindexes.mem_resources hf hp

/-- A string whose name is empty: the scan indexes it. -/
theorem scan_nameless_string :
    let text := "<resources><string name=\"\"/></resources>"
    let fs : FileSystem := ⟨[(["values"], .directory), (["values", "a.xml"], .file text.toUTF8)], []⟩
    let s : Scanner := ⟨[], true⟩
    let m : LogMonitor := { answer := true }
    let r := Repository.serve {} [.scan s fs ⟨"."⟩ m]
    (s.scan fs {} ⟨"."⟩ m).result = .ok { files := 1, resources := 1 } ∧ (.string, "") ∈ r.resources ∧
      ∃ f ∈ r.fileList, (.string, "") ∈ f.declarations.map Declaration.resource := by
  intro text fs s m r
  have hread : Values.declarations text = .ok [⟨.string, "", false⟩] := by decide +kernel
  obtain ⟨hreadings, hresult⟩ := Scanner.scan_values_file hread
  obtain ⟨-, hrepository⟩ := Scanner.scan_of_ok hresult
  have hkept : s.kept fs (s.filesAt fs ⟨"."⟩) =
      [(⟨⟨"./values/a.xml"⟩, .values, {}⟩, [⟨.string, "", false⟩])] := by
    rw [Scanner.kept_eq_map_readings, hreadings]
    decide
  have hfiles := s.map_fileList_run_empty fs (s.filesAt fs ⟨"."⟩)
  rw [← hrepository, hkept] at hfiles
  obtain ⟨f, hf, hfile⟩ : ∃ f ∈ r.fileList, _ := List.mem_map.mp (hfiles.symm ▸ List.mem_singleton_self _)
  have hmem : (.string, "") ∈ f.declarations.map Declaration.resource := by
    rw [(Prod.mk.inj hfile).2]
    decide
  obtain ⟨live, hindexes, -⟩ := (Repository.comesFrom_serve [.scan s fs ⟨"."⟩ m]).indexes
  exact ⟨hresult, hindexes.mem_resources hf hmem, f, hf, hmem⟩

end ResourceIndex
