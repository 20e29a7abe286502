import ResourceIndex.Command
import ResourceIndex.Proofs.Item.Sorted
import ResourceIndex.Proofs.Repository.Visited
import ResourceIndex.Proofs.Scan.Rescanned

/-!
# Two commands, one index

One command reports every resource that is listed, the other looks a single resource up. Both build the same index, and
in every index the listings and the lookup agree on what something provides: the second command succeeds exactly for the
resources of the first one's report, and tells of each what the report tells. The variants stand in the order of their
configurations, which can be read off their qualifiers.
-/

namespace ResourceIndex

/-- Walking over the listings visits every item with a variant, once and in ascending order, and no other one. -/
structure Repository.ListsFilled (r : Repository) : Prop where
  ascending : r.visited.Pairwise fun p q => Repository.compareListed p q = .lt
  mem_iff : ∀ type i,
    (type, i) ∈ r.visited ↔ (∃ h, r.type? h = some type ∧ r.item? h = some i) ∧ i.hasNoVariants = false
  length : r.visited.length + r.endRescan.result.empty = r.endRescan.result.items

theorem Repository.Coherent.listsFilled {r : Repository} (hr : r.Coherent) : r.ListsFilled where
  ascending := hr.visited_ascending
  mem_iff _ _ := hr.mem_visited
  length := hr.length_visited

/-- What a report on one resource tells agrees with a report on all of them, and with itself: as many variants as are
counted, in the order of the configurations that they are qualified with, and an unqualified one first if there is
any. -/
structure VariantsReport.AgreesWith (v : VariantsReport) (report : ScanReport) : Prop where
  mem : v.resource ∈ report.resources
  unique : ∀ e ∈ report.resources, e.type = v.resource.type → e.name = v.resource.name → v.resource = e
  length : v.variants.length = v.resource.variants
  ascending : ∃ configurations : List Configuration,
    v.variants.map (fun w => Configuration.ofText? w.qualifiers) = configurations.map some ∧
      configurations.Pairwise fun c d => (compare c d).isLE
  alternates : v.variants.countP (!·.isDefault) = v.resource.alternates
  head : v.variants.head?.map (·.isDefault) = some v.resource.hasDefault

/-! ### Reports on an index -/

section Reports

variable {r : Repository} {summary : ScanSummary}

theorem ScanReport.resources_ofRepository (summary : ScanSummary) (r : Repository) :
    (ofRepository summary r).resources = r.visited.map fun p => .ofItem p.1 p.2 := by
  simp only [ofRepository, Repository.visited, List.map_flatMap, List.map_map]
  rfl

/-- An item that the lookup finds, if something provides it, is reported under its type and name. -/
theorem Repository.Coherent.mem_resources_ofRepository (hr : r.Coherent) {type : ResourceType} {name : String}
    {i : Item} (hi : r.find? type name = some i) (hfilled : i.hasNoVariants = false) :
    .ofItem type i ∈ (ScanReport.ofRepository summary r).resources := by
  obtain ⟨h, hh, hitem⟩ := Option.bind_eq_some_iff.mp hi
  have htype := (resources_getElem?_eq_some_iff.mp ((hr _ _ _).mp hh)).1
  rw [ScanReport.resources_ofRepository]
  exact List.mem_map.mpr ⟨(type, i), hr.mem_visited.mpr ⟨⟨h, htype, hitem⟩, hfilled⟩, rfl⟩

/-- A reported resource is found by the lookup. -/
theorem Repository.Coherent.find?_of_mem_resources (hr : r.Coherent) {e : ResourceReport}
    (he : e ∈ (ScanReport.ofRepository summary r).resources) :
    ∃ i, r.find? e.type e.name = some i ∧ i.hasNoVariants = false ∧ e = .ofItem e.type i := by
  rw [ScanReport.resources_ofRepository] at he
  obtain ⟨⟨type, i⟩, hmem, rfl⟩ := List.mem_map.mp he
  obtain ⟨hprovided, hne⟩ := hr.mem_visited_iff.mp hmem
  exact ⟨i, (hr.find?_eq_some_iff hne).mpr hprovided, (hr.mem_visited.mp hmem).2, rfl⟩

end Reports

/-! ### The order of variants -/

/-- Every variant of the index has a configuration that a folder name can spell. -/
def Repository.Spells (r : Repository) : Prop :=
  ∀ type name i, r.find? type name = some i → ∀ v ∈ i.variants, v.configuration.WellFormed

theorem VariantReport.ofText?_qualifiers {v : Variant} (h : v.configuration.WellFormed) :
    Configuration.ofText? (VariantReport.ofVariant v).qualifiers = some v.configuration :=
  h.ofText?_toText

theorem VariantsReport.agreesWith {r : Repository} (hr : r.Coherent) (hspells : r.Spells) {type : ResourceType}
    {name : String} {i : Item} (hi : r.find? type name = some i) (hfilled : i.hasNoVariants = false)
    (summary : ScanSummary) : (ofItem type i).AgreesWith (.ofRepository summary r) where
  mem := hr.mem_resources_ofRepository hi hfilled
  unique e he htype hname := by
    obtain ⟨j, hj, -, heq⟩ := hr.find?_of_mem_resources he
    have htype' : e.type = type := htype
    have hname' : e.name = i.name := hname
    rw [htype', hname', hr.name_of_find? hi, hi] at hj
    rw [heq, htype', ← Option.some.inj hj]
    rfl
  length := by
    rw [ofItem, List.length_map, i.sortedVariants_perm.length_eq]
    rfl
  ascending := by
    refine ⟨i.sortedVariants.map (·.configuration), ?_, List.pairwise_map.mpr i.sortedVariants_ascending⟩
    rw [ofItem, List.map_map, List.map_map]
    refine List.map_congr_left fun v hv => ?_
    exact VariantReport.ofText?_qualifiers (hspells type name i hi v (i.sortedVariants_perm.mem_iff.mp hv))
  alternates := by
    rw [ofItem, List.countP_map]
    exact i.countP_sortedVariants
  head := by
    rw [ofItem, List.head?_map]
    cases hhead : i.sortedVariants.head? with
    | none =>
      have hnone := i.sortedVariants_perm
      rw [List.head?_eq_none_iff.mp hhead, List.nil_perm] at hnone
      rw [Item.hasNoVariants, hnone] at hfilled
      contradiction
    | some v => exact congrArg some (Item.isDefault_head? hhead)

/-! ### The index of a command -/

namespace Command

variable {μ : Type} [Monitor μ] {s : Settings} {fs : FileSystem} {dirs : List Path} {m : μ} {r : Repository}
  {summary : ScanSummary}

/-- A command builds its index by a rescan of an empty one. -/
theorem build_eq_ok_iff : (build s fs dirs m).1 = .ok (r, summary) ↔
    ∃ scanner done, Scanner.ofSettings s = .ok scanner ∧ (scanner.rescan fs {} dirs m).result = .ok done ∧
      done.1 = summary ∧ (scanner.rescan fs {} dirs m).repository = r := by
  rw [build]
  cases Scanner.ofSettings s with
  | error fault => simp
  | ok scanner =>
    cases hdone : (scanner.rescan fs {} dirs m).result with
    | error fault => simp [hdone]
    | ok done =>
      obtain ⟨scanned, reset⟩ := done
      simp [hdone, and_comm]

/-- An index that a command has built comes from adding files of named folders. -/
theorem exists_files_build (h : (build s fs dirs m).1 = .ok (r, summary)) :
    ∃ (scanner : Scanner) (files : List PendingFile), (∀ f ∈ files, f.IsNamed) ∧
      r = Repository.run {} (.beginRescan :: scanner.additions fs files) := by
  obtain ⟨scanner, done, -, hdone, -, rfl⟩ := build_eq_ok_iff.mp h
  refine ⟨scanner, dirs.flatMap (scanner.filesAt fs), fun f hf => ?_, (Scanner.rescan_of_ok hdone).2⟩
  obtain ⟨dir, -, hmem⟩ := List.mem_flatMap.mp hf
  exact Scanner.isNamed_of_mem_filesAt hmem

theorem coherent_build (h : (build s fs dirs m).1 = .ok (r, summary)) : r.Coherent := by
  obtain ⟨scanner, files, -, rfl⟩ := exists_files_build h
  exact Repository.coherent_run _

theorem spells_build (h : (build s fs dirs m).1 = .ok (r, summary)) : r.Spells := by
  obtain ⟨scanner, files, hnamed, rfl⟩ := exists_files_build h
  intro type name i hi v hv
  have hadded : ∀ op ∈ .beginRescan :: scanner.additions fs files, ∀ c ∈ op.configuration?, c.WellFormed := by
    intro op hop c hc
    obtain rfl | hadded := List.mem_cons.mp hop
    · contradiction
    · obtain ⟨f, hf, declarations, rfl⟩ := Scanner.exists_of_mem_additions hadded
      obtain rfl := Option.mem_some_iff.mp hc
      exact (hnamed f hf).wellFormed
  have hfiles : ∀ f ∈ (Ledger.follow {} {} (.beginRescan :: scanner.additions fs files)).files,
      f.configuration.WellFormed :=
    Ledger.forall_configuration_follow {} (List.forall_mem_nil _) hadded
  have hdescribes := (Repository.keeps_empty.run (.beginRescan :: scanner.additions fs files)).indexes.describes
  obtain ⟨-, hvariants, -⟩ := hdescribes.item type name i hi
  rw [hvariants] at hv
  obtain ⟨f, hf, rfl⟩ := List.mem_map.mp hv
  exact hfiles f (List.mem_of_mem_filter hf)

/-! ### The commands -/

/-- What is reported on everything is what an index holds. -/
theorem scan_eq_ok_iff {report : ScanReport} : (scan s fs dirs m).1 = .ok report ↔
    ∃ r summary, (build s fs dirs m).1 = .ok (r, summary) ∧ report = .ofRepository summary r := by
  have hscan : (scan s fs dirs m).1 = (build s fs dirs m).1.map fun built => .ofRepository built.2 built.1 := rfl
  rw [hscan]
  cases (build s fs dirs m).1 with
  | error fault => simp [Except.map]
  | ok built =>
    obtain ⟨r, summary⟩ := built
    constructor
    · intro h
      exact ⟨r, summary, rfl, (Except.ok.inj h).symm⟩
    · rintro ⟨_, _, h, rfl⟩
      obtain ⟨rfl, rfl⟩ := Prod.mk.inj (Except.ok.inj h)
      rfl

/-- What is reported on one resource is what the lookup finds in the index, if something provides it. -/
theorem variants_eq_ok_iff (hbuild : (build s fs dirs m).1 = .ok (r, summary)) {typeName name : String}
    {type : ResourceType} (htype : ResourceType.ofName? typeName = some type) {v : VariantsReport} :
    (variants s fs typeName name dirs m).1 = .ok v ↔
      ∃ i, r.find? type name = some i ∧ i.hasNoVariants = false ∧ v = .ofItem type i := by
  rw [variants, htype]
  dsimp only
  rw [hbuild]
  cases hi : r.find? type name with
  | none => simp [Except.bind, hi]
  | some i =>
    cases hfilled : i.hasNoVariants with
    | true => simp [Except.bind, hi, hfilled]
    | false =>
      have hreport : (VariantsReport.ofItem type i = v) ↔ v = .ofItem type i := eq_comm
      simpa [Except.bind, hi, hfilled] using hreport

/-- The index is walked over as one expects, and whenever everything can be reported, one resource can be reported
exactly if it is in the report on everything, with the same entry. -/
theorem reports_agree (ops : List Operation) {report : ScanReport} (hscan : (scan s fs dirs m).1 = .ok report)
    {typeName : String} {type : ResourceType} (htype : ResourceType.ofName? typeName = some type) (name : String) :
    (Repository.run {} ops).ListsFilled ∧
      ((∃ v, (variants s fs typeName name dirs m).1 = .ok v) ↔ ∃ e ∈ report.resources, e.type = type ∧ e.name = name) ∧
      ∀ v, (variants s fs typeName name dirs m).1 = .ok v →
        v.resource.type = type ∧ v.resource.name = name ∧ v.AgreesWith report := by
  obtain ⟨r, summary, hbuild, rfl⟩ := scan_eq_ok_iff.mp hscan
  have hr := coherent_build hbuild
  refine ⟨(Repository.coherent_run ops).listsFilled, ⟨?_, ?_⟩, ?_⟩
  · rintro ⟨v, hv⟩
    obtain ⟨i, hi, hfilled, rfl⟩ := (variants_eq_ok_iff hbuild htype).mp hv
    exact ⟨_, hr.mem_resources_ofRepository hi hfilled, rfl, hr.name_of_find? hi⟩
  · rintro ⟨e, he, rfl, rfl⟩
    obtain ⟨i, hi, hfilled, -⟩ := hr.find?_of_mem_resources he
    exact ⟨_, (variants_eq_ok_iff hbuild htype).mpr ⟨i, hi, hfilled, rfl⟩⟩
  · intro v hv
    obtain ⟨i, hi, hfilled, rfl⟩ := (variants_eq_ok_iff hbuild htype).mp hv
    exact ⟨rfl, hr.name_of_find? hi, VariantsReport.agreesWith hr (spells_build hbuild) hi hfilled summary⟩

/-- A picture with a variant for wide screens. -/
theorem reports_agree_landscape :
    let fs : FileSystem :=
      ⟨[(["drawable"], .directory), (["drawable-land"], .directory), (["drawable", "icon.png"], .file .empty),
        (["drawable-land", "icon.png"], .file .empty)], []⟩
    let s : Settings := { ignorePatterns := [] }
    let m : LogMonitor := { answer := true }
    let report : ScanReport := ⟨{ files := 2, resources := 2 }, [⟨.drawable, "icon", 2, 1, true, false, false⟩]⟩
    (scan s fs [⟨"."⟩] m).1 = .ok report ∧ ResourceType.ofName? "drawable" = some .drawable ∧
      ∃ v, (variants s fs "drawable" "icon" [⟨"."⟩] m).1 = .ok v ∧ v.AgreesWith report := by
  intro fs s m report
  have hdir : fs.directory? ⟨"."⟩ = some [] := FileSystem.directory?_dot rfl
  have hscan : (scan s fs [⟨"."⟩] m).1 = .ok report := by
    have hscanner : Scanner.ofSettings s = .ok ⟨[], true⟩ := by rfl
    have hentries : fs.entries [] = [("drawable", .directory), ("drawable-land", .directory)] :=
      FileSystem.entries_eq_of_ascending rfl (by decide)
    have hplain : fs.entries ["drawable"] = [("icon.png", .file .empty)] :=
      FileSystem.entries_eq_of_ascending rfl (by decide)
    have hland : fs.entries ["drawable-land"] = [("icon.png", .file .empty)] :=
      FileSystem.entries_eq_of_ascending rfl (by decide)
    have hfind (name : String) (hname : FileSystem.IsEntryName name) (hnode : fs.node? [name] = some .directory)
        (hbytes : name.utf8ByteSize ≤ FileSystem.nameLimit)
        (hpath : FileSystem.checkPath ((⟨"."⟩ : Path).join name) = .ok ()) :
        fs.find ((⟨"."⟩ : Path).join name) = .ok ([name], .directory) :=
      FileSystem.find_join_eq_ok hdir hname hnode (by simp) hbytes hpath
    have hfindPlain := hfind "drawable" (by decide) rfl (by decide) (by decide)
    have hfindLand := hfind "drawable-land" (by decide) rfl (by decide) (by decide)
    have hcollected (m : LogMonitor) : Scanner.collectFrom ⟨[], true⟩ fs ⟨"."⟩ m (fs.entries []) =
        (.ok ([⟨⟨"./drawable/icon.png"⟩, .drawable, {}⟩,
          ⟨⟨"./drawable-land/icon.png"⟩, .drawable, { orientation := some .landscape }⟩], []), m) := by
      have hofPlain : Folder.ofName? "drawable" = some ⟨.drawable, {}⟩ := by decide
      have hofLand : Folder.ofName? "drawable-land" = some ⟨.drawable, { orientation := some .landscape }⟩ := by decide
      rw [hentries]
      simp [Scanner.collectFrom, Node.isDirectory, Scanner.ignores, hofPlain, hofLand, Scanner.pendingIn, hfindPlain,
        hfindLand, hplain, hland, Except.map]
      exact ⟨by rfl, by rfl⟩
    simp [scan, build, hscanner, Scanner.rescan, Scanner.scanAll, Scanner.scan, hdir, hcollected]
    rfl
  have htype : ResourceType.ofName? "drawable" = some .drawable := by decide
  obtain ⟨-, hfound, hagree⟩ := reports_agree [] hscan htype "icon"
  obtain ⟨v, hv⟩ := hfound.mpr ⟨_, List.mem_singleton_self _, rfl, rfl⟩
  exact ⟨hscan, htype, v, hv, (hagree v hv).2.2⟩

end Command

end ResourceIndex
