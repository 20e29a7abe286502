import ResourceIndex.Proofs.Repository.Announcement
import ResourceIndex.Proofs.Scan.Complete

/-!
# Scans that fail

What a scan leaves behind when it fails is settled by its fault, and the fault by the tree and the monitor's answers. If
the monitor stops the scan, the files before the question that was answered with yes are indexed, and no other one.
After any other fault the index is as it was, because nothing is indexed before everything is listed. A rescan fails
with the first scan that does, and keeps what the ones before have indexed.
-/

namespace ResourceIndex.Scanner

variable {s : Scanner} {fs : FileSystem} {r repository : Repository} {dir : Path} {events : List Event}
  {calls : List Call} {fault : IndexFault}

/-! ### Calls of a scan -/

section Listing

variable {entries : List (String × Node)} {found : Except IndexFault (List PendingFile × List String)}
  {listing : List Call}

theorem Collected.exists_question (h : Collected s fs dir entries found listing) :
    ∀ c ∈ listing, ∃ name answer, c = question name answer := by
  have hyes (names : List String) : ∀ c ∈ names.map (question · true), ∃ name answer, c = question name answer := by
    intro c hc
    obtain ⟨name, -, rfl⟩ := List.mem_map.mp hc
    exact ⟨name, true, rfl⟩
  cases h with
  | done hlistable => exact hyes _
  | @refused before after name hnames =>
    intro c hc
    obtain hc | hc := List.mem_append.mp hc
    · exact hyes before c hc
    · exact ⟨name, false, List.mem_singleton.mp hc⟩
  | unlisted hentry hnames => exact hyes _

theorem Collected.not_mem (h : Collected s fs dir entries found listing) {c : Call} (hc : c.confirmation? = none) :
    c ∉ listing := by
  intro hmem
  obtain ⟨name, answer, rfl⟩ := h.exists_question c hmem
  exact absurd hc (by simp [question, Call.confirmation?])

/-- A listing is not about whether the work should stop. -/
theorem Collected.filterMap_stop? (h : Collected s fs dir entries found listing) :
    listing.filterMap Call.stop? = [] := by
  rw [List.filterMap_eq_nil_iff]
  intro c hc
  obtain ⟨name, answer, rfl⟩ := h.exists_question c hc
  rfl

/-- A listing goes on as long as every question is answered with yes. -/
theorem Collected.refused_iff (h : Collected s fs dir entries found listing) :
    (∃ name, found = .error (.invalidFolder name)) ↔ ∃ title message, .confirmed title message false ∈ listing := by
  have hyes (names : List String) (title message : String) :
      .confirmed title message false ∉ names.map (question · true) := by
    intro hmem
    obtain ⟨name, -, heq⟩ := List.mem_map.mp hmem
    cases heq
  cases h with
  | done hlistable => simp [hyes]
  | @refused before after name hnames =>
    exact iff_of_true ⟨name, rfl⟩ ⟨_, _, List.mem_append_right _ List.mem_cons_self⟩
  | unlisted hentry hnames => simp [hyes]

theorem Collected.eq_of_ok {all : List PendingFile × List String}
    (h : Collected s fs dir entries (.ok all) listing) :
    all = (s.filesIn fs dir entries, s.unnamedIn entries) ∧ ∀ entry ∈ entries, s.Listable fs dir entry := by
  cases h with
  | done hlistable => exact ⟨rfl, hlistable⟩

end Listing

theorem filterMap_stop?_indexCalls (count : Nat) (files : List PendingFile) :
    (indexCalls count files).filterMap Call.stop? = List.replicate files.length false := by
  induction files generalizing count with
  | nil => rfl
  | cons f files ih => simp [indexCalls, List.filterMap_cons, Call.stop?, ih, List.replicate_succ]

theorem not_mem_indexCalls {c : Call} (hasked : c ≠ .cancelled false) (hdescribed : ∀ text, c ≠ .described text)
    (hadvanced : ∀ value, c ≠ .advanced value) (count : Nat) (files : List PendingFile) :
    c ∉ indexCalls count files := by
  induction files generalizing count with
  | nil => exact List.not_mem_nil
  | cons f files ih => simp [indexCalls, hasked, hdescribed, hadvanced, ih]

/-! ### Ends of a scan -/

section Ends

variable {result : Except IndexFault ScanSummary}

theorem Ends.missing_iff (h : s.Ends fs r dir result repository events calls) :
    (∃ what, result = .error (.notFound what)) ↔ fs.directory? dir = none := by
  cases h with
  | missing hdir => exact iff_of_true ⟨_, rfl⟩ hdir
  | unlisted hdir hlisted => cases hlisted <;> simp [hdir]
  | stopped hdir hlisted => simp [hdir]
  | done hdir hlisted hsummary => simp [hdir]

/-- A folder is named as wrong exactly if a question was answered with no. -/
theorem Ends.refused_iff (h : s.Ends fs r dir result repository events calls) :
    (∃ name, result = .error (.invalidFolder name)) ↔ ∃ title message, .confirmed title message false ∈ calls := by
  cases h with
  | missing hdir => simp
  | unlisted hdir hlisted => simpa using hlisted.refused_iff
  | stopped hdir hlisted => simpa [not_mem_indexCalls] using hlisted.refused_iff
  | done hdir hlisted hsummary => simpa [not_mem_indexCalls] using hlisted.refused_iff

/-- The work is stopped exactly if the monitor has said so. -/
theorem Ends.stopped_iff (h : s.Ends fs r dir result repository events calls) :
    result = .error .cancelled ↔ .cancelled true ∈ calls := by
  cases h with
  | missing hdir => simp
  | @unlisted _ _ listing hdir hlisted =>
    have hnot : .cancelled true ∉ listing := hlisted.not_mem rfl
    cases hlisted <;> simpa using hnot
  | stopped hdir hlisted => simp
  | @done _ _ _ listing _ hdir hlisted hsummary =>
    have hnot : .cancelled true ∉ listing := hlisted.not_mem rfl
    simp [hnot, not_mem_indexCalls]

/-- The end of the work is told exactly if it is reached. -/
theorem Ends.concluded_iff (h : s.Ends fs r dir result repository events calls) :
    (∃ text, .concluded text ∈ calls) ↔ ∃ summary, result = .ok summary := by
  cases h with
  | missing hdir => simp
  | @unlisted _ _ listing hdir hlisted =>
    have hnot (text : String) : .concluded text ∉ listing := hlisted.not_mem rfl
    simp [hnot]
  | @stopped _ _ _ _ _ listing hdir hlisted =>
    have hnot (text : String) : .concluded text ∉ listing := hlisted.not_mem rfl
    simp [hnot, not_mem_indexCalls]
  | @done _ _ _ _ summary hdir hlisted hsummary => exact iff_of_true ⟨summary.resultText, by simp⟩ ⟨summary, rfl⟩

/-- A fault other than the stop comes before anything is indexed. -/
theorem Ends.unchanged (h : s.Ends fs r dir (.error fault) repository events calls) (hfault : fault ≠ .cancelled) :
    repository = r ∧ events = [] := by
  cases h with
  | missing hdir => exact ⟨rfl, rfl⟩
  | unlisted hdir hlisted => exact ⟨rfl, rfl⟩
  | stopped hdir hlisted => exact absurd rfl hfault

/-- The folder that is named is the first one that was refused. -/
theorem Ends.exists_refused (hfs : fs.WellFormed) {name : String}
    (h : s.Ends fs r dir (.error (.invalidFolder name)) repository events calls) :
    ∃ l before after, fs.directory? dir = some l ∧ s.Unnamed fs l (before ++ name :: after) ∧
      calls.filter (·.confirmation?.isSome) = before.map (question · true) ++ [question name false] := by
  cases h with
  | @unlisted l _ listing hdir hlisted =>
    have hall : listing.filter (·.confirmation?.isSome) = listing := by
      rw [List.filter_eq_self]
      intro c hc
      obtain ⟨name, answer, rfl⟩ := hlisted.exists_question c hc
      rfl
    cases hlisted with
    | @refused before after _ hnames =>
      have hunnamed := unnamed_unnamedIn hfs s l
      rw [hnames] at hunnamed
      exact ⟨l, before, after, hdir, hunnamed, hall⟩

/-- The files before the stop are indexed, and no other one. -/
theorem Ends.exists_stopped (hfs : fs.WellFormed) (h : s.Ends fs r dir (.error .cancelled) repository events calls) :
    ∃ files k, s.EligibleIn fs dir files ∧ k < files.length ∧
      calls.filterMap Call.stop? = List.replicate k false ++ [true] ∧
      repository = r.run (s.additions fs (files.take k)) ∧
      events = r.announced (s.additions fs (files.take k)) := by
  cases h with
  | unlisted hdir hlisted => cases hlisted
  | @stopped l before after f skipped listing hdir hlisted =>
    obtain ⟨hfound, hlistable⟩ := hlisted.eq_of_ok
    obtain ⟨hfiles, -⟩ := Prod.mk.inj hfound
    have heligible := eligibleIn_filesIn hfs hdir hlistable
    rw [← hfiles] at heligible
    refine ⟨_, before.length, heligible, by simp, ?_, ?_⟩
    · simp [List.filterMap_cons, hlisted.filterMap_stop?, filterMap_stop?_indexCalls, Call.stop?]
    · rw [List.take_left, indexAll_eq]
      exact ⟨rfl, List.nil_append _⟩

end Ends

/-- What is known behind a scan of a directory with this result, whatever it is: which answers have led to it, and what
it leaves behind. -/
structure Accounted (s : Scanner) (fs : FileSystem) (r : Repository) (dir : Path)
    (result : Except IndexFault ScanSummary) (repository : Repository) (events : List Event) (calls : List Call) :
    Prop where
  missing_iff : (∃ what, result = .error (.notFound what)) ↔ fs.directory? dir = none
  refused_iff : (∃ name, result = .error (.invalidFolder name)) ↔
    ∃ title message, .confirmed title message false ∈ calls
  stopped_iff : result = .error .cancelled ↔ .cancelled true ∈ calls
  concluded_iff : (∃ text, .concluded text ∈ calls) ↔ ∃ summary, result = .ok summary
  unchanged : ∀ fault, result = .error fault → fault ≠ .cancelled → repository = r ∧ events = []
  refused : ∀ name, result = .error (.invalidFolder name) →
    ∃ l before after, fs.directory? dir = some l ∧ s.Unnamed fs l (before ++ name :: after) ∧
      calls.filter (·.confirmation?.isSome) = before.map (question · true) ++ [question name false]
  stopped : result = .error .cancelled →
    ∃ files k, s.EligibleIn fs dir files ∧ k < files.length ∧
      calls.filterMap Call.stop? = List.replicate k false ++ [true] ∧
      repository = r.run (s.additions fs (files.take k)) ∧
      events = r.announced (s.additions fs (files.take k))

theorem Ends.accounted (hfs : fs.WellFormed) {result : Except IndexFault ScanSummary}
    (h : s.Ends fs r dir result repository events calls) : s.Accounted fs r dir result repository events calls where
  missing_iff := h.missing_iff
  refused_iff := h.refused_iff
  stopped_iff := h.stopped_iff
  concluded_iff := h.concluded_iff
  unchanged := by
    rintro fault rfl
    exact h.unchanged
  refused := by
    rintro name rfl
    exact h.exists_refused hfs
  stopped := by
    rintro rfl
    exact h.exists_stopped hfs

/-! ### Events of a scan -/

theorem mem_announced_additions {e : Event} {files : List PendingFile} (h : e ∈ r.announced (s.additions fs files)) :
    (∃ type name, e = .itemCreated type name) ∨ ∃ f ∈ files, ∃ resources, e = .fileAdded f.path resources := by
  induction files generalizing r with
  | nil => exact absurd h List.not_mem_nil
  | cons f files ih =>
    cases hdeclarations : s.declarationsOf fs f with
    | error fault =>
      rw [additions_cons_of_error hdeclarations] at h
      obtain hitem | ⟨g, hg, hadded⟩ := ih h
      · exact .inl hitem
      · exact .inr ⟨g, List.mem_cons_of_mem _ hg, hadded⟩
    | ok declarations =>
      rw [additions_cons_of_ok hdeclarations, Repository.announced, List.mem_append] at h
      obtain h | h := h
      · obtain hitem | hadded := Repository.mem_events_addFile h
        · exact .inl hitem
        · exact .inr ⟨f, List.mem_cons_self, hadded⟩
      · obtain hitem | ⟨g, hg, hadded⟩ := ih h
        · exact .inl hitem
        · exact .inr ⟨g, List.mem_cons_of_mem _ hg, hadded⟩

theorem rescanFinished_not_mem_announced (s : Scanner) (fs : FileSystem) (r : Repository) (files : List PendingFile)
    (items empty : Nat) : .rescanFinished items empty ∉ r.announced (s.additions fs files) := by
  intro h
  obtain ⟨type, name, heq⟩ | ⟨f, -, resources, heq⟩ := mem_announced_additions h <;> cases heq

theorem Ends.rescanFinished_not_mem {result : Except IndexFault ScanSummary}
    (h : s.Ends fs r dir result repository events calls) (items empty : Nat) :
    .rescanFinished items empty ∉ events := by
  have hindexed (files : List PendingFile) :
      .rescanFinished items empty ∉ (s.indexAll fs { repository := r } files).events := by
    rw [indexAll_eq]
    exact s.rescanFinished_not_mem_announced fs r files items empty
  cases h with
  | missing hdir => exact List.not_mem_nil
  | unlisted hdir hlisted => exact List.not_mem_nil
  | stopped hdir hlisted => exact hindexed _
  | done hdir hlisted hsummary => exact hindexed _

/-! ### Several scans -/

section Rescan

variable {μ : Type} [Monitor μ] {m : μ} {dirs : List Path} {summary : ScanSummary}

theorem scanAll_cons_of_error (h : (s.scan fs r dir m).result = .error fault) :
    s.scanAll fs r m (dir :: dirs) =
      ⟨.error fault, (s.scan fs r dir m).repository, (s.scan fs r dir m).events, (s.scan fs r dir m).monitor⟩ := by
  simp only [scanAll, h]

theorem scanAll_cons_of_ok (h : (s.scan fs r dir m).result = .ok summary) :
    s.scanAll fs r m (dir :: dirs) =
      let others := s.scanAll fs (s.scan fs r dir m).repository (s.scan fs r dir m).monitor dirs
      { others with
        result := others.result.map summary.add
        events := (s.scan fs r dir m).events ++ others.events } := by
  simp only [scanAll, h]

/-- Of the directories, those before one were gone over completely, with these files in them, and then the scan of that
one failed. -/
structure FailsAt (s : Scanner) (fs : FileSystem) (r : Repository) (m : μ) (before : List Path) (d : Path)
    (indexed : List (List PendingFile)) (fault : IndexFault) (repository : Repository) (events : List Event) :
    Prop where
  eligible : List.Forall₂ (s.EligibleIn fs) before indexed
  completed : ∃ summary, (s.scanAll fs r m before).result = .ok summary
  failed :
    let ops := s.additions fs indexed.flatten
    let failing := s.scan fs (r.run ops) d (s.scanAll fs r m before).monitor
    failing.result = .error fault ∧ repository = failing.repository ∧ events = r.announced ops ++ failing.events

/-- One more directory was gone over completely before. -/
theorem FailsAt.cons {before : List Path} {d : Path} {indexed : List (List PendingFile)} {files : List PendingFile}
    (hscan : (s.scan fs r dir m).result = .ok summary)
    (hcompleted : s.Completed fs r dir files summary (s.scan fs r dir m).repository (s.scan fs r dir m).events)
    (h : s.FailsAt fs (s.scan fs r dir m).repository (s.scan fs r dir m).monitor before d indexed fault repository
      events) :
    s.FailsAt fs r m (dir :: before) d (files :: indexed) fault repository ((s.scan fs r dir m).events ++ events) where
  eligible := .cons hcompleted.eligible h.eligible
  completed := by
    obtain ⟨total, htotal⟩ := h.completed
    rw [scanAll_cons_of_ok hscan]
    exact ⟨summary.add total, by simp only [htotal, Except.map]⟩
  failed := by
    obtain ⟨hresult, hrepository, hevents⟩ := h.failed
    have hrun : (s.scan fs r dir m).repository.run (s.additions fs indexed.flatten) =
        r.run (s.additions fs (files :: indexed).flatten) := by
      rw [hcompleted.repository_eq, ← Repository.run_append, ← additions_append, List.flatten_cons]
    have hmonitor : (s.scanAll fs r m (dir :: before)).monitor =
        (s.scanAll fs (s.scan fs r dir m).repository (s.scan fs r dir m).monitor before).monitor := by
      rw [scanAll_cons_of_ok hscan]
    rw [hrun, ← hmonitor] at hresult hrepository hevents
    refine ⟨hresult, hrepository, ?_⟩
    rw [hevents, hcompleted.events_eq, hcompleted.repository_eq, List.flatten_cons, additions_append,
      Repository.announced_append, List.append_assoc]

theorem exists_failsAt (hfs : fs.WellFormed) (h : (s.scanAll fs r m dirs).result = .error fault) :
    ∃ before d after indexed, dirs = before ++ d :: after ∧
      s.FailsAt fs r m before d indexed fault (s.scanAll fs r m dirs).repository (s.scanAll fs r m dirs).events := by
  induction dirs generalizing r m with
  | nil => exact absurd h (by simp [scanAll])
  | cons dir dirs ih =>
    cases hscan : (s.scan fs r dir m).result with
    | error other =>
      rw [scanAll_cons_of_error hscan] at h ⊢
      obtain rfl : other = fault := Except.error.inj h
      exact ⟨[], dir, dirs, [], rfl, .nil, ⟨{}, rfl⟩, hscan, rfl, rfl⟩
    | ok summary =>
      have hends := s.ends_scan fs r dir m
      rw [hscan] at hends
      obtain ⟨files, hcompleted⟩ := hends.exists_completed hfs
      rw [scanAll_cons_of_ok hscan] at h ⊢
      cases hothers : (s.scanAll fs (s.scan fs r dir m).repository (s.scan fs r dir m).monitor dirs).result with
      | ok total => exact absurd h (by simp [hothers, Except.map])
      | error other =>
        obtain rfl : other = fault := by simpa [hothers, Except.map] using h
        obtain ⟨before, d, after, indexed, rfl, hfails⟩ := ih hothers
        exact ⟨dir :: before, d, after, files :: indexed, rfl, hfails.cons hscan hcompleted⟩

theorem FailsAt.rescanFinished_not_mem {before : List Path} {d : Path} {indexed : List (List PendingFile)}
    (h : s.FailsAt fs r m before d indexed fault repository events) (items empty : Nat) :
    .rescanFinished items empty ∉ events := by
  obtain ⟨-, -, hevents⟩ := h.failed
  rw [hevents, List.mem_append, not_or]
  refine ⟨s.rescanFinished_not_mem_announced fs r _ items empty, ?_⟩
  exact (s.ends_scan fs _ d _).rescanFinished_not_mem items empty

theorem rescan_of_error (h : (s.scanAll fs r.beginRescan.repository m dirs).result = .error fault) :
    let scanned := s.scanAll fs r.beginRescan.repository m dirs
    s.rescan fs r dirs m =
      ⟨.error fault, scanned.repository, .rescanStarted :: scanned.events, scanned.monitor⟩ := by
  simp only [rescan, h]
  rfl

theorem rescan_eq_error (h : (s.rescan fs r dirs m).result = .error fault) :
    (s.scanAll fs r.beginRescan.repository m dirs).result = .error fault := by
  cases hscanned : (s.scanAll fs r.beginRescan.repository m dirs).result with
  | error other =>
    rw [rescan_of_error hscanned] at h
    exact congrArg Except.error (Except.error.inj h)
  | ok summary => exact absurd h (by simp [rescan, hscanned])

theorem exists_failsAt_rescan (hfs : fs.WellFormed) (h : (s.rescan fs r dirs m).result = .error fault) :
    ∃ before d after indexed events, dirs = before ++ d :: after ∧
      s.FailsAt fs r.beginRescan.repository m before d indexed fault (s.rescan fs r dirs m).repository events ∧
      (s.rescan fs r dirs m).events = .rescanStarted :: events ∧
      ∀ items empty, .rescanFinished items empty ∉ (s.rescan fs r dirs m).events := by
  have hscanned := rescan_eq_error h
  obtain ⟨before, d, after, indexed, hdirs, hfails⟩ := exists_failsAt hfs hscanned
  rw [rescan_of_error hscanned]
  refine ⟨before, d, after, indexed, _, hdirs, hfails, rfl, fun items empty hmem => ?_⟩
  exact hfails.rescanFinished_not_mem items empty (List.mem_of_ne_of_mem (by simp) hmem)

/-! ### What is left behind -/

/-- A scan that fails leaves the index as it was, unless it is stopped; then exactly the files before the stop are
indexed. It names the first folder that was refused, and tells the end of the work only if it is reached. A rescan that
fails keeps what the scans before and the one that failed have indexed, and does not announce an end. -/
theorem scan_accounted (hfs : fs.WellFormed) (s : Scanner) (r : Repository) (dir : Path) (dirs : List Path) (m : μ) :
    let o := s.scan fs r dir m
    s.Accounted fs r dir o.result o.repository o.events (s.callsOf fs r dir m) ∧
      ∀ fault, (s.rescan fs r dirs m).result = .error fault →
        ∃ before d after indexed events, dirs = before ++ d :: after ∧
          s.FailsAt fs r.beginRescan.repository m before d indexed fault (s.rescan fs r dirs m).repository events ∧
          (s.rescan fs r dirs m).events = .rescanStarted :: events ∧
          ∀ items empty, .rescanFinished items empty ∉ (s.rescan fs r dirs m).events :=
  ⟨(s.ends_scan fs r dir m).accounted hfs, fun _ h => exists_failsAt_rescan hfs h⟩

end Rescan

/-- A folder whose name means nothing stands behind one with a file, and the monitor refuses to pass over it. -/
theorem scan_accounted_refused :
    let fs : FileSystem :=
      ⟨[(["values"], .directory), (["values", "strings.xml"], .file .empty), (["wrong"], .directory)], []⟩
    let s : Scanner := ⟨[], true⟩
    let m : LogMonitor := { answer := false }
    let o := s.scan fs {} ⟨"."⟩ m
    s.Accounted fs {} ⟨"."⟩ o.result o.repository o.events (s.callsOf fs {} ⟨"."⟩ m) := by
  intro fs s m o
  have hfs : fs.WellFormed := ⟨by decide, by decide, List.forall_mem_nil _⟩
  exact (scan_accounted hfs s {} ⟨"."⟩ [⟨"."⟩] m).1

end ResourceIndex.Scanner
