import ResourceIndex.Proofs.Scan.Failed

/-!
# Scans with a steady monitor

A monitor that never stops the work and answers every question in one way has no other influence on a scan. A directory
then passes or not by its tree and that one answer, and what a scan does if it ends well is settled by the files in the
directory. Several directories are scanned as their files one after the other, also by a rescan.
-/

namespace ResourceIndex

/-- Steady monitors with the same answer are in step. -/
theorem Monitor.Keeps.inStep_of_keeps {μ ν : Type} [Monitor μ] [Monitor ν] {answer : Bool} {P : μ → Prop} {Q : ν → Prop}
    (hP : Keeps answer P) (hQ : Keeps answer Q) : InStep fun m n => P m ∧ Q n where
  cancelled m n h := by
    obtain ⟨hm, hP'⟩ := hP.cancelled m h.1
    obtain ⟨hn, hQ'⟩ := hQ.cancelled n h.2
    exact ⟨hm.trans hn.symm, hP', hQ'⟩
  describe text m n h := ⟨hP.describe text m h.1, hQ.describe text n h.2⟩
  conclude text m n h := ⟨hP.conclude text m h.1, hQ.conclude text n h.2⟩
  setMaximum maximum m n h := ⟨hP.setMaximum maximum m h.1, hQ.setMaximum maximum n h.2⟩
  advance value m n h := ⟨hP.advance value m h.1, hQ.advance value n h.2⟩
  confirm title message m n h := by
    obtain ⟨hm, hP'⟩ := hP.confirm title message m h.1
    obtain ⟨hn, hQ'⟩ := hQ.confirm title message n h.2
    exact ⟨hm.trans hn.symm, hP', hQ'⟩

namespace Scanner

variable {s : Scanner} {fs : FileSystem} {r repository : Repository} {dir : Path} {events : List Event}
  {calls : List Call} {answer : Bool} {summary : ScanSummary}

/-! ### What a directory holds -/

/-- The files that a scan of the directory is about. -/
def filesAt (s : Scanner) (fs : FileSystem) (dir : Path) : List PendingFile :=
  (fs.directory? dir).elim [] fun l => s.filesIn fs dir (fs.entries l)

/-- The folders of the directory whose names mean nothing. -/
def unnamedAt (s : Scanner) (fs : FileSystem) (dir : Path) : List String :=
  (fs.directory? dir).elim [] fun l => s.unnamedIn (fs.entries l)

theorem filesAt_of_some {l : Location} (hdir : fs.directory? dir = some l) :
    s.filesAt fs dir = s.filesIn fs dir (fs.entries l) := by
  rw [filesAt, hdir, Option.elim_some]

theorem unnamedAt_of_some {l : Location} (hdir : fs.directory? dir = some l) :
    s.unnamedAt fs dir = s.unnamedIn (fs.entries l) := by
  rw [unnamedAt, hdir, Option.elim_some]

/-- The directory is there, each of its resource folders can be listed, and it has no folder whose name means nothing if
such folders are not passed over. -/
def Passes (s : Scanner) (fs : FileSystem) (answer : Bool) (dir : Path) : Prop :=
  ∃ l, fs.directory? dir = some l ∧ (∀ entry ∈ fs.entries l, s.Listable fs dir entry) ∧
    (answer = false → s.unnamedIn (fs.entries l) = [])

/-- The summary of going over files after some folders were passed over. -/
def tally (s : Scanner) (fs : FileSystem) (files : List PendingFile) (folders : List String) : ScanSummary :=
  ⟨(s.additions fs files).length, s.declared fs files, folders, (s.unreadable fs files).map (·.path)⟩

theorem add_tally (s : Scanner) (fs : FileSystem) (files more : List PendingFile) (folders others : List String) :
    (s.tally fs files folders).add (s.tally fs more others) = s.tally fs (files ++ more) (folders ++ others) := by
  simp [tally, ScanSummary.add, additions, declared, unreadable]

/-! ### One scan -/

/-- What a scan that ended well has done is settled by the files in the directory. -/
theorem Ends.eq_tally (h : s.Ends fs r dir (.ok summary) repository events calls) :
    summary = s.tally fs (s.filesAt fs dir) (s.unnamedAt fs dir) ∧
      repository = r.run (s.additions fs (s.filesAt fs dir)) := by
  cases h with
  | done hdir hlisted hsummary =>
    obtain ⟨hfound, -⟩ := hlisted.eq_of_ok
    obtain ⟨rfl, rfl⟩ := Prod.mk.inj hfound
    rw [indexAll_eq] at hsummary ⊢
    rw [filesAt_of_some hdir, unnamedAt_of_some hdir]
    exact ⟨by simp [hsummary, tally], rfl⟩

/-- A scan that ended well has announced these files and nothing else. -/
theorem Ends.events_of_ok (h : s.Ends fs r dir (.ok summary) repository events calls) :
    events = r.announced (s.additions fs (s.filesAt fs dir)) := by
  cases h with
  | done hdir hlisted hsummary =>
    obtain ⟨hfound, -⟩ := hlisted.eq_of_ok
    obtain ⟨rfl, -⟩ := Prod.mk.inj hfound
    rw [indexAll_eq, filesAt_of_some hdir]
    exact List.nil_append _

/-- With one answer to every question, a scan ends well exactly if the directory passes. -/
theorem Ends.exists_ok_iff {result : Except IndexFault ScanSummary}
    (h : s.Ends fs r dir result repository events calls) (hcalls : ∀ c ∈ calls, c.IsAnswered answer) :
    (∃ summary, result = .ok summary) ↔ s.Passes fs answer dir := by
  cases h with
  | missing hdir => simp [Passes, hdir]
  | @unlisted l _ _ hdir hlisted =>
    refine iff_of_false (by simp) ?_
    rintro ⟨l', hdir', hlistable, hnone⟩
    obtain rfl := Option.some.inj (hdir.symm.trans hdir')
    cases hlisted with
    | @refused _ _ name hnames =>
      have hasked : false = answer := (hcalls (question name false) (by simp)).2 false rfl
      simp [hnone hasked.symm] at hnames
    | unlisted hentry hnames =>
      obtain ⟨entry, hentry, hnot⟩ := hentry
      exact hnot (hlistable entry hentry)
  | stopped hdir hlisted => exact absurd rfl (hcalls (.cancelled true) (by simp)).1
  | @done l _ _ _ _ hdir hlisted hsummary =>
    refine iff_of_true ⟨_, rfl⟩ ⟨l, hdir, hlisted.eq_of_ok.2, ?_⟩
    rintro rfl
    cases hlisted with
    | done hlistable =>
      rw [List.eq_nil_iff_forall_not_mem]
      intro name hname
      exact absurd ((hcalls (question name true) (by simp [List.mem_map_of_mem, hname])).2 true rfl) (by decide)

section Steady

variable {μ : Type} [Monitor μ] {m : μ} {dirs : List Path}

theorem scan_of_ok (h : (s.scan fs r dir m).result = .ok summary) :
    summary = s.tally fs (s.filesAt fs dir) (s.unnamedAt fs dir) ∧
      (s.scan fs r dir m).repository = r.run (s.additions fs (s.filesAt fs dir)) := by
  have hends := s.ends_scan fs r dir m
  rw [h] at hends
  exact hends.eq_tally

theorem events_scan_of_ok (h : (s.scan fs r dir m).result = .ok summary) :
    (s.scan fs r dir m).events = r.announced (s.additions fs (s.filesAt fs dir)) := by
  have hends := s.ends_scan fs r dir m
  rw [h] at hends
  exact hends.events_of_ok

theorem exists_ok_scan_iff (hm : Monitor.Answers answer m) (r : Repository) :
    (∃ summary, (s.scan fs r dir m).result = .ok summary) ↔ s.Passes fs answer dir :=
  (s.ends_scan fs r dir m).exists_ok_iff (isAnswered_callsOf hm s fs r dir)

/-- A steady monitor is steady behind a scan. -/
theorem answers_scan (hm : Monitor.Answers answer m) (s : Scanner) (fs : FileSystem) (r : Repository) (dir : Path) :
    Monitor.Answers answer (s.scan fs r dir m).monitor := by
  obtain ⟨P, hP, hPm⟩ := hm
  exact ⟨P, hP, (scan_inStep (hP.inStep_of_keeps hP) ⟨hPm, hPm⟩ s fs r dir).monitor.1⟩

/-! ### Several scans -/

/-- Scans that have all ended well have gone over all the files of their directories. -/
theorem scanAll_of_ok (h : (s.scanAll fs r m dirs).result = .ok summary) :
    summary = s.tally fs (dirs.flatMap (s.filesAt fs)) (dirs.flatMap (s.unnamedAt fs)) ∧
      (s.scanAll fs r m dirs).repository = r.run (s.additions fs (dirs.flatMap (s.filesAt fs))) := by
  induction dirs generalizing r m summary with
  | nil =>
    obtain rfl := Except.ok.inj h
    exact ⟨rfl, rfl⟩
  | cons dir dirs ih =>
    cases hscan : (s.scan fs r dir m).result with
    | error fault => rw [scanAll_cons_of_error hscan] at h; contradiction
    | ok first =>
      obtain ⟨rfl, hrepository⟩ := scan_of_ok hscan
      rw [scanAll_cons_of_ok hscan] at h ⊢
      cases hothers : (s.scanAll fs (s.scan fs r dir m).repository (s.scan fs r dir m).monitor dirs).result with
      | error fault => simp [hothers, Except.map] at h
      | ok total =>
        obtain ⟨rfl, hrun⟩ := ih hothers
        simp only [hothers, Except.map, add_tally] at h
        refine ⟨(Except.ok.inj h).symm, hrun.trans ?_⟩
        rw [hrepository, ← Repository.run_append, ← additions_append, List.flatMap_cons]

/-- The scans all end well exactly if every directory passes. -/
theorem exists_ok_scanAll_iff (hm : Monitor.Answers answer m) (r : Repository) :
    (∃ summary, (s.scanAll fs r m dirs).result = .ok summary) ↔ ∀ dir ∈ dirs, s.Passes fs answer dir := by
  induction dirs generalizing r m with
  | nil => exact iff_of_true ⟨_, rfl⟩ (List.forall_mem_nil _)
  | cons dir dirs ih =>
    rw [List.forall_mem_cons, ← exists_ok_scan_iff hm r,
      ← ih (answers_scan hm s fs r dir) (s.scan fs r dir m).repository]
    cases hscan : (s.scan fs r dir m).result with
    | error fault => simp [scanAll_cons_of_error hscan]
    | ok first =>
      rw [scanAll_cons_of_ok hscan]
      cases hothers : (s.scanAll fs (s.scan fs r dir m).repository (s.scan fs r dir m).monitor dirs).result <;>
        simp [hothers, Except.map]

/-! ### Rescans -/

theorem rescan_of_scanned (h : (s.scanAll fs r.beginRescan.repository m dirs).result = .ok summary) :
    let scanned := s.scanAll fs r.beginRescan.repository m dirs
    (s.rescan fs r dirs m).result = .ok (summary, scanned.repository.endRescan.result) ∧
      (s.rescan fs r dirs m).repository = scanned.repository := by
  simp only [rescan, h]
  exact ⟨trivial, rfl⟩

/-- A rescan that ends well has forgotten every file and added the files of its directories. -/
theorem rescan_of_ok {done : ScanSummary × RescanSummary} (h : (s.rescan fs r dirs m).result = .ok done) :
    done.1 = s.tally fs (dirs.flatMap (s.filesAt fs)) (dirs.flatMap (s.unnamedAt fs)) ∧
      (s.rescan fs r dirs m).repository = r.run (.beginRescan :: s.additions fs (dirs.flatMap (s.filesAt fs))) := by
  cases hscanned : (s.scanAll fs r.beginRescan.repository m dirs).result with
  | error fault => rw [rescan_of_error hscanned] at h; contradiction
  | ok summary =>
    obtain ⟨hresult, hrepository⟩ := rescan_of_scanned hscanned
    obtain ⟨htally, hrun⟩ := scanAll_of_ok hscanned
    obtain rfl := Except.ok.inj (hresult.symm.trans h)
    exact ⟨htally, hrepository.trans hrun⟩

theorem exists_ok_rescan_iff (hm : Monitor.Answers answer m) (r : Repository) :
    (∃ done, (s.rescan fs r dirs m).result = .ok done) ↔ ∀ dir ∈ dirs, s.Passes fs answer dir := by
  rw [← exists_ok_scanAll_iff hm r.beginRescan.repository]
  cases hscanned : (s.scanAll fs r.beginRescan.repository m dirs).result with
  | error fault => simp [rescan_of_error hscanned]
  | ok summary => exact iff_of_true ⟨_, (rescan_of_scanned hscanned).1⟩ ⟨summary, rfl⟩

end Steady

end Scanner

end ResourceIndex
