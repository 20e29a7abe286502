import ResourceIndex.Proofs.Progress.Agreement
import ResourceIndex.Proofs.Scan.Indexing
import ResourceIndex.Proofs.Scan.Listing

/-!
# The course of a scan

A scan lists before it indexes, and nothing is indexed if it ends before. So the result of a scan, the files that it has
gone over, and the calls of its monitor with their answers determine each other. The calls can be spoken of for every
monitor, since a scan does the same for all monitors that give the same answers.
-/

namespace ResourceIndex

/-- Two scans have ended alike, and their monitors are related. -/
structure ScanOutcome.InStep {μ ν α : Type} (R : μ → ν → Prop) (o : ScanOutcome μ α) (p : ScanOutcome ν α) : Prop where
  result_eq : o.result = p.result
  repository_eq : o.repository = p.repository
  events_eq : o.events = p.events
  monitor : R o.monitor p.monitor

namespace Scanner

variable {s : Scanner} {fs : FileSystem} {r : Repository} {dir : Path}

/-! ### How a scan can end -/

section Scan

variable {μ : Type} [Monitor μ] {m listed behind : μ} {l : Location} {files : List PendingFile} {skipped : List String}
  {fault : IndexFault} {p : Progress}

theorem scan_of_none (hdir : fs.directory? dir = none) :
    s.scan fs r dir m =
      ⟨.error (.notFound ("Resource directory not found: " ++ Text.quoted dir.text)), r, [], m⟩ := by
  simp only [scan, hdir]

theorem scan_of_unlisted (hdir : fs.directory? dir = some l)
    (hlisted : s.collectFrom fs dir (Monitor.describe ("Listing " ++ dir.text) m) (fs.entries l) =
      (.error fault, listed)) :
    s.scan fs r dir m = ⟨.error fault, r, [], listed⟩ := by
  simp only [scan, hdir, hlisted]

theorem scan_of_stopped (hdir : fs.directory? dir = some l)
    (hlisted : s.collectFrom fs dir (Monitor.describe ("Listing " ++ dir.text) m) (fs.entries l) =
      (.ok (files, skipped), listed))
    (hindexed : s.indexFiles fs 0 { repository := r } (Monitor.setMaximum (Text.saturated files.length) listed) files =
      (.error fault, p, behind)) :
    s.scan fs r dir m = ⟨.error fault, p.repository, p.events, behind⟩ := by
  simp only [scan, hdir, hlisted, hindexed]

theorem scan_of_done (hdir : fs.directory? dir = some l)
    (hlisted : s.collectFrom fs dir (Monitor.describe ("Listing " ++ dir.text) m) (fs.entries l) =
      (.ok (files, skipped), listed))
    (hindexed : s.indexFiles fs 0 { repository := r } (Monitor.setMaximum (Text.saturated files.length) listed) files =
      (.ok (), p, behind)) :
    s.scan fs r dir m =
      ⟨.ok { p.summary with skippedFolders := skipped }, p.repository, p.events,
        Monitor.conclude { p.summary with skippedFolders := skipped }.resultText behind⟩ := by
  simp only [scan, hdir, hlisted, hindexed]

end Scan

/-! ### Monitors in step -/

section InStep

variable {μ ν : Type} [Monitor μ] [Monitor ν] {R : μ → ν → Prop} {m : μ} {n : ν}

theorem collectFrom_inStep (hR : Monitor.InStep R) (h : R m n) (s : Scanner) (fs : FileSystem) (dir : Path)
    (entries : List (String × Node)) :
    (s.collectFrom fs dir m entries).1 = (s.collectFrom fs dir n entries).1 ∧
      R (s.collectFrom fs dir m entries).2 (s.collectFrom fs dir n entries).2 := by
  induction entries generalizing m n with
  | nil => exact ⟨rfl, h⟩
  | cons entry entries ih =>
    cases hconsidered : s.considers entry with
    | false =>
      rw [collectFrom_of_not_considers hconsidered, collectFrom_of_not_considers hconsidered]
      exact ih h
    | true =>
      simp only [collectFrom_of_considers hconsidered]
      cases Folder.ofName? entry.1 with
      | some folder =>
        cases hpending : s.pendingIn fs (dir.join entry.1) folder with
        | ok files =>
          simp only [hpending]
          obtain ⟨heq, hnext⟩ := ih h
          exact ⟨by rw [heq], hnext⟩
        | error fault =>
          simp only [hpending]
          exact ⟨trivial, h⟩
      | none =>
        have hasked : (confirmSkip entry.1 m).1 = (confirmSkip entry.1 n).1 ∧
          R (confirmSkip entry.1 m).2 (confirmSkip entry.1 n).2 := hR.confirm _ _ m n h
        obtain ⟨heq, hnext⟩ := ih hasked.2
        simp only [hasked.1]
        split
        next => exact ⟨by rw [heq], hnext⟩
        next => exact ⟨rfl, hasked.2⟩

theorem indexFiles_inStep (hR : Monitor.InStep R) (h : R m n) (s : Scanner) (fs : FileSystem) (count : Nat)
    (p : Progress) (files : List PendingFile) :
    (s.indexFiles fs count p m files).1 = (s.indexFiles fs count p n files).1 ∧
      (s.indexFiles fs count p m files).2.1 = (s.indexFiles fs count p n files).2.1 ∧
      R (s.indexFiles fs count p m files).2.2 (s.indexFiles fs count p n files).2.2 := by
  induction files generalizing count p m n with
  | nil => exact ⟨rfl, rfl, h⟩
  | cons f files ih =>
    obtain ⟨hanswer, hasked⟩ := hR.cancelled m n h
    rw [indexFiles_cons, indexFiles_cons, hanswer]
    split
    next => exact ⟨rfl, rfl, hasked⟩
    next => exact ih (hR.advance _ _ _ (hR.describe _ _ _ hasked)) _ _

theorem scan_inStep_of_listed (hR : Monitor.InStep R) {l : Location} {files : List PendingFile} {skipped : List String}
    {m' : μ} {n' : ν} (r : Repository) (hdir : fs.directory? dir = some l)
    (hm : s.collectFrom fs dir (Monitor.describe ("Listing " ++ dir.text) m) (fs.entries l) =
      (.ok (files, skipped), m'))
    (hn : s.collectFrom fs dir (Monitor.describe ("Listing " ++ dir.text) n) (fs.entries l) =
      (.ok (files, skipped), n'))
    (h : R m' n') :
    ScanOutcome.InStep R (s.scan fs r dir m) (s.scan fs r dir n) := by
  have hranged := hR.setMaximum (Text.saturated files.length) m' n' h
  obtain ⟨hsame, hsameProgress, hindexed⟩ := indexFiles_inStep hR hranged s fs 0 { repository := r } files
  rcases hm' : s.indexFiles fs 0 { repository := r } (Monitor.setMaximum (Text.saturated files.length) m') files
    with ⟨result, p, m''⟩
  rcases hn' : s.indexFiles fs 0 { repository := r } (Monitor.setMaximum (Text.saturated files.length) n') files
    with ⟨_, _, n''⟩
  rw [hm', hn'] at hsame hsameProgress hindexed
  obtain rfl : result = _ := hsame
  obtain rfl : p = _ := hsameProgress
  cases result with
  | error fault =>
    rw [scan_of_stopped hdir hm hm', scan_of_stopped hdir hn hn']
    exact ⟨rfl, rfl, rfl, hindexed⟩
  | ok _ =>
    rw [scan_of_done hdir hm hm', scan_of_done hdir hn hn']
    exact ⟨rfl, rfl, rfl, hR.conclude _ _ _ hindexed⟩

/-- A scan does the same for monitors in step. -/
theorem scan_inStep (hR : Monitor.InStep R) (h : R m n) (s : Scanner) (fs : FileSystem) (r : Repository) (dir : Path) :
    ScanOutcome.InStep R (s.scan fs r dir m) (s.scan fs r dir n) := by
  cases hdir : fs.directory? dir with
  | none =>
    rw [scan_of_none hdir, scan_of_none hdir]
    exact ⟨rfl, rfl, rfl, h⟩
  | some l =>
    have hdescribed := hR.describe ("Listing " ++ dir.text) m n h
    obtain ⟨hsame, hlisted⟩ := collectFrom_inStep hR hdescribed s fs dir (fs.entries l)
    rcases hm : s.collectFrom fs dir (Monitor.describe ("Listing " ++ dir.text) m) (fs.entries l) with ⟨result, m'⟩
    rcases hn : s.collectFrom fs dir (Monitor.describe ("Listing " ++ dir.text) n) (fs.entries l) with ⟨_, n'⟩
    rw [hm, hn] at hsame hlisted
    obtain rfl : result = _ := hsame
    cases result with
    | error fault =>
      rw [scan_of_unlisted hdir hm, scan_of_unlisted hdir hn]
      exact ⟨rfl, rfl, rfl, hlisted⟩
    | ok found => exact scan_inStep_of_listed hR r hdir hm hn hlisted

end InStep

/-- A scan does the same for a log monitor and for a bar monitor that answer alike. -/
theorem scan_log_bar (answer isHidden : Bool) (s : Scanner) (fs : FileSystem) (r : Repository) (dir : Path) :
    ScanOutcome.InStep Monitor.Alike (s.scan fs r dir ({ answer := answer } : LogMonitor))
      (s.scan fs r dir (BarMonitor.new answer isHidden)) :=
  scan_inStep Monitor.alike_inStep (Monitor.alike_new answer isHidden) s fs r dir

/-! ### Calls -/

/-- How a scan can end, and with which calls. -/
inductive Ends (s : Scanner) (fs : FileSystem) (r : Repository) (dir : Path) :
    Except IndexFault ScanSummary → Repository → List Event → List Call → Prop
  | missing (hdir : fs.directory? dir = none) :
    Ends s fs r dir (.error (.notFound ("Resource directory not found: " ++ Text.quoted dir.text))) r [] []
  | unlisted {l : Location} {fault : IndexFault} {calls : List Call} (hdir : fs.directory? dir = some l)
    (hlisted : Collected s fs dir (fs.entries l) (.error fault) calls) :
    Ends s fs r dir (.error fault) r [] (.described ("Listing " ++ dir.text) :: calls)
  | stopped {l : Location} {before after : List PendingFile} {f : PendingFile} {skipped : List String}
    {listing : List Call} (hdir : fs.directory? dir = some l)
    (hlisted : Collected s fs dir (fs.entries l) (.ok (before ++ f :: after, skipped)) listing) :
    Ends s fs r dir (.error .cancelled) (s.indexAll fs { repository := r } before).repository
      (s.indexAll fs { repository := r } before).events
      (.described ("Listing " ++ dir.text) :: (listing ++ .ranged (Text.saturated (before ++ f :: after).length) ::
        (indexCalls 0 before ++ [.cancelled true])))
  | done {l : Location} {files : List PendingFile} {skipped : List String} {listing : List Call}
    {summary : ScanSummary} (hdir : fs.directory? dir = some l)
    (hlisted : Collected s fs dir (fs.entries l) (.ok (files, skipped)) listing)
    (hsummary : summary = { (s.indexAll fs { repository := r } files).summary with skippedFolders := skipped }) :
    Ends s fs r dir (.ok summary) (s.indexAll fs { repository := r } files).repository
      (s.indexAll fs { repository := r } files).events
      (.described ("Listing " ++ dir.text) :: (listing ++ .ranged (Text.saturated files.length) ::
        (indexCalls 0 files ++ [.concluded summary.resultText])))

variable {μ : Type} [Monitor μ]

/-- The calls that a scan makes to a monitor. -/
def callsOf (s : Scanner) (fs : FileSystem) (r : Repository) (dir : Path) (m : μ) : List Call :=
  (s.scan fs r dir (⟨m, []⟩ : Transcript μ)).monitor.calls

theorem ends_of_listed {l : Location} {files : List PendingFile} {skipped : List String} {listing : List Call}
    {u : Transcript μ} (r : Repository) (m : μ) (hdir : fs.directory? dir = some l)
    (hlisted : s.collectFrom fs dir (Monitor.describe ("Listing " ++ dir.text) (⟨m, []⟩ : Transcript μ))
      (fs.entries l) = (.ok (files, skipped), u))
    (hcollected : Collected s fs dir (fs.entries l) (.ok (files, skipped)) listing)
    (hlisting : u.calls = .described ("Listing " ++ dir.text) :: listing) :
    let o := s.scan fs r dir (⟨m, []⟩ : Transcript μ)
    Ends s fs r dir o.result o.repository o.events o.monitor.calls := by
  intro o
  obtain ⟨calls, hindexed, hmore⟩ := s.exists_indexed fs 0 { repository := r }
    (Monitor.setMaximum (Text.saturated files.length) u) files
  rcases hfiles : s.indexFiles fs 0 { repository := r } (Monitor.setMaximum (Text.saturated files.length) u) files
    with ⟨result, p, v⟩
  rw [hfiles] at hindexed hmore
  replace hindexed : Indexed s fs 0 { repository := r } files result p calls := hindexed
  have hall : v.calls = .described ("Listing " ++ dir.text) ::
      (listing ++ .ranged (Text.saturated files.length) :: calls) := by
    have hranged : v.calls = u.calls ++ [.ranged (Text.saturated files.length)] ++ calls := hmore
    rw [hranged, hlisting, List.append_assoc, List.cons_append, List.singleton_append]
  cases hindexed with
  | done =>
    have ho : o = _ := scan_of_done hdir hlisted hfiles
    let summary := { (s.indexAll fs { repository := r } files).summary with skippedFolders := skipped }
    have hconcluded : (Monitor.conclude summary.resultText v).calls = .described ("Listing " ++ dir.text) ::
        (listing ++ .ranged (Text.saturated files.length) ::
          (indexCalls 0 files ++ [.concluded summary.resultText])) := by
      have hlast : (Monitor.conclude summary.resultText v).calls = v.calls ++ [.concluded summary.resultText] := rfl
      rw [hlast, hall, List.cons_append, List.append_assoc, List.cons_append]
    rw [ho, hconcluded]
    exact .done hdir hcollected rfl
  | @stopped before after f hsplit =>
    subst hsplit
    have ho : o = _ := scan_of_stopped hdir hlisted hfiles
    rw [ho, hall]
    exact .stopped hdir hcollected

theorem ends_transcript (s : Scanner) (fs : FileSystem) (r : Repository) (dir : Path) (m : μ) :
    let o := s.scan fs r dir (⟨m, []⟩ : Transcript μ)
    Ends s fs r dir o.result o.repository o.events o.monitor.calls := by
  intro o
  cases hdir : fs.directory? dir with
  | none =>
    have ho : o = _ := scan_of_none hdir
    rw [ho]
    exact .missing hdir
  | some l =>
    let t : Transcript μ := Monitor.describe ("Listing " ++ dir.text) ⟨m, []⟩
    obtain ⟨listing, hcollected, hcalls⟩ := s.exists_collected fs dir (fs.entries l) t
    rcases hlisted : s.collectFrom fs dir t (fs.entries l) with ⟨result, u⟩
    rw [hlisted] at hcollected hcalls
    have hlisting : u.calls = .described ("Listing " ++ dir.text) :: listing := hcalls
    cases result with
    | error fault =>
      have ho : o = _ := scan_of_unlisted hdir hlisted
      rw [ho, hlisting]
      exact .unlisted hdir hcollected
    | ok found => exact ends_of_listed r m hdir hlisted hcollected hlisting

/-- The monitor's calls do not show in what a scan does. -/
theorem ends_scan (s : Scanner) (fs : FileSystem) (r : Repository) (dir : Path) (m : μ) :
    Ends s fs r dir (s.scan fs r dir m).result (s.scan fs r dir m).repository (s.scan fs r dir m).events
      (s.callsOf fs r dir m) := by
  obtain ⟨hresult, hrepository, hevents, -⟩ :=
    scan_inStep Transcript.inStep (m := (⟨m, []⟩ : Transcript μ)) rfl s fs r dir
  rw [← hresult, ← hrepository, ← hevents]
  exact s.ends_transcript fs r dir m

end Scanner

end ResourceIndex
