import ResourceIndex.Proofs.Progress.Transcript
import ResourceIndex.Proofs.Repository.Run
import ResourceIndex.Scan.Run

/-!
# Indexing listed files

The files that were listed are read and added one after the other, those that cannot be read left out. Before each file
the monitor is asked whether the work should stop. If it should, exactly the files before have been gone over.
-/

namespace ResourceIndex.Scanner

variable {s : Scanner} {fs : FileSystem} {p : Progress} {f : PendingFile} {files : List PendingFile}

/-- The change of the index that adds a file. -/
def addition (f : PendingFile) (declarations : List Declaration) : Operation :=
  .addFile f.path f.folder f.configuration declarations

/-- The changes of the index for the files that can be read. -/
def additions (s : Scanner) (fs : FileSystem) (files : List PendingFile) : List Operation :=
  files.filterMap fun f => (s.declarationsOf fs f).toOption.map (addition f)

/-- The files that cannot be read. -/
def unreadable (s : Scanner) (fs : FileSystem) (files : List PendingFile) : List PendingFile :=
  files.filter fun f => (s.declarationsOf fs f).toOption.isNone

/-- The number of declarations in the files that can be read. -/
def declared (s : Scanner) (fs : FileSystem) (files : List PendingFile) : Nat :=
  (files.flatMap fun f => (s.declarationsOf fs f).toOption.getD []).length

/-- The progress behind all of the files. -/
def indexAll (s : Scanner) (fs : FileSystem) (p : Progress) (files : List PendingFile) : Progress :=
  files.foldl (s.indexFile fs) p

/-! ### One file more -/

section Cons

variable {declarations : List Declaration} {fault : IndexFault}

theorem additions_cons_of_ok (h : s.declarationsOf fs f = .ok declarations) :
    s.additions fs (f :: files) = addition f declarations :: s.additions fs files := by
  simp [additions, h, Except.toOption]

theorem additions_cons_of_error (h : s.declarationsOf fs f = .error fault) :
    s.additions fs (f :: files) = s.additions fs files := by
  simp [additions, h, Except.toOption]

theorem unreadable_cons_of_ok (h : s.declarationsOf fs f = .ok declarations) :
    s.unreadable fs (f :: files) = s.unreadable fs files := by
  simp [unreadable, h, Except.toOption]

theorem unreadable_cons_of_error (h : s.declarationsOf fs f = .error fault) :
    s.unreadable fs (f :: files) = f :: s.unreadable fs files := by
  simp [unreadable, h, Except.toOption]

theorem declared_cons_of_ok (h : s.declarationsOf fs f = .ok declarations) :
    s.declared fs (f :: files) = declarations.length + s.declared fs files := by
  simp [declared, h, Except.toOption]

theorem declared_cons_of_error (h : s.declarationsOf fs f = .error fault) :
    s.declared fs (f :: files) = s.declared fs files := by
  simp [declared, h, Except.toOption]

end Cons

theorem additions_append (files more : List PendingFile) :
    s.additions fs (files ++ more) = s.additions fs files ++ s.additions fs more :=
  List.filterMap_append

/-- Each file is either added or left out. -/
theorem length_additions_add_length_unreadable (s : Scanner) (fs : FileSystem) (files : List PendingFile) :
    (s.additions fs files).length + (s.unreadable fs files).length = files.length := by
  induction files with
  | nil => rfl
  | cons f files ih =>
    cases h : s.declarationsOf fs f with
    | ok declarations =>
      rw [additions_cons_of_ok h, unreadable_cons_of_ok h, List.length_cons, List.length_cons]
      omega
    | error fault =>
      rw [additions_cons_of_error h, unreadable_cons_of_error h, List.length_cons, List.length_cons]
      omega

/-! ### All files -/

/-- What going over the files does: the index changes by the additions, which are announced, and the summary counts
them. -/
theorem indexAll_eq (s : Scanner) (fs : FileSystem) (p : Progress) (files : List PendingFile) :
    s.indexAll fs p files =
      { repository := p.repository.run (s.additions fs files)
        events := p.events ++ p.repository.announced (s.additions fs files)
        summary := { p.summary with
          files := p.summary.files + (s.additions fs files).length
          resources := p.summary.resources + s.declared fs files
          skippedFiles := p.summary.skippedFiles ++ (s.unreadable fs files).map (·.path) } } := by
  induction files generalizing p with
  | nil => simp [indexAll, additions, unreadable, declared, Repository.announced]
  | cons f files ih =>
    have hcons : s.indexAll fs p (f :: files) = s.indexAll fs (s.indexFile fs p f) files := rfl
    rw [hcons, ih, indexFile]
    cases h : s.declarationsOf fs f with
    | ok declarations =>
      simp only [additions_cons_of_ok h, unreadable_cons_of_ok h, declared_cons_of_ok h, Progress.index,
        Repository.run_cons, Repository.announced, List.append_assoc, List.length_cons, addition, Repository.apply,
        Change.map, Nat.add_assoc, Nat.add_comm 1]
    | error fault =>
      simp only [additions_cons_of_error h, unreadable_cons_of_error h, declared_cons_of_error h, Progress.skip,
        List.map_cons, List.append_assoc, List.singleton_append]

/-! ### The monitor -/

/-- The calls for files that are gone over, of which `count` others have been gone over before. -/
def indexCalls : Nat → List PendingFile → List Call
  | _, [] => []
  | count, f :: files =>
    .cancelled false :: .described ("Scanning " ++ f.path.text) :: .advanced (Text.saturated (count + 1)) ::
      indexCalls (count + 1) files

/-- How going over files can end, and with which calls. -/
inductive Indexed (s : Scanner) (fs : FileSystem) (count : Nat) (p : Progress) (files : List PendingFile) :
    Except IndexFault Unit → Progress → List Call → Prop
  | done : Indexed s fs count p files (.ok ()) (s.indexAll fs p files) (indexCalls count files)
  | stopped {before after : List PendingFile} {f : PendingFile} (hfiles : files = before ++ f :: after) :
    Indexed s fs count p files (.error .cancelled) (s.indexAll fs p before)
      (indexCalls count before ++ [.cancelled true])

/-- A file that was gone over comes before the others. -/
theorem Indexed.cons {count : Nat} {result : Except IndexFault Unit} {q : Progress} {calls : List Call}
    (h : Indexed s fs (count + 1) (s.indexFile fs p f) files result q calls) :
    Indexed s fs count p (f :: files) result q
      (.cancelled false :: .described ("Scanning " ++ f.path.text) :: .advanced (Text.saturated (count + 1)) ::
        calls) := by
  cases h with
  | done => exact .done
  | @stopped before after g hfiles =>
    have hfiles' : f :: files = (f :: before) ++ g :: after := congrArg (f :: ·) hfiles
    have hstopped : Indexed s fs count p (f :: files) (.error .cancelled) _ _ := .stopped hfiles'
    exact hstopped

variable {μ : Type} [Monitor μ]

/-- The monitor behind the calls for one file. -/
def afterFile (count : Nat) (f : PendingFile) (m : μ) : μ :=
  Monitor.advance (Text.saturated (count + 1)) (Monitor.describe ("Scanning " ++ f.path.text) (Monitor.cancelled m).2)

theorem indexFiles_cons (count : Nat) (m : μ) :
    s.indexFiles fs count p m (f :: files) =
      if (Monitor.cancelled m).1 then (.error .cancelled, p, (Monitor.cancelled m).2)
      else s.indexFiles fs (count + 1) (s.indexFile fs p f) (afterFile count f m) files := by
  rfl

theorem exists_indexed (s : Scanner) (fs : FileSystem) (count : Nat) (p : Progress) (t : Transcript μ)
    (files : List PendingFile) :
    ∃ calls, Indexed s fs count p files (s.indexFiles fs count p t files).1 (s.indexFiles fs count p t files).2.1
        calls ∧
      (s.indexFiles fs count p t files).2.2.calls = t.calls ++ calls := by
  induction files generalizing count p t with
  | nil => exact ⟨[], .done, (List.append_nil _).symm⟩
  | cons f files ih =>
    rw [indexFiles_cons]
    cases hstop : (Monitor.cancelled t).1 with
    | true =>
      have hcalls : (Monitor.cancelled t).2.calls = t.calls ++ [.cancelled (Monitor.cancelled t).1] := rfl
      rw [hstop] at hcalls
      exact ⟨[.cancelled true], .stopped (List.nil_append _).symm, hcalls⟩
    | false =>
      have hcalls : (afterFile count f t).calls = t.calls ++ [.cancelled (Monitor.cancelled t).1] ++
          [.described ("Scanning " ++ f.path.text)] ++ [.advanced (Text.saturated (count + 1))] := rfl
      rw [hstop] at hcalls
      obtain ⟨calls, hindexed, hrest⟩ := ih (count + 1) (s.indexFile fs p f) (afterFile count f t)
      rw [if_neg (by decide)]
      exact ⟨_, hindexed.cons, by rw [hrest, hcalls, List.append_assoc, List.append_assoc, List.append_assoc]; rfl⟩

end ResourceIndex.Scanner
