import ResourceIndex.Proofs.Progress.Transcript
import ResourceIndex.Scan.Run

/-!
# Listing folders

Before a scan indexes anything, it goes over the entries of the directory. It asks about each folder whose name means
nothing, in order, until one is refused, and lists every other folder, until one cannot be listed. What it has listed in
the end, and the answers it has got, are settled by the entries and by how the listing ended.
-/

namespace ResourceIndex.Scanner

variable {s : Scanner} {fs : FileSystem} {dir : Path} {entries : List (String × Node)} {entry : String × Node}

/-! ### Listed files -/

/-- The entry is a directory itself, not a link to one, and not ignored. -/
def considers (s : Scanner) (entry : String × Node) : Bool :=
  entry.2.isDirectory && !s.ignores entry.1

/-- The folders whose names mean nothing, in their order. -/
def unnamedIn (s : Scanner) (entries : List (String × Node)) : List String :=
  (entries.filter fun e => s.considers e && (Folder.ofName? e.1).isNone).map (·.1)

/-- The files that wait in an entry, if it can be listed. -/
def filesOf (s : Scanner) (fs : FileSystem) (dir : Path) (entry : String × Node) : List PendingFile :=
  match s.considers entry, Folder.ofName? entry.1 with
  | true, some folder => (s.pendingIn fs (dir.join entry.1) folder).toOption.getD []
  | _, _ => []

def filesIn (s : Scanner) (fs : FileSystem) (dir : Path) (entries : List (String × Node)) : List PendingFile :=
  entries.flatMap (s.filesOf fs dir)

/-- The entry is no resource folder, or its path leads somewhere. -/
def Listable (s : Scanner) (fs : FileSystem) (dir : Path) (entry : String × Node) : Prop :=
  s.considers entry → (Folder.ofName? entry.1).isSome → fs.isPresent (dir.join entry.1)

/-- The question whether a folder should be passed over. -/
def question (name : String) (answer : Bool) : Call :=
  .confirmed "Invalid resource folder" ("'" ++ name ++ "' is not a valid resource folder. Skip it?") answer

/-- How going over entries can end, and with which calls. -/
inductive Collected (s : Scanner) (fs : FileSystem) (dir : Path) (entries : List (String × Node)) :
    Except IndexFault (List PendingFile × List String) → List Call → Prop
  | done (hlistable : ∀ entry ∈ entries, s.Listable fs dir entry) :
    Collected s fs dir entries (.ok (s.filesIn fs dir entries, s.unnamedIn entries))
      ((s.unnamedIn entries).map (question · true))
  | refused {before after : List String} {name : String} (hnames : s.unnamedIn entries = before ++ name :: after) :
    Collected s fs dir entries (.error (.invalidFolder name)) (before.map (question · true) ++ [question name false])
  | unlisted {before after : List String} {directory cause : String}
    (hentry : ∃ entry ∈ entries, ¬s.Listable fs dir entry) (hnames : s.unnamedIn entries = before ++ after) :
    Collected s fs dir entries (.error (.listing directory cause)) (before.map (question · true))

theorem unnamedIn_cons (entry : String × Node) (entries : List (String × Node)) :
    s.unnamedIn (entry :: entries) = s.unnamedIn [entry] ++ s.unnamedIn entries := by
  rw [unnamedIn, ← List.singleton_append, List.filter_append, List.map_append]
  rfl

theorem filesIn_cons (entry : String × Node) (entries : List (String × Node)) :
    s.filesIn fs dir (entry :: entries) = s.filesOf fs dir entry ++ s.filesIn fs dir entries := by
  rw [filesIn, List.flatMap_cons, filesIn]

/-- An entry that can be listed and has no strange name comes before what was gone over. -/
theorem Collected.cons_of_named {result : Except IndexFault (List PendingFile × List String)} {calls : List Call}
    (h : Collected s fs dir entries result calls) (hlistable : s.Listable fs dir entry)
    (hnamed : s.unnamedIn [entry] = []) :
    Collected s fs dir (entry :: entries)
      (result.map fun (files, skipped) => (s.filesOf fs dir entry ++ files, skipped)) calls := by
  have hunnamed : s.unnamedIn (entry :: entries) = s.unnamedIn entries := by
    rw [unnamedIn_cons, hnamed, List.nil_append]
  cases h with
  | done hall =>
    rw [← hunnamed]
    simp only [Except.map, ← filesIn_cons]
    exact .done (List.forall_mem_cons.mpr ⟨hlistable, hall⟩)
  | refused hnames => exact .refused (hunnamed.trans hnames)
  | unlisted hentry hnames =>
    obtain ⟨other, hother, hnot⟩ := hentry
    exact .unlisted ⟨other, List.mem_cons_of_mem _ hother, hnot⟩ (hunnamed.trans hnames)

/-- A folder that is passed over comes before what was gone over. -/
theorem Collected.cons_of_unnamed {result : Except IndexFault (List PendingFile × List String)} {calls : List Call}
    (h : Collected s fs dir entries result calls) (hunnamed : s.unnamedIn [entry] = [entry.1])
    (hname : Folder.ofName? entry.1 = none) :
    Collected s fs dir (entry :: entries) (result.map fun (files, skipped) => (files, entry.1 :: skipped))
      (question entry.1 true :: calls) := by
  have hall : s.unnamedIn (entry :: entries) = entry.1 :: s.unnamedIn entries := by
    rw [unnamedIn_cons, hunnamed, List.singleton_append]
  have hlistable : s.Listable fs dir entry := fun _ hsome => absurd hsome (by simp [hname])
  cases h with
  | done hrest =>
    have hfiles : s.filesIn fs dir (entry :: entries) = s.filesIn fs dir entries := by
      rw [filesIn_cons, filesOf, hname]
      cases s.considers entry <;> rfl
    have hdone := Collected.done (List.forall_mem_cons.mpr ⟨hlistable, hrest⟩)
    rwa [hfiles, hall] at hdone
  | @refused before after name hnames =>
    have hnames' : s.unnamedIn (entry :: entries) = (entry.1 :: before) ++ name :: after := by
      rw [hall, hnames, List.cons_append]
    have hrefused : Collected s fs dir (entry :: entries) _ _ := .refused hnames'
    exact hrefused
  | @unlisted before after directory cause hentry hnames =>
    obtain ⟨other, hother, hnot⟩ := hentry
    have hnames' : s.unnamedIn (entry :: entries) = (entry.1 :: before) ++ after := by
      rw [hall, hnames, List.cons_append]
    have hunlisted : Collected s fs dir (entry :: entries) (.error (.listing directory cause)) _ :=
      .unlisted ⟨other, List.mem_cons_of_mem _ hother, hnot⟩ hnames'
    exact hunlisted

section Listing

variable {μ : Type} [Monitor μ] {m : μ} {folder : Folder}

/-- Asks whether a folder should be passed over. -/
def confirmSkip (name : String) (m : μ) : Bool × μ :=
  Monitor.confirm "Invalid resource folder" ("'" ++ name ++ "' is not a valid resource folder. Skip it?") m

theorem collectFrom_of_not_considers (h : s.considers entry = false) :
    s.collectFrom fs dir m (entry :: entries) = s.collectFrom fs dir m entries := by
  have hpassed : (!entry.2.isDirectory || s.ignores entry.1) = true := by
    rw [← Bool.not_not (s.ignores entry.1), ← Bool.not_and, ← considers, h]
    rfl
  exact if_pos hpassed

theorem collectFrom_of_considers (h : s.considers entry) :
    s.collectFrom fs dir m (entry :: entries) =
      match Folder.ofName? entry.1 with
      | some folder =>
        match s.pendingIn fs (dir.join entry.1) folder with
        | .ok files =>
          ((s.collectFrom fs dir m entries).1.map fun (others, skipped) => (files ++ others, skipped),
            (s.collectFrom fs dir m entries).2)
        | .error e => (.error e, m)
      | none =>
        if (confirmSkip entry.1 m).1 then
          ((s.collectFrom fs dir (confirmSkip entry.1 m).2 entries).1.map fun (files, skipped) =>
              (files, entry.1 :: skipped),
            (s.collectFrom fs dir (confirmSkip entry.1 m).2 entries).2)
        else (.error (.invalidFolder entry.1), (confirmSkip entry.1 m).2) := by
  have hkept : ¬(!entry.2.isDirectory || s.ignores entry.1) = true := by
    rw [← Bool.not_not (s.ignores entry.1), ← Bool.not_and, ← considers, h]
    decide
  exact if_neg hkept

theorem pendingIn_eq_ok {files : List PendingFile} (h : s.pendingIn fs dir folder = .ok files) : fs.isPresent dir := by
  rw [pendingIn] at h
  split at h
  next => exact absurd h (by simp)
  next hfind => rw [FileSystem.isPresent, hfind]; rfl

theorem pendingIn_eq_error {fault : IndexFault} (h : s.pendingIn fs dir folder = .error fault) :
    ¬fs.isPresent dir ∧ ∃ cause, fault = .listing dir.text cause := by
  rw [pendingIn] at h
  split at h
  next f hfind =>
    rw [FileSystem.isPresent, hfind]
    exact ⟨by simp [Except.isOk, Except.toBool], f.message, (Except.error.inj h).symm⟩
  next => exact absurd h (by simp)

/-- An entry that a scan does not look into comes before what was gone over. -/
theorem Collected.cons_of_not_considers {result : Except IndexFault (List PendingFile × List String)}
    {calls : List Call} (h : Collected s fs dir entries result calls) (hconsidered : s.considers entry = false) :
    Collected s fs dir (entry :: entries) result calls := by
  have hunnamed : s.unnamedIn [entry] = [] := by simp [unnamedIn, hconsidered]
  have hlistable : s.Listable fs dir entry := fun h => absurd h (by simp [hconsidered])
  have hcons := h.cons_of_named hlistable hunnamed
  rw [filesOf, hconsidered] at hcons
  cases result <;> exact hcons

/-- A folder that was listed comes before what was gone over. -/
theorem Collected.cons_of_listed {result : Except IndexFault (List PendingFile × List String)} {calls : List Call}
    {files : List PendingFile} (h : Collected s fs dir entries result calls) (hconsidered : s.considers entry)
    (hname : Folder.ofName? entry.1 = some folder) (hpending : s.pendingIn fs (dir.join entry.1) folder = .ok files) :
    Collected s fs dir (entry :: entries) (result.map fun (others, skipped) => (files ++ others, skipped)) calls := by
  have hunnamed : s.unnamedIn [entry] = [] := by simp [unnamedIn, hname]
  have hfiles : s.filesOf fs dir entry = files := by
    simp only [filesOf, hconsidered, hname, hpending, Except.toOption, Option.getD_some]
  have hcons := h.cons_of_named (fun _ _ => pendingIn_eq_ok hpending) hunnamed
  rwa [hfiles] at hcons

/-- What was gone over ends with a folder that cannot be listed. -/
theorem collected_of_pendingIn_eq_error {fault : IndexFault} (entries : List (String × Node))
    (hconsidered : s.considers entry) (hname : Folder.ofName? entry.1 = some folder)
    (hpending : s.pendingIn fs (dir.join entry.1) folder = .error fault) :
    Collected s fs dir (entry :: entries) (.error fault) [] := by
  obtain ⟨habsent, cause, rfl⟩ := pendingIn_eq_error hpending
  have hentry : ∃ other ∈ entry :: entries, ¬s.Listable fs dir other :=
    ⟨entry, List.mem_cons_self, fun h => habsent (h hconsidered (by simp [hname]))⟩
  exact .unlisted hentry (List.nil_append _).symm

theorem exists_collected (s : Scanner) (fs : FileSystem) (dir : Path) (entries : List (String × Node))
    (t : Transcript μ) :
    ∃ calls, Collected s fs dir entries (s.collectFrom fs dir t entries).1 calls ∧
      (s.collectFrom fs dir t entries).2.calls = t.calls ++ calls := by
  induction entries generalizing t with
  | nil => exact ⟨[], .done (List.forall_mem_nil _), (List.append_nil _).symm⟩
  | cons entry entries ih =>
    cases hconsidered : s.considers entry with
    | false =>
      obtain ⟨calls, hcollected, hcalls⟩ := ih t
      rw [collectFrom_of_not_considers hconsidered]
      exact ⟨calls, hcollected.cons_of_not_considers hconsidered, hcalls⟩
    | true =>
      cases hname : Folder.ofName? entry.1 with
      | some folder =>
        cases hpending : s.pendingIn fs (dir.join entry.1) folder with
        | ok files =>
          obtain ⟨calls, hcollected, hcalls⟩ := ih t
          simp only [collectFrom_of_considers hconsidered, hname, hpending]
          exact ⟨calls, hcollected.cons_of_listed hconsidered hname hpending, hcalls⟩
        | error fault =>
          simp only [collectFrom_of_considers hconsidered, hname, hpending]
          exact ⟨[], collected_of_pendingIn_eq_error entries hconsidered hname hpending, (List.append_nil _).symm⟩
      | none =>
        have hunnamed : s.unnamedIn [entry] = [entry.1] := by simp [unnamedIn, hconsidered, hname]
        have hasked : (confirmSkip entry.1 t).2.calls = t.calls ++ [question entry.1 (confirmSkip entry.1 t).1] := rfl
        simp only [collectFrom_of_considers hconsidered, hname]
        cases hanswer : (confirmSkip entry.1 t).1 with
        | true =>
          obtain ⟨calls, hcollected, hcalls⟩ := ih (confirmSkip entry.1 t).2
          refine ⟨question entry.1 true :: calls, hcollected.cons_of_unnamed hunnamed hname, ?_⟩
          rw [if_pos rfl, hcalls, hasked, hanswer, List.append_assoc, List.singleton_append]
        | false =>
          have hnames : s.unnamedIn (entry :: entries) = [] ++ entry.1 :: s.unnamedIn entries := by
            rw [unnamedIn_cons, hunnamed]
            rfl
          refine ⟨[question entry.1 false], .refused hnames, ?_⟩
          rw [if_neg (by decide), hasked, hanswer]

end Listing

end ResourceIndex.Scanner
