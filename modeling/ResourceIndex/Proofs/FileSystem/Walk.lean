import ResourceIndex.Proofs.Fallible.Steps
import ResourceIndex.Proofs.FileSystem.Tree

/-!
# Ways through file trees

A way that goes on behind some steps passes a directory there, and goes on from it as from anywhere else. So the path
of a directory's entry, if it leads anywhere, leads to what stands right below the directory, wherever the directory is
and whatever links lead to it.
-/

namespace ResourceIndex.FileSystem

variable {fs : FileSystem} {links : Nat} {l found : Location} {rest more : List Step} {name : String}

/-! ### One step -/

theorem walk_slash (aim : Aim) (hl : fs.isDirectoryAt l) :
    fs.walk aim links l (.slash :: rest) = fs.walk aim links l rest := by
  rw [walk, hl]
  rfl

theorem walk_stay (aim : Aim) (hl : fs.isDirectoryAt l) :
    fs.walk aim links l (.stay :: rest) = fs.walk aim links l rest := by
  rw [walk, hl]
  rfl

theorem walk_up (aim : Aim) (hl : fs.isDirectoryAt l) :
    fs.walk aim links l (.up :: rest) = fs.walk aim links l.dropLast rest := by
  rw [walk, hl]
  rfl

/-- A way goes on from a node that is no link. -/
theorem walk_child {n : Node} (hl : fs.isDirectoryAt l) (hbytes : name.utf8ByteSize ≤ nameLimit)
    (hnode : fs.node? (l ++ [name]) = some n) (hlink : ∀ target, n ≠ .link target) (rest : List Step) :
    fs.walk .reach links l (.child name :: rest) = fs.walk .reach links (l ++ [name]) rest := by
  rw [walk, hl]
  cases n with
  | directory => simp [Nat.not_lt.mpr hbytes, hnode]
  | file content => simp [Nat.not_lt.mpr hbytes, hnode]
  | link target => exact absurd rfl (hlink target)

/-- A link is followed from the directory that it stands in. -/
theorem walk_child_link {target : Path} (hl : fs.isDirectoryAt l) (hbytes : name.utf8ByteSize ≤ nameLimit)
    (hnode : fs.node? (l ++ [name]) = some (.link target)) (rest : List Step) :
    fs.walk .reach (links + 1) l (.child name :: rest) =
      fs.walk .reach links (startOf target l) (stepsOf target ++ rest) := by
  rw [walk, hl]
  simp [Nat.not_lt.mpr hbytes, hnode]

/-- What a step to a name can do to a way that reaches its end: stop at the end where nothing stands, go to what stands
there, or follow a link. -/
theorem walk_child_cases (hl : fs.isDirectoryAt l) (h : fs.walk .reach links l (.child name :: rest) = .ok found) :
    (fs.node? (l ++ [name]) = none ∧ rest = [] ∧ found = l ++ [name]) ∨
    (∀ other, fs.walk .reach links l (.child name :: other) = fs.walk .reach links (l ++ [name]) other) ∨
    ∃ target left, links = left + 1 ∧ fs.node? (l ++ [name]) = some (.link target) ∧
      ∀ other, fs.walk .reach links l (.child name :: other) =
        fs.walk .reach left (startOf target l) (stepsOf target ++ other) := by
  have hbytes : name.utf8ByteSize ≤ nameLimit := by
    refine Nat.not_lt.mp fun hlong => ?_
    rw [walk, hl] at h
    simp [hlong] at h
  cases hnode : fs.node? (l ++ [name]) with
  | none =>
    rw [walk, hl] at h
    simp only [Nat.not_lt.mpr hbytes, hnode, Bool.not_true, Bool.false_eq_true, reduceCtorEq, false_and, if_false] at h
    split at h
    next hrest => exact .inl ⟨rfl, hrest, (Except.ok.inj h).symm⟩
    next => exact absurd h (by simp)
  | some n =>
    cases n with
    | directory => exact .inr (.inl (walk_child hl hbytes hnode (by simp)))
    | file content => exact .inr (.inl (walk_child hl hbytes hnode (by simp)))
    | link target =>
      cases links with
      | zero =>
        rw [walk, hl] at h
        simp [Nat.not_lt.mpr hbytes, hnode] at h
      | succ left => exact .inr (.inr ⟨target, left, rfl, rfl, walk_child_link hl hbytes hnode⟩)

theorem isDirectoryAt_of_walk {aim : Aim} (h : fs.walk aim links l rest = .ok found) (hne : rest ≠ []) :
    fs.isDirectoryAt l := by
  cases rest with
  | nil => exact absurd rfl hne
  | cons step rest =>
    cases hl : fs.isDirectoryAt l with
    | true => rfl
    | false =>
      rw [walk.eq_def] at h
      simp [hl] at h

/-! ### Ways that go on -/

/-- A way that goes on behind some steps, or ends at a directory there, passes a directory, and from there it does not
matter how it was reached, save for the links that may still be followed. -/
theorem exists_walk_append {steps : List Step} (hmore : more = [] → fs.isDirectoryAt found)
    (h : fs.walk .reach links l (steps ++ more) = .ok found) :
    ∃ left passed, fs.isDirectoryAt passed ∧
      ∀ other, fs.walk .reach links l (steps ++ other) = fs.walk .reach left passed other := by
  induction links using Nat.strongRecOn generalizing l steps with
  | ind links ihlinks =>
    induction steps generalizing l with
    | nil =>
      refine ⟨links, l, ?_, fun _ => rfl⟩
      by_cases hnil : more = []
      · rw [hnil, List.append_nil, walk] at h
        exact Except.ok.inj h ▸ hmore hnil
      · exact isDirectoryAt_of_walk h hnil
    | cons step rest ih =>
      have hl := isDirectoryAt_of_walk h (List.cons_ne_nil _ _)
      rw [List.cons_append] at h
      cases step with
      | slash =>
        rw [walk_slash _ hl] at h
        obtain ⟨left, passed, hpassed, hgo⟩ := ih h
        exact ⟨left, passed, hpassed, fun other => (walk_slash _ hl).trans (hgo other)⟩
      | stay =>
        rw [walk_stay _ hl] at h
        obtain ⟨left, passed, hpassed, hgo⟩ := ih h
        exact ⟨left, passed, hpassed, fun other => (walk_stay _ hl).trans (hgo other)⟩
      | up =>
        rw [walk_up _ hl] at h
        obtain ⟨left, passed, hpassed, hgo⟩ := ih h
        exact ⟨left, passed, hpassed, fun other => (walk_up _ hl).trans (hgo other)⟩
      | child name =>
        obtain ⟨hnone, hnil, rfl⟩ | hnode | ⟨target, fewer, rfl, -, hlink⟩ := walk_child_cases hl h
        · have hthere := isDirectoryAt_iff.mp (hmore (List.append_eq_nil_iff.mp hnil).2)
          exact absurd (hnone.symm.trans hthere) (by simp)
        · rw [hnode] at h
          obtain ⟨left, passed, hpassed, hgo⟩ := ih h
          exact ⟨left, passed, hpassed, fun other => (hnode _).trans (hgo other)⟩
        · rw [hlink, ← List.append_assoc] at h
          obtain ⟨left, passed, hpassed, hgo⟩ := ihlinks fewer (Nat.lt_succ_self _) h
          refine ⟨left, passed, hpassed, fun other => ?_⟩
          rw [List.cons_append, hlink, ← List.append_assoc]
          exact hgo other

/-! ### Paths of entries -/

section Join

variable {p : Path}

theorem stepsOf_of_eq {text entry : List Char} (htext : p.text.toList = text ++ '/' :: entry) :
    stepsOf p = (text.splitOn '/').map Step.ofSegment ++ (entry.splitOn '/').map Step.ofSegment := by
  rw [stepsOf, htext, List.splitOn_append_cons_self, List.map_append]

theorem IsEntryName.splitOn_eq (h : IsEntryName name) :
    (name.toList.splitOn '/').map Step.ofSegment = [.child name] := by
  rw [List.splitOn_eq_singleton h.1, List.map_singleton, h.ofSegment_eq]

/-- The steps of an entry's path are those of its directory, without a slash at their end, and a step to the entry. -/
theorem exists_stepsOf_join (hp : p.text ≠ "") :
    ∃ steps last, stepsOf p = steps ++ last ∧ (last = [] ∨ last = [Step.slash]) ∧
      ∀ name, IsEntryName name → stepsOf (p.join name) = steps ++ [.child name] := by
  cases hlast : p.text.toList.getLast? with
  | none => exact absurd (String.toList_eq_nil_iff.mp (List.getLast?_eq_none_iff.mp hlast)) hp
  | some c =>
    obtain ⟨before, htext⟩ := List.getLast?_eq_some_iff.mp hlast
    by_cases hc : c = '/'
    · subst hc
      refine ⟨_, _, stepsOf_of_eq htext, .inr rfl, fun name hname => ?_⟩
      have hjoin : (p.join name).text.toList = before ++ '/' :: name.toList := by
        simp only [Path.join, hlast]
        rw [String.toList_append, htext, List.append_assoc, List.singleton_append]
      rw [stepsOf_of_eq hjoin, hname.splitOn_eq]
    · refine ⟨stepsOf p, [], (List.append_nil _).symm, .inl rfl, fun name hname => ?_⟩
      have hjoin : (p.join name).text.toList = p.text.toList ++ '/' :: name.toList := by
        simp [Path.join, hlast]
      rw [stepsOf_of_eq hjoin, hname.splitOn_eq, stepsOf]

theorem IsEntryName.text_join_ne (h : IsEntryName name) (p : Path) : (p.join name).text ≠ "" := by
  have hname : name.toList ≠ [] := fun hnil => by
    have hempty : name = "" := String.toList_eq_nil_iff.mp hnil
    exact absurd h (by rw [hempty]; decide)
  intro hempty
  have hnil := String.toList_eq_nil_iff.mpr hempty
  rw [Path.join] at hnil
  split at hnil
  next => exact hname hnil
  next => exact hname (by simpa using congrArg (List.drop p.text.toList.length) hnil)
  next => exact absurd hnil (by simp)

theorem root_not_mem_filterMap (segments : List (List Char)) :
    Path.Component.root ∉ segments.filterMap Path.Component.ofSegment? := by
  rw [List.mem_filterMap]
  rintro ⟨segment, -, h⟩
  unfold Path.Component.ofSegment? at h
  split at h <;> simp at h

/-- A path is absolute if its text starts with a slash. -/
theorem isAbsolute_eq (p : Path) : p.isAbsolute = (p.text.toList.head? == some '/') := by
  rw [Path.isAbsolute, Path.components]
  cases htext : p.text.toList with
  | nil => rfl
  | cons c cs =>
    obtain ⟨segment, segments, hcs⟩ := List.exists_cons_of_ne_nil (List.splitOn_ne_nil '/' cs)
    have hroot := root_not_mem_filterMap ((c :: segment) :: segments)
    rw [List.splitOn_cons_eq_if_modifyHead, hcs, List.head?_cons]
    by_cases hc : c = '/'
    · subst hc
      rfl
    · have hother : (some c == some '/') = false := by simpa using hc
      rw [if_neg (by simpa using hc), hother, List.modifyHead_cons]
      split
      next heq => simp at heq
      next heq => simp at heq
      next heq => simp at heq
      next heq => rfl
      next =>
        refine beq_false_of_ne fun hhead => hroot ?_
        exact List.mem_of_mem_head? hhead

theorem startOf_join (hp : p.text ≠ "") (name : String) (l : Location) : startOf (p.join name) l = startOf p l := by
  have hhead : (p.join name).text.toList.head? = p.text.toList.head? := by
    have hne : p.text.toList ≠ [] := fun hnil => hp (String.toList_eq_nil_iff.mp hnil)
    obtain ⟨c, cs, htext⟩ := List.exists_cons_of_ne_nil hne
    rw [Path.join]
    split
    next hnone => exact absurd (List.getLast?_eq_none_iff.mp hnone) hne
    next => rw [String.toList_append, htext]; rfl
    next => rw [String.toList_append, String.toList_append, htext]; rfl
  rw [startOf, startOf, isAbsolute_eq, isAbsolute_eq, hhead]

end Join

/-! ### Found nodes -/

section Find

variable {p dir : Path} {n : Node}

theorem find_eq_ok (h : fs.find p = .ok (found, n)) :
    p.text ≠ "" ∧ fs.walk .reach linkLimit (startOf p fs.workingDirectory) (stepsOf p) = .ok found ∧
      fs.node? found = some n := by
  obtain ⟨l, hlocate, h⟩ := bind_eq_ok h
  obtain ⟨-, -, hlocate⟩ := bind_eq_ok hlocate
  have hpair : l = found ∧ fs.node? l = some n := by
    split at h
    next hn =>
      obtain ⟨rfl, rfl⟩ := Prod.mk.inj (Except.ok.inj h)
      exact ⟨rfl, hn⟩
    next => exact absurd h (by simp [throw, throwThe, MonadExceptOf.throw])
  obtain ⟨rfl, hn⟩ := hpair
  obtain ⟨hne, hlocate⟩ := of_check_eq_ok hlocate
  exact ⟨fun hempty => hne (by rw [hempty]; rfl), hlocate, hn⟩

theorem find_of_walk (hpath : checkPath p = .ok ()) (hne : ¬p.text.isEmpty)
    (hwalk : fs.walk .reach linkLimit (startOf p fs.workingDirectory) (stepsOf p) = .ok found)
    (hnode : fs.node? found = some n) : fs.find p = .ok (found, n) := by
  rw [find, locate, hpath]
  simp [bind, Except.bind, pure, Except.pure, hne, hwalk, hnode]

theorem directory?_eq_some_iff : fs.directory? p = some l ↔ fs.find p = .ok (l, .directory) := by
  rw [directory?]
  constructor
  · intro h
    split at h
    next hfind => rw [hfind, Option.some.inj h]
    next => exact absurd h (by simp)
  · intro h
    rw [h]

/-- A dot leads to the working directory. -/
theorem readText_of_find {text : String} (h : fs.find p = .ok (l, .file text.toUTF8)) : fs.readText p = .ok text := by
  have htext : String.fromUTF8? text.toUTF8 = some text := by
    simpa [String.fromUTF8?] using ⟨text.isValidUTF8, rfl⟩
  rw [readText, h]
  simp only [bind, Except.bind, pure, Except.pure, htext]

theorem directory?_dot (h : fs.isDirectoryAt fs.workingDirectory) : fs.directory? ⟨"."⟩ = some fs.workingDirectory := by
  have hwalk : fs.walk .reach linkLimit fs.workingDirectory [.stay] = .ok fs.workingDirectory := by
    rw [walk_stay _ h, walk]
  have hfind : fs.find ⟨"."⟩ = .ok (fs.workingDirectory, .directory) :=
    find_of_walk rfl (by decide) hwalk (isDirectoryAt_iff.mp h)
  rw [directory?, hfind]

/-- The way to an entry passes its directory, whatever links lead there. -/
theorem exists_walk_join (hdir : fs.directory? dir = some l) :
    ∃ left, fs.isDirectoryAt l ∧ ∀ name, IsEntryName name →
      fs.walk .reach linkLimit (startOf (dir.join name) fs.workingDirectory) (stepsOf (dir.join name)) =
        fs.walk .reach left l [.child name] := by
  obtain ⟨hne, hwalk, hnode⟩ := find_eq_ok (directory?_eq_some_iff.mp hdir)
  have hl := isDirectoryAt_iff.mpr hnode
  obtain ⟨steps, last, hsteps, hlast, hentry⟩ := exists_stepsOf_join hne
  rw [hsteps] at hwalk
  obtain ⟨left, passed, hpassed, hgo⟩ := exists_walk_append (fun _ => hl) hwalk
  rw [hgo] at hwalk
  obtain rfl : passed = l := by
    obtain rfl | rfl := hlast
    · rw [walk] at hwalk
      exact Except.ok.inj hwalk
    · rw [walk_slash _ hpassed, walk] at hwalk
      exact Except.ok.inj hwalk
  refine ⟨left, hl, fun name hname => ?_⟩
  rw [startOf_join hne, hentry name hname, hgo]

/-- The path of a directory's entry, if it leads anywhere, leads to the directory right below. -/
theorem find_join (hdir : fs.directory? dir = some l) (hname : IsEntryName name)
    (hnode : fs.node? (l ++ [name]) = some .directory) (h : fs.find (dir.join name) = .ok (found, n)) :
    found = l ++ [name] := by
  obtain ⟨-, hjoin, -⟩ := find_eq_ok h
  obtain ⟨left, hl, hgo⟩ := exists_walk_join hdir
  rw [hgo name hname] at hjoin
  obtain ⟨-, -, heq⟩ | hthere | ⟨target, -, -, hlink, -⟩ := walk_child_cases hl hjoin
  · exact heq
  · rw [hthere, walk] at hjoin
    exact (Except.ok.inj hjoin).symm
  · rw [hnode] at hlink
    exact absurd hlink (by simp)

/-- The path of a directory's entry leads to it, if it is no link and path and name are not too long. -/
theorem find_join_eq_ok (hdir : fs.directory? dir = some l) (hname : IsEntryName name)
    (hnode : fs.node? (l ++ [name]) = some n) (hlink : ∀ target, n ≠ .link target)
    (hbytes : name.utf8ByteSize ≤ nameLimit) (hpath : checkPath (dir.join name) = .ok ()) :
    fs.find (dir.join name) = .ok (l ++ [name], n) := by
  obtain ⟨left, hl, hgo⟩ := exists_walk_join hdir
  have hwalk : fs.walk .reach left l [.child name] = .ok (l ++ [name]) := by
    rw [walk_child hl hbytes hnode hlink, walk]
  have hne : ¬(dir.join name).text.isEmpty := fun hempty => hname.text_join_ne dir (String.isEmpty_iff.mp hempty)
  exact find_of_walk hpath hne ((hgo name hname).trans hwalk) hnode

theorem isPresent_join (hdir : fs.directory? dir = some l) (hname : IsEntryName name)
    (hnode : fs.node? (l ++ [name]) = some .directory) (hbytes : name.utf8ByteSize ≤ nameLimit)
    (hpath : checkPath (dir.join name) = .ok ()) : fs.isPresent (dir.join name) := by
  rw [isPresent, find_join_eq_ok hdir hname hnode (by simp) hbytes hpath]
  rfl

end Find

end ResourceIndex.FileSystem
