import Mathlib.Data.List.Infix
import ResourceIndex.FileSystem.Listing
import ResourceIndex.Proofs.Fallible.Steps
import ResourceIndex.Proofs.FileSystem.Tree

/-!
# Changes of file trees

Every change of a file tree keeps it well-formed: a way from a well-named location goes through well-named ones only, as
no step of a path is a step to anything but the name of an entry, and a change puts at most one node, where a way leads.
So every tree that a listing describes is well-formed.
-/

namespace ResourceIndex.FileSystem

variable {fs made : FileSystem} {l found : Location} {n : Node} {p : Path}

/-- A way can lead through each of the names. -/
def IsWellNamed (l : Location) : Prop :=
  ∀ name ∈ l, IsEntryName name

/-! ### Ways -/

theorem not_mem_of_mem_splitOn {c : Char} {cs segment : List Char} (h : segment ∈ cs.splitOn c) : c ∉ segment := by
  induction cs generalizing segment with
  | nil =>
    obtain rfl : segment = [] := by simpa using h
    exact List.not_mem_nil
  | cons d cs ih =>
    obtain ⟨first, others, hsplit⟩ := List.exists_cons_of_ne_nil (List.splitOn_ne_nil c cs)
    rw [hsplit] at ih
    rw [List.splitOn_cons_eq_if_modifyHead, hsplit] at h
    split at h
    next =>
      obtain rfl | h := List.mem_cons.mp h
      · exact List.not_mem_nil
      · exact ih h
    next hne =>
      rw [List.modifyHead_cons] at h
      obtain rfl | h := List.mem_cons.mp h
      · have hdc : c ≠ d := fun heq => hne (by simp [heq])
        exact List.not_mem_cons_of_ne_of_not_mem hdc (ih List.mem_cons_self)
      · exact ih (List.mem_cons_of_mem _ h)

theorem isEntryName_of_ofSegment {segment : List Char} {name : String} (hslash : '/' ∉ segment)
    (h : Step.ofSegment segment = .child name) : IsEntryName name := by
  unfold Step.ofSegment at h
  split at h
  next => exact absurd h (by simp)
  next => exact absurd h (by simp)
  next => exact absurd h (by simp)
  next hempty hstay hup =>
    obtain rfl := Step.child.inj h
    have hne {cs : List Char} (hcs : segment ≠ cs) : String.ofList segment ≠ String.ofList cs :=
      fun heq => hcs (String.ofList_injective heq)
    rw [IsEntryName, String.toList_ofList]
    refine ⟨hslash, ?_⟩
    simp only [List.mem_cons, List.not_mem_nil, or_false, not_or]
    exact ⟨hne hempty, hne hstay, hne hup⟩

/-- Every step to a name is one to the name of an entry. -/
theorem isEntryName_of_mem_stepsOf {name : String} (h : .child name ∈ stepsOf p) : IsEntryName name := by
  obtain ⟨segment, hsegment, hstep⟩ := List.mem_map.mp h
  exact isEntryName_of_ofSegment (not_mem_of_mem_splitOn hsegment) hstep

theorem isWellNamed_startOf (p : Path) (hl : IsWellNamed l) : IsWellNamed (startOf p l) := by
  rw [startOf]
  split
  next => exact List.forall_mem_nil _
  next => exact hl

theorem IsWellNamed.append {name : String} (hl : IsWellNamed l) (hname : IsEntryName name) :
    IsWellNamed (l ++ [name]) :=
  List.forall_mem_append.mpr ⟨hl, List.forall_mem_singleton.mpr hname⟩

theorem IsWellNamed.walk {aim : Aim} {links : Nat} {steps : List Step} (hl : IsWellNamed l)
    (hsteps : ∀ name, .child name ∈ steps → IsEntryName name) (h : fs.walk aim links l steps = .ok found) :
    IsWellNamed found := by
  fun_induction FileSystem.walk fs aim links l steps with
  -- the end of the way, or an entry at the end, be it missing or a link
  | case1 => exact Except.ok.inj h ▸ hl
  | case8 | case10 => exact Except.ok.inj h ▸ hl.append (hsteps _ List.mem_cons_self)
  -- no way
  | case2 | case6 | case7 | case9 | case11 => exact absurd h (by simp)
  -- a step that stays, one up, one to a node that is no link, and one through a link
  | case3 _ _ _ _ ih | case4 _ _ _ _ ih => exact ih hl (fun name hname => hsteps name (List.mem_cons_of_mem _ hname)) h
  | case5 _ _ _ _ ih =>
    refine ih (fun name hname => hl name (List.mem_of_mem_dropLast hname)) (fun name hname => ?_) h
    exact hsteps name (List.mem_cons_of_mem _ hname)
  | case12 _ _ _ _ _ _ _ _ _ _ _ ih =>
    refine ih (isWellNamed_startOf _ hl) (fun name hname => ?_) h
    obtain hname | hname := List.mem_append.mp hname
    · exact isEntryName_of_mem_stepsOf hname
    · exact hsteps name (List.mem_cons_of_mem _ hname)
  | case13 _ _ _ _ _ _ _ _ _ _ _ ih =>
    refine ih (hl.append (hsteps _ List.mem_cons_self)) (fun name hname => ?_) h
    exact hsteps name (List.mem_cons_of_mem _ hname)

theorem WellFormed.locate {aim : Aim} (hfs : fs.WellFormed) (h : fs.locate aim p = .ok l) : IsWellNamed l := by
  obtain ⟨-, -, h⟩ := bind_eq_ok h
  obtain ⟨-, h⟩ := of_check_eq_ok h
  exact (isWellNamed_startOf p hfs.start).walk (fun _ => isEntryName_of_mem_stepsOf) h

/-! ### Changes -/

theorem WellFormed.put (hfs : fs.WellFormed) (hl : IsWellNamed l) (n : Node) : (fs.put l n).WellFormed where
  nodup := by
    rw [FileSystem.put, List.map_cons, List.nodup_cons]
    refine ⟨?_, hfs.nodup.sublist (List.filter_sublist.map _)⟩
    simp
  names := by
    refine List.forall_mem_cons.mpr ⟨hl, fun entry hentry => ?_⟩
    exact hfs.names entry (List.mem_of_mem_filter hentry)
  start := hfs.start

/-- Nothing that is taken away is missed. -/
theorem WellFormed.filter (hfs : fs.WellFormed) (keep : Location × Node → Bool) :
    WellFormed { fs with nodes := fs.nodes.filter keep } where
  nodup := hfs.nodup.sublist (List.filter_sublist.map _)
  names entry hentry := hfs.names entry (List.mem_of_mem_filter hentry)
  start := hfs.start

theorem WellFormed.write {content : ByteArray} (hfs : fs.WellFormed) (h : fs.write p content = .ok made) :
    made.WellFormed := by
  obtain ⟨l, hl, h⟩ := bind_eq_ok h
  obtain ⟨-, h⟩ := of_check_eq_ok h
  exact Except.ok.inj h ▸ hfs.put (hfs.locate hl) _

theorem WellFormed.makeLink {target : Path} (hfs : fs.WellFormed) (h : fs.makeLink p target = .ok made) :
    made.WellFormed := by
  obtain ⟨-, -, h⟩ := bind_eq_ok h
  obtain ⟨-, h⟩ := of_check_eq_ok h
  obtain ⟨l, hl, h⟩ := bind_eq_ok h
  obtain ⟨-, h⟩ := of_check_eq_ok h
  exact Except.ok.inj h ▸ hfs.put (hfs.locate hl) _

theorem WellFormed.makeDirectory (hfs : fs.WellFormed) (h : fs.makeDirectory p = .ok made) : made.WellFormed := by
  obtain ⟨l, hl, h⟩ := bind_eq_ok h
  obtain ⟨-, h⟩ := of_check_eq_ok h
  exact Except.ok.inj h ▸ hfs.put (hfs.locate hl) _

theorem WellFormed.makeDirectoriesTo {steps : List Path.Component} (hfs : fs.WellFormed)
    (h : fs.makeDirectoriesTo steps = .ok made) : made.WellFormed := by
  fun_induction FileSystem.makeDirectoriesTo fs steps generalizing made with
  | case1 | case7 => exact Except.ok.inj h ▸ hfs
  | @case2 _ _ _ _ hmade => exact Except.ok.inj h ▸ hfs.makeDirectory hmade
  | @case4 _ _ _ _ _ _ hbefore _ hmade ih => exact Except.ok.inj h ▸ (ih hbefore).makeDirectory hmade
  | @case5 _ _ _ _ _ _ hbefore _ _ _ ih => exact Except.ok.inj h ▸ ih hbefore
  | case3 | case6 | case8 => exact absurd h (by simp)

theorem WellFormed.makeDirectories (hfs : fs.WellFormed) (h : fs.makeDirectories p = .ok made) : made.WellFormed := by
  obtain ⟨-, -, h⟩ := bind_eq_ok h
  exact hfs.makeDirectoriesTo h

theorem WellFormed.makeParents (hfs : fs.WellFormed) (h : fs.makeParents p = .ok made) : made.WellFormed := by
  rw [FileSystem.makeParents] at h
  split at h
  next => exact hfs.makeDirectories h
  next => exact Except.ok.inj h ▸ hfs

theorem WellFormed.place (hfs : fs.WellFormed) (h : fs.place p n = .ok made) : made.WellFormed := by
  cases n with
  | directory => exact hfs.makeDirectories h
  | file content =>
    obtain ⟨before, hbefore, h⟩ := bind_eq_ok h
    exact (hfs.makeParents hbefore).write h
  | link target =>
    obtain ⟨before, hbefore, h⟩ := bind_eq_ok h
    exact (hfs.makeParents hbefore).makeLink h

theorem WellFormed.remove (hfs : fs.WellFormed) (p : Path) : (fs.remove p).WellFormed := by
  rw [FileSystem.remove]
  split
  next =>
    split
    next => exact hfs.filter _
    next => exact hfs.filter _
  next => exact hfs

/-! ### Listings -/

theorem wellFormed_empty : WellFormed {} :=
  ⟨List.nodup_nil, List.forall_mem_nil _, List.forall_mem_nil _⟩

/-- Every tree that a listing describes is well-formed. -/
theorem wellFormed_of_ofListing? {lines : List String} (h : ofListing? lines = some fs) : fs.WellFormed := by
  refine foldlM_preserves (fun before line next hbefore hnext => ?_) wellFormed_empty h
  rw [Option.bind_eq_bind, Option.bind_eq_some_iff] at hnext
  obtain ⟨⟨p, n⟩, -, hplace⟩ := hnext
  cases hresult : before.place p n with
  | error fault => exact absurd hplace (by simp [hresult, Except.toOption])
  | ok made =>
    obtain rfl : made = next := by simpa [hresult, Except.toOption] using hplace
    exact hbefore.place hresult

end ResourceIndex.FileSystem
