import ResourceIndex.Proofs.FileSystem.Changes
import ResourceIndex.Proofs.FileSystem.Walk

/-!
# Files written and read

A file that was written is read at the same path. The way to it passes the nodes it passed before: the only node that is
new stands where the way ends, and a way does not end at a link that it has passed.
-/

namespace ResourceIndex.FileSystem

variable {fs made : FileSystem} {aim : Aim} {links : Nat} {l other start found : Location} {n : Node} {p : Path}
  {steps : List Step} {content : ByteArray}

/-! ### Nodes -/

theorem node?_put_self (hl : l ≠ []) : (fs.put l n).node? l = some n := by
  rw [node?, if_neg hl, put, List.lookup_cons_self]

/-- Nothing changes elsewhere. -/
theorem node?_put_of_ne (hother : other ≠ l) : (fs.put l n).node? other = fs.node? other := by
  have hne : (other == l) = false := beq_false_of_ne hother
  have hkept (nodes : List (Location × Node)) : (nodes.filter (·.1 ≠ l)).lookup other = nodes.lookup other := by
    induction nodes with
    | nil => rfl
    | cons node nodes ih =>
      by_cases hnode : node.1 = l
      · rw [List.filter_cons_of_neg (by simpa using hnode), List.lookup_cons, hnode, hne, ih]
      · rw [List.filter_cons_of_pos (by simpa using hnode), List.lookup_cons, List.lookup_cons, ih]
  rw [node?, node?, put, List.lookup_cons, hne, hkept]

/-- There is a directory at the root. -/
theorem ne_nil_of_isDirectoryAt_eq_false (h : fs.isDirectoryAt l = false) : l ≠ [] := by
  rintro rfl
  exact absurd h (by simp [isDirectoryAt, node?, Node.isDirectory])

/-! ### Ways -/

theorem not_prefix_startOf (hl : l ≠ []) (hstart : ¬l <+: start) (p : Path) : ¬l <+: startOf p start := by
  rw [startOf]
  split
  next => exact fun hbelow => hl (List.prefix_nil.mp hbelow)
  next => exact hstart

/-- A way leads neither to a link nor below one, save from there, or for the entry itself. -/
theorem not_prefix_of_walk {target : Path} (hlink : fs.node? l = some (.link target)) (haim : aim ≠ .entry)
    (hstart : ¬l <+: start) (h : fs.walk aim links start steps = .ok found) : ¬l <+: found := by
  have hroot : l ≠ [] := by
    rintro rfl
    exact absurd hlink (by simp [node?])
  have hchild {here : Location} {name : String} {there : Option Node} (hhere : ¬l <+: here)
      (hthere : fs.node? (here ++ [name]) = there) (hne : there ≠ some (.link target)) : ¬l <+: here ++ [name] := by
    rw [List.prefix_concat_iff]
    rintro (rfl | hbelow)
    · exact hne (hthere ▸ hlink)
    · exact hhere hbelow
  fun_induction FileSystem.walk fs aim links start steps with
  -- the end of the way, and a name at the end where nothing stands
  | case1 => exact Except.ok.inj h ▸ hstart
  | case8 _ _ _ _ _ _ hnone => exact Except.ok.inj h ▸ hchild hstart hnone (by simp)
  -- no way, and a link that is the entry
  | case2 | case6 | case7 | case9 | case11 => exact absurd h (by simp)
  | case10 _ _ _ _ _ _ _ _ _ _ hentry => exact absurd hentry.1 haim
  -- a step that stays, one up, one through a link, and one to a node that is no link
  | case3 _ _ _ _ ih | case4 _ _ _ _ ih => exact ih hstart h
  | case5 _ _ _ _ ih => exact ih (fun hbelow => hstart (hbelow.trans (List.dropLast_prefix _))) h
  | case12 _ _ _ _ _ _ _ _ _ _ _ ih => exact ih (not_prefix_startOf hroot hstart _) h
  | case13 _ _ _ _ _ _ _ _ _ hnolink hnode ih =>
    exact ih (hchild hstart hnode fun heq => hnolink target (Option.some.inj heq)) h

/-- A way to write ends at the file that is written there. -/
theorem walk_put (hfile : fs.isDirectoryAt found = false) (h : fs.walk .write links start steps = .ok found) :
    (fs.put found (.file content)).walk .reach links start steps = .ok found := by
  have hfound := ne_nil_of_isDirectoryAt_eq_false hfile
  -- Nothing else changes: no directory, and no node that the way passes.
  have hdirectory {here : Location} (hhere : ¬(!fs.isDirectoryAt here) = true) :
      (fs.put found (.file content)).isDirectoryAt here := by
    rw [Bool.not_eq_true', Bool.not_eq_false] at hhere
    have hne : here ≠ found := by
      rintro rfl
      exact absurd hhere (by simp [hfile])
    rwa [isDirectoryAt, node?_put_of_ne hne]
  fun_induction FileSystem.walk fs .write links start steps with
  -- the end of the way, and a name at the end where nothing stood
  | case1 => rw [walk, Except.ok.inj h]
  | case8 _ _ hhere _ _ hbytes =>
    obtain rfl := Except.ok.inj h
    rw [walk_child (hdirectory hhere) (Nat.not_lt.mp hbytes) (node?_put_self hfound) (by simp), walk]
  -- no way, and a link that is the entry
  | case2 | case6 | case7 | case9 | case11 => exact absurd h (by simp)
  | case10 _ _ _ _ _ _ _ _ _ _ hentry => exact absurd hentry.1 (by decide)
  -- a step that stays, one up, one through a link, and one to a node that is no link
  | case3 _ _ _ hhere ih => exact (walk_slash _ (hdirectory hhere)).trans (ih h)
  | case4 _ _ _ hhere ih => exact (walk_stay _ (hdirectory hhere)).trans (ih h)
  | case5 _ _ _ hhere ih => exact (walk_up _ (hdirectory hhere)).trans (ih h)
  | case12 here _ hhere name _ _ hbytes target hnode _ left ih =>
    have hne : here ++ [name] ≠ found := by
      rintro rfl
      have hhere : ¬here ++ [name] <+: here := fun hbelow => absurd hbelow.length_le (by simp)
      have hstart := not_prefix_startOf hfound hhere target
      exact not_prefix_of_walk hnode (by decide) hstart h List.prefix_rfl
    rw [← node?_put_of_ne hne] at hnode
    exact (walk_child_link (hdirectory hhere) (Nat.not_lt.mp hbytes) hnode _).trans (ih h)
  | case13 _ here _ hhere name _ _ hbytes n hnolink hnode ih =>
    obtain ⟨there, hthere, hfollow⟩ : ∃ there, (fs.put found (.file content)).node? (here ++ [name]) = some there ∧
        ∀ target, there ≠ .link target := by
      by_cases heq : here ++ [name] = found
      · exact ⟨.file content, by rw [heq, node?_put_self hfound], by simp⟩
      · exact ⟨n, (node?_put_of_ne heq).trans hnode, hnolink⟩
    exact (walk_child (hdirectory hhere) (Nat.not_lt.mp hbytes) hthere hfollow _).trans (ih h)

/-! ### Files -/

/-- A file that was written is found at the same path. -/
theorem find_of_write (h : fs.write p content = .ok made) : ∃ l, made.find p = .ok (l, .file content) := by
  obtain ⟨l, hlocate, h⟩ := bind_eq_ok h
  obtain ⟨hfile, h⟩ := of_check_eq_ok h
  obtain rfl := Except.ok.inj h
  obtain ⟨⟨⟩, hpath, hlocate⟩ := bind_eq_ok hlocate
  obtain ⟨hne, hwalk⟩ := of_check_eq_ok hlocate
  have hfile : fs.isDirectoryAt l = false := Bool.eq_false_iff.mpr hfile
  have hreach : (fs.put l (.file content)).walk .reach linkLimit (startOf p fs.workingDirectory) (stepsOf p) = .ok l :=
    walk_put hfile hwalk
  have hnode : (fs.put l (.file content)).node? l = some (.file content) :=
    node?_put_self (ne_nil_of_isDirectoryAt_eq_false hfile)
  exact ⟨l, find_of_walk hpath hne hreach hnode⟩

theorem readText_of_writeText {text : String} (h : fs.writeText p text = .ok made) : made.readText p = .ok text := by
  obtain ⟨l, hfind⟩ := find_of_write h
  exact readText_of_find hfind

end ResourceIndex.FileSystem
