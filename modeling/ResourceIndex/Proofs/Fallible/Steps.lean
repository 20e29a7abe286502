/-!
# Steps that can fail

A chain of steps gives a result if each step does, and then every step can be taken apart from the ones behind it. So it
is with one step for each member of a list.
-/

namespace ResourceIndex

variable {ε α β : Type}

theorem bind_eq_ok {x : Except ε α} {f : α → Except ε β} {b : β} (h : x >>= f = .ok b) :
    ∃ a, x = .ok a ∧ f a = .ok b := by
  cases x with
  | error fault => exact absurd h (by simp [bind, Except.bind])
  | ok a => exact ⟨a, rfl, h⟩

/-- Behind a check, its condition does not hold. -/
theorem of_check_eq_ok {c : Prop} [Decidable c] {fault : ε} {f : PUnit → Except ε β} {b : β}
    (h : (if c then throw fault >>= f else f ⟨⟩) = .ok b) : ¬c ∧ f ⟨⟩ = .ok b := by
  split at h
  next => exact absurd h (by simp [throw, throwThe, MonadExceptOf.throw, bind, Except.bind])
  next hc => exact ⟨hc, h⟩

section MapError

variable {ε' : Type} {f : ε → ε'}

@[simp] theorem mapError_ok (a : α) : Except.mapError f (.ok a) = .ok a := by
  rfl

@[simp] theorem mapError_error (fault : ε) : Except.mapError f (.error fault : Except ε α) = .error (f fault) := by
  rfl

theorem mapError_eq_ok {x : Except ε α} {a : α} (h : x.mapError f = .ok a) : x = .ok a := by
  cases x with
  | error fault => exact absurd h (by simp)
  | ok b => exact congrArg Except.ok (Except.ok.inj h)

end MapError

theorem mapM_eq_ok {f : α → Except ε β} {g : α → β} {l : List α} (h : ∀ a ∈ l, f a = .ok (g a)) :
    l.mapM f = .ok (l.map g) := by
  induction l with
  | nil => rfl
  | cons a l ih =>
    rw [List.mapM_cons, h a List.mem_cons_self, ih fun b hb => h b (List.mem_cons_of_mem _ hb)]
    rfl

theorem mapM_congr {f g : α → Except ε β} {l : List α} (h : ∀ a ∈ l, f a = g a) : l.mapM f = l.mapM g := by
  induction l with
  | nil => rfl
  | cons a l ih =>
    rw [List.mapM_cons, List.mapM_cons, h a List.mem_cons_self, ih fun b hb => h b (List.mem_cons_of_mem _ hb)]

theorem mapM_id_map_ok (l : List α) : (l.map (Except.ok : α → Except ε α)).mapM id = .ok l := by
  have hread : l.mapM (id ∘ (Except.ok : α → Except ε α)) = .ok (l.map id) := mapM_eq_ok fun _ _ => rfl
  rw [List.mapM_map, hread, List.map_id]

/-- Each result is that of one of the members. -/
theorem exists_of_mem_mapM {f : α → Except ε β} {l : List α} {results : List β} (h : l.mapM f = .ok results) {b : β}
    (hb : b ∈ results) : ∃ a ∈ l, f a = .ok b := by
  induction l generalizing results with
  | nil =>
    obtain rfl : [] = results := Except.ok.inj h
    exact absurd hb List.not_mem_nil
  | cons a l ih =>
    rw [List.mapM_cons] at h
    obtain ⟨first, hfirst, h⟩ := bind_eq_ok h
    obtain ⟨rest, hrest, h⟩ := bind_eq_ok h
    obtain rfl : first :: rest = results := Except.ok.inj h
    obtain rfl | hb := List.mem_cons.mp hb
    · exact ⟨a, List.mem_cons_self, hfirst⟩
    · obtain ⟨other, hother, heq⟩ := ih hrest hb
      exact ⟨other, List.mem_cons_of_mem _ hother, heq⟩

/-- What each step of a fold preserves, the fold preserves. -/
theorem foldlM_preserves {σ : Type} {P : σ → Prop} {f : σ → α → Option σ} {l : List α} {start final : σ}
    (hstep : ∀ s a next, P s → f s a = some next → P next) (hstart : P start) (h : l.foldlM f start = some final) :
    P final := by
  induction l generalizing start with
  | nil => exact Option.some.inj h ▸ hstart
  | cons a l ih =>
    rw [List.foldlM_cons, Option.bind_eq_bind, Option.bind_eq_some_iff] at h
    obtain ⟨next, hnext, h⟩ := h
    exact ih (hstep start a next hstart hnext) h

/-- If a function has a result everywhere on a list, the results are those that it has. -/
theorem map_eq_map_some_filterMap {f : α → Option β} {as : List α} (h : ∀ a ∈ as, (f a).isSome) :
    as.map f = (as.filterMap f).map some := by
  induction as with
  | nil => rfl
  | cons a as ih =>
    obtain ⟨b, hb⟩ := Option.isSome_iff_exists.mp (h a List.mem_cons_self)
    rw [List.map_cons, List.filterMap_cons_some hb, List.map_cons, hb, ih fun c hc => h c (List.mem_cons_of_mem _ hc)]

end ResourceIndex
