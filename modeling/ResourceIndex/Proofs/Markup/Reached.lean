import ResourceIndex.Markup.Event

/-!
# Where a reader gets

A reader goes through a text piece by piece, with the elements that are open. What it tells of the whole text is what it
met on its way: every text leads, over the events that are read from it, to one place where the text ends or a piece of
it is faulty. The elements that are open are those that the events have opened and not closed.
-/

namespace ResourceIndex.Markup

variable {names inside : List (List Char)} {cs rest : List Char} {e : Event} {es : List Event} {f : Fault}
  {fault? : Option Fault}

/-- What comes next in a text; what stands before the next bracket is no piece of markup. -/
def next (names : List (List Char)) (cs : List Char) : Step :=
  match cs.dropWhile (· ≠ '<') with
  | [] => .finished
  | _ :: markup => markupStep names markup

/-- The step that ends a reading. -/
def Step.ending : Option Fault → Step
  | none => .finished
  | some f => .fault f

/-! ### Step by step -/

theorem length_rest_next_lt (names : List (List Char)) (hne : cs.dropWhile (· ≠ '<') ≠ []) :
    (next names cs).rest.length < cs.length := by
  rw [next]
  split
  next hnil => exact absurd hnil hne
  next markup hmarkup =>
    have htext := (List.dropWhile_suffix (· ≠ '<') (l := cs)).length_le
    have hpiece := length_rest_markupStep names markup
    rw [hmarkup, List.length_cons] at htext
    omega

theorem next_of_dropWhile_eq_nil (h : cs.dropWhile (· ≠ '<') = []) : next names cs = .finished := by
  rw [next, h]

theorem length_lt_of_next_passed (h : next names cs = .passed rest) : rest.length < cs.length := by
  have hne : cs.dropWhile (· ≠ '<') ≠ [] := fun hnil => by simp [next_of_dropWhile_eq_nil hnil] at h
  simpa [h, Step.rest] using length_rest_next_lt names hne

theorem length_lt_of_next_event (h : next names cs = .event e inside rest) : rest.length < cs.length := by
  have hne : cs.dropWhile (· ≠ '<') ≠ [] := fun hnil => by simp [next_of_dropWhile_eq_nil hnil] at h
  simpa [h, Step.rest] using length_rest_next_lt names hne

/-- A fact about readers holds if it holds where a reading ends, and before a piece if it holds behind it. -/
@[elab_as_elim]
theorem next_induction {motive : List (List Char) → List Char → Prop}
    (ends : ∀ names cs fault?, next names cs = .ending fault? → motive names cs)
    (passed : ∀ names cs rest, next names cs = .passed rest → motive names rest → motive names cs)
    (event : ∀ names cs e inside rest, next names cs = .event e inside rest → motive inside rest → motive names cs)
    (names : List (List Char)) (cs : List Char) : motive names cs := by
  induction hn : cs.length using Nat.strongRecOn generalizing names cs with
  | ind n ih =>
    subst hn
    cases hnext : next names cs with
    | finished => exact ends names cs none hnext
    | fault f => exact ends names cs (some f) hnext
    | passed rest => exact passed names cs rest hnext (ih _ (length_lt_of_next_passed hnext) _ _ rfl)
    | event e inside rest => exact event names cs e inside rest hnext (ih _ (length_lt_of_next_event hnext) _ _ rfl)

theorem readFrom_eq (names : List (List Char)) (cs : List Char) :
    readFrom names cs =
      match next names cs with
      | .finished => ⟨[], none⟩
      | .fault f => ⟨[], some f⟩
      | .passed rest => readFrom names rest
      | .event e inside rest => ⟨e :: (readFrom inside rest).events, (readFrom inside rest).fault?⟩ := by
  rw [readFrom, next]
  split
  next hnil => rw [hnil]
  next markup hmarkup =>
    rw [hmarkup]
    dsimp only
    split <;> simp_all

theorem readFrom_of_ending (h : next names cs = .ending fault?) : readFrom names cs = ⟨[], fault?⟩ := by
  rw [readFrom_eq, h]
  cases fault? <;> rfl

theorem readFrom_of_next_passed (h : next names cs = .passed rest) : readFrom names cs = readFrom names rest := by
  rw [readFrom_eq, h]

theorem readFrom_of_next_event (h : next names cs = .event e inside rest) :
    readFrom names cs = ⟨e :: (readFrom inside rest).events, (readFrom inside rest).fault?⟩ := by
  rw [readFrom_eq, h]

/-! ### Over several steps -/

/-- Over these events, the reader gets from a text with open elements to another one. -/
inductive Reaches : List (List Char) → List Char → List Event → List (List Char) → List Char → Prop
  | refl (names : List (List Char)) (cs : List Char) : Reaches names cs [] names cs
  | passed {names last : List (List Char)} {cs rest behind : List Char} {es : List Event}
    (hnext : next names cs = .passed rest) (hrest : Reaches names rest es last behind) :
    Reaches names cs es last behind
  | event {names inside last : List (List Char)} {cs rest behind : List Char} {e : Event} {es : List Event}
    (hnext : next names cs = .event e inside rest) (hrest : Reaches inside rest es last behind) :
    Reaches names cs (e :: es) last behind

theorem Reaches.readFrom_eq (h : Reaches names cs es inside rest) :
    readFrom names cs = ⟨es ++ (readFrom inside rest).events, (readFrom inside rest).fault?⟩ := by
  induction h with
  | refl => rfl
  | passed hnext _ ih => rw [readFrom_of_next_passed hnext, ih]
  | event hnext _ ih => rw [readFrom_of_next_event hnext, ih, List.cons_append]

/-- A reader gets over all events to where its reading ends. -/
theorem exists_reaches (names : List (List Char)) (cs : List Char) :
    ∃ inside rest, Reaches names cs (readFrom names cs).events inside rest ∧
      next inside rest = .ending (readFrom names cs).fault? := by
  induction names, cs using next_induction with
  | ends names cs fault? hnext =>
    rw [readFrom_of_ending hnext]
    exact ⟨names, cs, .refl names cs, hnext⟩
  | passed names cs rest hnext ih =>
    rw [readFrom_of_next_passed hnext]
    obtain ⟨last, behind, hreaches, hend⟩ := ih
    exact ⟨last, behind, .passed hnext hreaches, hend⟩
  | event names cs e inside rest hnext ih =>
    rw [readFrom_of_next_event hnext]
    obtain ⟨last, behind, hreaches, hend⟩ := ih
    exact ⟨last, behind, .event hnext hreaches, hend⟩

/-- Over these events, the reader of a text gets to its end or to this fault. -/
def Ends (text : String) (es : List Event) (fault? : Option Fault) : Prop :=
  ∃ inside rest, Reaches [] text.toList es inside rest ∧ next inside rest = .ending fault?

theorem ends_iff {text : String} : Ends text es fault? ↔ read text = ⟨es, fault?⟩ := by
  constructor
  · rintro ⟨inside, rest, hreaches, hend⟩
    rw [read, hreaches.readFrom_eq, readFrom_of_ending hend, List.append_nil]
  · intro h
    obtain ⟨inside, rest, hreaches, hend⟩ := exists_reaches [] text.toList
    have hread : readFrom [] text.toList = ⟨es, fault?⟩ := h
    rw [hread] at hreaches hend
    exact ⟨inside, rest, hreaches, hend⟩

/-! ### Open elements -/

/-- The elements open behind an event are those before it, with the one that it opens or without the one that it
closes. -/
def Event.Leads (e : Event) (names inside : List (List Char)) : Prop :=
  match e with
  | .opened tag => inside = tag.name :: names
  | .empty _ => inside = names
  | .closed name => names = name :: inside

theorem leads_of_next_event (h : next names cs = .event e inside rest) : e.Leads names inside := by
  rw [next] at h
  split at h
  next => contradiction
  next markup _ =>
    unfold markupStep at h
    split at h
    next => contradiction
    next => split at h <;> contradiction
    next body =>
      simp only [closingStep] at h
      split at h
      next => contradiction
      next name outer =>
        split at h
        next =>
          obtain ⟨rfl, rfl, -⟩ := Step.event.inj h
          rfl
        next => contradiction
    next =>
      simp only [instructionStep] at h
      split at h <;> contradiction
    next =>
      simp only [tagStep] at h
      split at h
      next => contradiction
      next =>
        split at h
        all_goals
          obtain ⟨rfl, rfl, -⟩ := Step.event.inj h
          rfl

end ResourceIndex.Markup
