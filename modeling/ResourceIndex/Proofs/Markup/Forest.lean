import ResourceIndex.Proofs.Markup.Gap

/-!
# Elements as trees

The elements of a text form trees. A forest is the elements that follow each other on one level, each with the forest of
its children; a childless element may be written as one empty-element tag or as a start tag and an end tag. Reading a
forest as it is written, with any gaps between its tags, announces its tags in the order of the text. When end tags are
missing at the end of the text, only their events are missing.
-/

namespace ResourceIndex.Markup

/-- Elements that follow each other, with what is known of each. -/
inductive Forest (α : Type) where
  | nil
  /-- an element written as an empty-element tag -/
  | empty (head : α) (rest : Forest α)
  | element (head : α) (children rest : Forest α)
deriving DecidableEq, Repr

namespace Forest

def map {α β : Type} (f : α → β) : Forest α → Forest β
  | nil => nil
  | empty head rest => empty (f head) (rest.map f)
  | element head children rest => element (f head) (children.map f) (rest.map f)

/-- The events that tell of the elements. -/
def events : Forest Tag → List Event
  | nil => []
  | empty tag rest => .empty tag :: rest.events
  | element tag children rest => .opened tag :: (children.events ++ .closed tag.name :: rest.events)

/-- The texts of a forest: its tags, spelled in any way, with gaps before, between and behind them. -/
inductive Written : Forest Head → List Char → Prop
  | nil {gap : List Char} (hgap : IsGap gap) : Written nil gap
  | empty {head : Head} {rest : Forest Head} {gap spelling after : List Char} (hgap : IsGap gap)
    (hhead : head.SpelledAs spelling) (hrest : Written rest after) :
    Written (empty head rest) (gap ++ '<' :: (head.name ++ (spelling ++ '/' :: '>' :: after)))
  | element {head : Head} {children rest : Forest Head} {gap spelling inner blanks after : List Char}
    (hgap : IsGap gap) (hhead : head.SpelledAs spelling) (hchildren : Written children inner)
    (hblanks : ∀ c ∈ blanks, isBlank c) (hrest : Written rest after) :
    Written (element head children rest)
      (gap ++ '<' :: (head.name ++ (spelling ++ '>' :: (inner ++
        '<' :: '/' :: (head.name ++ (blanks ++ '>' :: after))))))

/-- The texts of a forest that may end before its last end tags: of each element that is still open at the end of the
text, the end tag is missing, and nothing else. -/
inductive Truncated : Forest Head → List Char → Prop
  | whole {forest : Forest Head} {text : List Char} (h : Written forest text) : Truncated forest text
  | empty {head : Head} {rest : Forest Head} {gap spelling after : List Char} (hgap : IsGap gap)
    (hhead : head.SpelledAs spelling) (hrest : Truncated rest after) :
    Truncated (empty head rest) (gap ++ '<' :: (head.name ++ (spelling ++ '/' :: '>' :: after)))
  | element {head : Head} {children rest : Forest Head} {gap spelling inner blanks after : List Char}
    (hgap : IsGap gap) (hhead : head.SpelledAs spelling) (hchildren : Written children inner)
    (hblanks : ∀ c ∈ blanks, isBlank c) (hrest : Truncated rest after) :
    Truncated (element head children rest)
      (gap ++ '<' :: (head.name ++ (spelling ++ '>' :: (inner ++
        '<' :: '/' :: (head.name ++ (blanks ++ '>' :: after))))))
  | unclosed {head : Head} {children : Forest Head} {gap spelling inner : List Char} (hgap : IsGap gap)
    (hhead : head.SpelledAs spelling) (hchildren : Truncated children inner) :
    Truncated (element head children nil) (gap ++ '<' :: (head.name ++ (spelling ++ '>' :: inner)))

end Forest

/-! ### Reading one tag -/

variable {names : List (List Char)} {rest : List Char}

theorem closingName_append {name blanks : List Char} (hname : IsName name) (hblanks : ∀ c ∈ blanks, isBlank c) :
    closingName (name ++ blanks) = name := by
  have hreverse : IsName name.reverse := ⟨by simpa using hname.1, fun c hc => hname.2 c (List.mem_reverse.mp hc)⟩
  have hdrop : (name ++ blanks).reverse.dropWhile isBlank = name.reverse := by
    have hkept := hreverse.dropWhile_isBlank []
    rw [List.append_nil] at hkept
    rw [List.reverse_append, List.dropWhile_append_of_pos fun c hc => hblanks c (List.mem_reverse.mp hc), hkept]
  rw [closingName, hdrop]
  split
  next h => exact absurd h hreverse.1
  next => exact List.reverse_reverse name

theorem markupStep_closed {name blanks : List Char} (hname : IsName name) (hblanks : ∀ c ∈ blanks, isBlank c)
    (names : List (List Char)) (rest : List Char) :
    markupStep (name :: names) ('/' :: (name ++ (blanks ++ '>' :: rest))) = .event (.closed name) names rest := by
  have hinside : ∀ c ∈ name ++ blanks, decide (c ≠ '>') = true := by
    intro c hc
    refine decide_eq_true ?_
    rintro rfl
    obtain hc | hc := List.mem_append.mp hc
    · exact absurd (hname.2 _ hc) (by decide)
    · exact absurd (hblanks _ hc) (by decide)
  have hsplit : toBracket (name ++ (blanks ++ '>' :: rest)) = (name ++ blanks, rest) := by
    rw [← List.append_assoc, toBracket, List.takeWhile_append_of_pos hinside, List.dropWhile_append_of_pos hinside,
      List.takeWhile_cons_of_neg (by simp), List.dropWhile_cons_of_neg (by simp), List.append_nil]
    rfl
  rw [markupStep, closingStep, hsplit]
  simp only [closingName_append hname hblanks, if_true]

theorem Head.SpelledAs.readFrom_opened {h : Head} {spelling : List Char} (hs : h.SpelledAs spelling)
    (names : List (List Char)) (rest : List Char) :
    readFrom names ('<' :: (h.name ++ (spelling ++ '>' :: rest))) =
      ⟨.opened ⟨h.name, spelling⟩ :: (readFrom (h.name :: names) rest).events,
        (readFrom (h.name :: names) rest).fault?⟩ :=
  readFrom_of_event (hs.markupStep_opened names rest)

theorem Head.SpelledAs.readFrom_empty {h : Head} {spelling : List Char} (hs : h.SpelledAs spelling)
    (names : List (List Char)) (rest : List Char) :
    readFrom names ('<' :: (h.name ++ (spelling ++ '/' :: '>' :: rest))) =
      ⟨.empty ⟨h.name, spelling⟩ :: (readFrom names rest).events, (readFrom names rest).fault?⟩ :=
  readFrom_of_event (hs.markupStep_empty names rest)

theorem readFrom_closed {name blanks : List Char} (hname : IsName name) (hblanks : ∀ c ∈ blanks, isBlank c)
    (names : List (List Char)) (rest : List Char) :
    readFrom (name :: names) ('<' :: '/' :: (name ++ (blanks ++ '>' :: rest))) =
      ⟨.closed name :: (readFrom names rest).events, (readFrom names rest).fault?⟩ :=
  readFrom_of_event (markupStep_closed hname hblanks names rest)

/-! ### Reading a forest -/

variable {f : Forest Head} {cs : List Char}

theorem Forest.Written.exists_readFrom (h : f.Written cs) :
    ∃ tags : Forest Tag, tags.map Tag.head = f ∧ ∀ names rest, readFrom names (cs ++ rest) =
      ⟨tags.events ++ (readFrom names rest).events, (readFrom names rest).fault?⟩ := by
  induction h with
  | nil hgap => exact ⟨.nil, rfl, hgap⟩
  | @empty head _ gap spelling after hgap hhead _ ih =>
    obtain ⟨rest, rfl, hread⟩ := ih
    refine ⟨.empty ⟨head.name, spelling⟩ rest, by rw [map, hhead.head_eq], fun names more => ?_⟩
    have htext : gap ++ '<' :: (head.name ++ (spelling ++ '/' :: '>' :: after)) ++ more =
        gap ++ '<' :: (head.name ++ (spelling ++ '/' :: '>' :: (after ++ more))) := by simp
    rw [htext, hgap, hhead.readFrom_empty, hread]
    rfl
  | @element head _ _ gap spelling inner blanks after hgap hhead _ hblanks _ ihchildren ihrest =>
    obtain ⟨children, rfl, hinner⟩ := ihchildren
    obtain ⟨rest, rfl, hread⟩ := ihrest
    refine ⟨.element ⟨head.name, spelling⟩ children rest, by rw [map, hhead.head_eq], fun names more => ?_⟩
    have htext : gap ++ '<' :: (head.name ++ (spelling ++ '>' :: (inner ++
          '<' :: '/' :: (head.name ++ (blanks ++ '>' :: after))))) ++ more =
        gap ++ '<' :: (head.name ++ (spelling ++ '>' :: (inner ++
          '<' :: '/' :: (head.name ++ (blanks ++ '>' :: (after ++ more)))))) := by simp
    rw [htext, hgap, hhead.readFrom_opened, hinner, readFrom_closed hhead.name hblanks, hread]
    simp [events]

/-- The events of a truncated text lack only end tags, those at the end. -/
theorem Forest.Truncated.exists_readFrom (h : f.Truncated cs) :
    ∃ (tags : Forest Tag) (read : List Event) (missing : List (List Char)), tags.map Tag.head = f ∧
      read ++ missing.map .closed = tags.events ∧ ∀ names, readFrom names cs = ⟨read, none⟩ := by
  induction h with
  | @whole _ text h =>
    obtain ⟨tags, hmap, hread⟩ := h.exists_readFrom
    refine ⟨tags, tags.events, [], hmap, List.append_nil _, fun names => ?_⟩
    have hall := hread names []
    rwa [readFrom_nil, List.append_nil, List.append_nil] at hall
  | @empty head _ gap spelling after hgap hhead _ ih =>
    obtain ⟨rest, read, missing, rfl, hevents, hread⟩ := ih
    refine ⟨.empty ⟨head.name, spelling⟩ rest, .empty ⟨head.name, spelling⟩ :: read, missing,
      by rw [map, hhead.head_eq], by rw [events, ← hevents, List.cons_append], fun names => ?_⟩
    rw [hgap, hhead.readFrom_empty, hread]
  | @element head _ _ gap spelling inner blanks after hgap hhead hchildren hblanks _ ih =>
    obtain ⟨children, rfl, hinner⟩ := hchildren.exists_readFrom
    obtain ⟨rest, read, missing, rfl, hevents, hread⟩ := ih
    refine ⟨.element ⟨head.name, spelling⟩ children rest,
      .opened ⟨head.name, spelling⟩ :: (children.events ++ .closed head.name :: read), missing,
      by rw [map, hhead.head_eq], by simp [events, ← hevents], fun names => ?_⟩
    rw [hgap, hhead.readFrom_opened, hinner, readFrom_closed hhead.name hblanks, hread]
  | @unclosed head _ gap spelling inner hgap hhead _ ih =>
    obtain ⟨children, read, missing, rfl, hevents, hread⟩ := ih
    refine ⟨.element ⟨head.name, spelling⟩ children .nil, .opened ⟨head.name, spelling⟩ :: read,
      missing ++ [head.name], by rw [map, map, hhead.head_eq], by simp [events, ← hevents], fun names => ?_⟩
    rw [hgap, hhead.readFrom_opened, hread]

end ResourceIndex.Markup
