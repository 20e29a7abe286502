import ResourceIndex.Proofs.Markup.Spelling

/-!
# Between the tags

A stretch of markup that the reader passes over announces nothing, and the reading goes on behind it as if it were not
there. Character data without an opening bracket, comments, marked sections of character data and processing
instructions are such stretches.
-/

namespace ResourceIndex.Markup

/-- The reader passes over the text, wherever it stands between tags. -/
def IsGap (cs : List Char) : Prop :=
  ∀ names rest, readFrom names (cs ++ rest) = readFrom names rest

variable {cs rest : List Char} {names : List (List Char)}

/-! ### One piece of a text -/

theorem readFrom_nil (names : List (List Char)) : readFrom names [] = ⟨[], none⟩ := by
  rw [readFrom]
  rfl

theorem readFrom_cons_of_ne {c : Char} (hc : c ≠ '<') (names : List (List Char)) (cs : List Char) :
    readFrom names (c :: cs) = readFrom names cs := by
  have hdrop : (c :: cs).dropWhile (· ≠ '<') = cs.dropWhile (· ≠ '<') := List.dropWhile_cons_of_pos (by simpa using hc)
  rw [readFrom, readFrom, hdrop]

theorem readFrom_of_passed (h : markupStep names cs = .passed rest) :
    readFrom names ('<' :: cs) = readFrom names rest := by
  have hdrop : ('<' :: cs).dropWhile (· ≠ '<') = '<' :: cs := List.dropWhile_cons_of_neg (by simp)
  rw [readFrom, hdrop]
  simp only
  split <;> simp_all

theorem readFrom_of_event {e : Event} {inside : List (List Char)} (h : markupStep names cs = .event e inside rest) :
    readFrom names ('<' :: cs) = ⟨e :: (readFrom inside rest).events, (readFrom inside rest).fault?⟩ := by
  have hdrop : ('<' :: cs).dropWhile (· ≠ '<') = '<' :: cs := List.dropWhile_cons_of_neg (by simp)
  rw [readFrom, hdrop]
  simp only
  split <;> simp_all

/-! ### Gaps -/

theorem isGap_nil : IsGap [] :=
  fun _ _ => rfl

theorem IsGap.append {left right : List Char} (hleft : IsGap left) (hright : IsGap right) : IsGap (left ++ right) := by
  intro names rest
  rw [List.append_assoc, hleft, hright]

theorem isGap_text (h : '<' ∉ cs) : IsGap cs := by
  induction cs with
  | nil => exact isGap_nil
  | cons c cs ih =>
    intro names rest
    obtain ⟨hc, hcs⟩ := List.ne_and_not_mem_of_not_mem_cons h
    rw [List.cons_append, readFrom_cons_of_ne hc.symm, ih hcs]

/-- A mark is found behind a text that it could only begin, never end, before it. -/
theorem behind?_append {mark body : List Char} (hne : mark ≠ []) (h : ¬mark <:+: body ++ mark.dropLast)
    (rest : List Char) : behind? mark (body ++ (mark ++ rest)) = some rest := by
  induction body with
  | nil =>
    cases mark with
    | nil => exact absurd rfl hne
    | cons m mark =>
      have hprefix : (m :: mark).isPrefixOf? (m :: (mark ++ rest)) = some rest :=
        Text.isPrefixOf?_eq_some_iff.mpr rfl
      rw [List.nil_append, List.cons_append, behind?, hprefix]
  | cons b body ih =>
    have hnone : mark.isPrefixOf? (b :: (body ++ (mark ++ rest))) = none := by
      refine Option.eq_none_iff_forall_ne_some.mpr fun more hmore => h ?_
      -- The mark would have to lie before the last character of the one that follows.
      have hwhole : mark <+: b :: (body ++ (mark ++ rest)) := ⟨more, (Text.isPrefixOf?_eq_some_iff.mp hmore).symm⟩
      have hpart : b :: (body ++ mark.dropLast) <+: b :: (body ++ (mark ++ rest)) := by
        rw [List.prefix_cons_inj, List.prefix_append_right_inj]
        exact (List.dropLast_prefix mark).trans (List.prefix_append mark rest)
      have hlength : mark.length ≤ (b :: (body ++ mark.dropLast)).length := by
        simp only [List.length_cons, List.length_append, List.length_dropLast]
        omega
      exact (List.prefix_of_prefix_length_le hwhole hpart hlength).isInfix
    rw [List.cons_append, behind?, hnone]
    exact ih fun hinner => h (hinner.trans (List.suffix_cons b _).isInfix)

theorem isGap_of_passed (h : ∀ names rest, markupStep names (cs ++ rest) = .passed rest) : IsGap ('<' :: cs) :=
  fun names rest => readFrom_of_passed (h names rest)

theorem isGap_comment {body : List Char} (h : ¬['-', '-', '>'] <:+: body ++ ['-', '-']) :
    IsGap ('<' :: '!' :: '-' :: '-' :: (body ++ ['-', '-', '>'])) := by
  refine isGap_of_passed fun names rest => ?_
  have hbehind := behind?_append (by simp) h rest
  simp only [List.cons_append, List.append_assoc, List.nil_append, markupStep, declaration] at hbehind ⊢
  rw [hbehind]
  rfl

theorem isGap_characterData {body : List Char} (h : ¬[']', ']', '>'] <:+: body ++ [']', ']']) :
    IsGap ('<' :: '!' :: '[' :: 'C' :: 'D' :: 'A' :: 'T' :: 'A' :: '[' :: (body ++ [']', ']', '>'])) := by
  refine isGap_of_passed fun names rest => ?_
  have hbehind := behind?_append (by simp) h rest
  have hword (cs : List Char) :
      dropWord? ['c', 'd', 'a', 't', 'a', '['] ('C' :: 'D' :: 'A' :: 'T' :: 'A' :: '[' :: cs) = some cs := by
    rfl
  simp only [List.cons_append, List.append_assoc, List.nil_append, markupStep, declaration, hword,
    Option.bind_eq_bind, Option.bind_some] at hbehind ⊢
  rw [hbehind]
  rfl

/-- A processing instruction ends at its first `>`. -/
theorem isGap_instruction {body : List Char} (hne : body ≠ []) (h : '>' ∉ body) :
    IsGap ('<' :: '?' :: (body ++ ['?', '>'])) := by
  refine isGap_of_passed fun names rest => ?_
  have hinside : ∀ c ∈ body ++ ['?'], decide (c ≠ '>') = true := by
    intro c hc
    refine decide_eq_true fun heq => h ?_
    simpa [heq] using hc
  have hsplit : toBracket ((body ++ ['?']) ++ '>' :: rest) = (body ++ ['?'], rest) := by
    rw [toBracket, List.takeWhile_append_of_pos hinside, List.dropWhile_append_of_pos hinside,
      List.takeWhile_cons_of_neg (by simp), List.dropWhile_cons_of_neg (by simp), List.append_nil]
    rfl
  have hlength : 1 < (body ++ ['?']).length := by
    simpa using List.length_pos_iff.mpr hne
  have htext : body ++ ['?', '>'] ++ rest = (body ++ ['?']) ++ '>' :: rest := by simp
  rw [List.cons_append, htext, markupStep, instructionStep, hsplit]
  simp only [hlength, List.getLast?_concat, and_self, if_true]

end ResourceIndex.Markup
