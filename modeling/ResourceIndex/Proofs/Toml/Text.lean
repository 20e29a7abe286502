import Mathlib.Data.List.Basic
import ResourceIndex.Toml.Text

/-!
# Strings written and read

In every form a written string is read as it was, with whatever comes behind it left over, unless that starts with a
quote or an apostrophe. Between quotes each character is read back by itself. Among lines the marks of the text stand at
most two in a row, so that three of them end the string, and what stands before the three belongs to it.
-/

namespace ResourceIndex.Toml

variable {c mark : Char} {cs rest : List Char}

@[simp] theorem push_some (c : Char) (text rest : List Char) : push c (some (text, rest)) = some (c :: text, rest) := by
  rfl

/-- Nothing that follows could be taken for a part of a string. -/
def Ends (rest : List Char) : Prop :=
  ∀ mark ∈ ['"', '\''], rest.head? ≠ some mark

/-! ### Characters between quotes -/

theorem toNat_lt_of_not_isPlain (h : isPlain c = false) : c.toNat < 128 := by
  simp only [isPlain, Bool.or_eq_false_iff, Bool.and_eq_false_iff, decide_eq_false_iff_not, not_not] at h
  omega

theorem codedChar?_drop_codeEscape :
    ∀ n < 128, ((codeEscape (Char.ofNat n)).drop 2).length = 4 ∧
      codedChar? ((codeEscape (Char.ofNat n)).drop 2) = some (Char.ofNat n) := by
  decide

/-- A code is read back. -/
theorem exists_codeEscape (h : isPlain c = false) :
    ∃ w x y z, codeEscape c = ['\\', 'u', w, x, y, z] ∧ codedChar? [w, x, y, z] = some c := by
  obtain ⟨hlength, hread⟩ := codedChar?_drop_codeEscape c.toNat (toNat_lt_of_not_isPlain h)
  rw [Char.ofNat_toNat] at hlength hread
  obtain ⟨w, x, y, z, hdigits⟩ : ∃ w x y z, (codeEscape c).drop 2 = [w, x, y, z] := by
    match (codeEscape c).drop 2, hlength with
    | [w, x, y, z], _ => exact ⟨w, x, y, z, rfl⟩
  refine ⟨w, x, y, z, ?_, hdigits ▸ hread⟩
  rw [← hdigits]
  rfl

theorem ne_return_of_isPlain (h : isPlain c) : c ≠ '\r' := by
  rintro rfl
  contradiction

theorem quotedText_cons (hplain : isPlain c) (hquote : c ≠ '"') (hslash : c ≠ '\\') :
    quotedText (c :: rest) = push c (quotedText rest) := by
  rw [quotedText.eq_def]
  split
  all_goals simp_all

theorem quotedText_quotedChar (c : Char) (rest : List Char) :
    quotedText (quotedChar c ++ rest) = push c (quotedText rest) := by
  unfold quotedChar
  split
  case h_8 _ _ _ _ _ hquote hslash =>
    split
    next h => exact quotedText_cons h hquote hslash
    next h =>
      obtain ⟨w, x, y, z, hcode, hread⟩ := exists_codeEscape (Bool.eq_false_iff.mpr h)
      have hstep : quotedText ('\\' :: 'u' :: w :: x :: y :: z :: rest) =
        (codedChar? [w, x, y, z]).bind (push · (quotedText rest)) := rfl
      rw [hread] at hstep
      rw [hcode]
      exact hstep
  all_goals rfl

theorem quotedLines_cons (hplain : isPlain c) (hquote : c ≠ '"') (hslash : c ≠ '\\') :
    quotedLines false (c :: rest) = push c (quotedLines false rest) := by
  have hreturn := ne_return_of_isPlain hplain
  rw [quotedLines.eq_def]
  split
  all_goals simp_all

theorem quotedLines_quotedChar (c : Char) (rest : List Char) :
    quotedLines false (quotedChar c ++ rest) = push c (quotedLines false rest) := by
  unfold quotedChar
  split
  case h_8 _ _ _ _ _ hquote hslash =>
    split
    next h => exact quotedLines_cons h hquote hslash
    next h =>
      obtain ⟨w, x, y, z, hcode, hread⟩ := exists_codeEscape (Bool.eq_false_iff.mpr h)
      have hstep : quotedLines false ('\\' :: 'u' :: w :: x :: y :: z :: rest) =
        (codedChar? [w, x, y, z]).bind (push · (quotedLines false rest)) := rfl
      rw [hread] at hstep
      rw [hcode]
      exact hstep
  all_goals rfl

/-- What is written for a character starts with no quote and with no line break. -/
theorem head?_quotedChar_ne (c : Char) (rest : List Char) :
    ∀ d ∈ ['"', '\n', '\r'], (quotedChar c ++ rest).head? ≠ some d := by
  unfold quotedChar
  split
  case h_8 _ _ hline _ hreturn hquote _ =>
    split
    next => simpa using ⟨hquote, hline, hreturn⟩
    next => simp [codeEscape]
  all_goals simp

/-! ### One line -/

theorem quotedText_flatMap (cs rest : List Char) :
    quotedText (cs.flatMap quotedChar ++ '"' :: rest) = some (cs, rest) := by
  induction cs with
  | nil => rfl
  | cons c cs ih => rw [List.flatMap_cons, List.append_assoc, quotedText_quotedChar, ih, push_some]

theorem literalText_append (rest : List Char) (h : ∀ c ∈ cs, isPlain c ∧ c ≠ '\'') :
    literalText (cs ++ '\'' :: rest) = some (cs, rest) := by
  induction cs with
  | nil => rfl
  | cons c cs ih =>
    obtain ⟨⟨hplain, hmark⟩, h⟩ := List.forall_mem_cons.mp h
    rw [List.cons_append, literalText, if_pos hplain, ih h, push_some]
    exact hmark

/-! ### Several lines

Up to two marks in a row stand for themselves. They are read with what comes behind them: a third one would end the
string. -/

/-- Marks before the three that end a string belong to the string. -/
theorem closing_replicate {run : Nat} (hrun : run ≤ 2) (hrest : rest.head? ≠ some mark) :
    closing mark (List.replicate run mark ++ rest) = (List.replicate run mark, rest) := by
  match run with
  | 0 =>
    match rest with
    | [] => rfl
    | [a] =>
      have ha : a ≠ mark := by simpa using hrest
      simp [closing, ha]
    | a :: b :: rest =>
      have ha : a ≠ mark := by simpa using hrest
      simp [closing, ha]
  | 1 =>
    match rest with
    | [] => simp [closing]
    | b :: rest =>
      have hb : b ≠ mark := by simpa using hrest
      simp [closing, hb]
  | 2 => simp [closing, List.replicate]

/-- A reader that three marks end, and to which fewer of them are characters like others. -/
structure ReadsTo (mark : Char) (read : List Char → Option (List Char × List Char)) : Prop where
  closing : ∀ rest, read (mark :: mark :: mark :: rest) = some (Toml.closing mark rest)
  mark : ∀ rest, (∀ more, rest ≠ mark :: mark :: more) → read (mark :: rest) = push mark (read rest)

namespace ReadsTo

variable {read : List Char → Option (List Char × List Char)} {run : Nat}

theorem closing_replicate (hread : ReadsTo mark read) (hrun : run ≤ 2) (hrest : rest.head? ≠ some mark) :
    read (List.replicate run mark ++ mark :: mark :: mark :: rest) = some (List.replicate run mark, rest) := by
  have hmarks : List.replicate run mark ++ mark :: mark :: mark :: rest =
      mark :: mark :: mark :: (List.replicate run mark ++ rest) := by
    match run with
    | 0 => rfl
    | 1 => rfl
    | 2 => rfl
  rw [hmarks, hread.closing, Toml.closing_replicate hrun hrest]

/-- Up to two marks that no third one follows. -/
theorem replicate (hread : ReadsTo mark read) (hrun : run ≤ 2) (hrest : rest.head? ≠ some mark)
    {text left : List Char} (h : read rest = some (text, left)) :
    read (List.replicate run mark ++ rest) = some (List.replicate run mark ++ text, left) := by
  have hnot : ∀ more, rest ≠ mark :: more := by
    rintro more rfl
    exact hrest rfl
  have hone : read (mark :: rest) = some (mark :: text, left) := by
    rw [hread.mark _ fun more => hnot _, h, push_some]
  match run with
  | 0 => exact h
  | 1 => exact hone
  | 2 =>
    have htwo : ∀ more, mark :: rest ≠ mark :: mark :: more := fun more heq => hnot more (List.cons.inj heq).2
    have hboth : read (mark :: mark :: rest) = some (mark :: mark :: text, left) := by
      rw [hread.mark _ htwo, hone, push_some]
    exact hboth

end ReadsTo

theorem readsTo_quotedLines : ReadsTo '"' (quotedLines false) where
  closing rest := by rw [quotedLines]
  mark rest h := by
    rw [quotedLines.eq_def]
    split
    case h_1 more heq => exact absurd (List.cons.inj heq).2 (h more)
    case h_6 heq =>
      obtain ⟨rfl, rfl⟩ := List.cons.inj heq
      rfl
    all_goals simp_all

/-- What is written among lines is read as it was, also behind a run of quotes. -/
theorem quotedLines_quotedLinesBody {run : Nat} (hrun : run ≤ 2) (cs : List Char) (hrest : rest.head? ≠ some '"') :
    quotedLines false (List.replicate run '"' ++ (quotedLinesBody run cs ++ '"' :: '"' :: '"' :: rest)) =
      some (List.replicate run '"' ++ cs, rest) := by
  induction cs generalizing run with
  | nil =>
    rw [quotedLinesBody, List.nil_append, List.append_nil]
    exact readsTo_quotedLines.closing_replicate hrun hrest
  | cons c cs ih =>
    rw [quotedLinesBody]
    split
    next h =>
      obtain ⟨rfl, hfew⟩ := h
      have hmore := ih (show run + 1 ≤ 2 from hfew)
      rw [List.replicate_succ', List.append_assoc, List.append_assoc] at hmore
      exact hmore
    next =>
      have hread := ih (Nat.zero_le 2)
      rw [List.replicate_zero, List.nil_append, List.nil_append] at hread
      split
      next hline =>
        subst hline
        refine readsTo_quotedLines.replicate hrun (by simp) ?_
        have hstep : quotedLines false ('\n' :: (quotedLinesBody 0 cs ++ '"' :: '"' :: '"' :: rest)) =
          push '\n' (quotedLines false (quotedLinesBody 0 cs ++ '"' :: '"' :: '"' :: rest)) := rfl
        exact hstep.trans (by rw [hread, push_some])
      next =>
        rw [List.append_assoc]
        refine readsTo_quotedLines.replicate hrun (head?_quotedChar_ne c _ '"' (by simp)) ?_
        rw [quotedLines_quotedChar, hread, push_some]

theorem literalLines_cons (hc : c = '\n' ∨ isPlain c) (h : c = '\'' → ∀ more, rest ≠ '\'' :: '\'' :: more) :
    literalLines (c :: rest) = push c (literalLines rest) := by
  rw [literalLines.eq_def]
  split
  case h_1 more heq =>
    obtain ⟨hmark, heq⟩ := List.cons.inj heq
    exact absurd heq (h hmark more)
  case h_2 heq =>
    obtain ⟨rfl, -⟩ := List.cons.inj heq
    simp [isPlain] at hc
  case h_3 heq =>
    obtain ⟨rfl, rfl⟩ := List.cons.inj heq
    simp [hc]
  case h_4 heq => contradiction

theorem readsTo_literalLines : ReadsTo '\'' literalLines where
  closing rest := by rw [literalLines]
  mark rest h := literalLines_cons (.inr rfl) fun _ => h

theorem hasTriple_of_append {before : List Char} (h : hasTriple mark (before ++ cs) = false) :
    hasTriple mark cs = false := by
  induction before with
  | nil => exact h
  | cons c before ih =>
    rw [List.cons_append, hasTriple, Bool.or_eq_false_iff] at h
    exact ih h.2

theorem lt_two_of_hasTriple {run : Nat} (hrun : run ≤ 2)
    (h : hasTriple mark (List.replicate run mark ++ mark :: cs) = false) : run < 2 := by
  by_contra hmany
  obtain rfl : run = 2 := by omega
  simp [hasTriple, List.replicate] at h

/-- A text without three apostrophes in a row is read as it is, also behind a run of them. -/
theorem literalLines_append {run : Nat} (hrun : run ≤ 2) (hcs : ∀ c ∈ cs, c = '\n' ∨ isPlain c)
    (htriple : hasTriple '\'' (List.replicate run '\'' ++ cs) = false) (hrest : rest.head? ≠ some '\'') :
    literalLines (List.replicate run '\'' ++ (cs ++ '\'' :: '\'' :: '\'' :: rest)) =
      some (List.replicate run '\'' ++ cs, rest) := by
  induction cs generalizing run with
  | nil =>
    rw [List.nil_append, List.append_nil]
    exact readsTo_literalLines.closing_replicate hrun hrest
  | cons c cs ih =>
    obtain ⟨hfirst, hothers⟩ := List.forall_mem_cons.mp hcs
    by_cases hmark : c = '\''
    · rw [hmark] at htriple ⊢
      have hmore := ih (lt_two_of_hasTriple hrun htriple) hothers (by rwa [List.replicate_succ', List.append_assoc])
      rw [List.replicate_succ', List.append_assoc, List.append_assoc] at hmore
      exact hmore
    · have hnone : hasTriple '\'' cs = false := by
        rw [← List.singleton_append] at htriple
        exact hasTriple_of_append (hasTriple_of_append htriple)
      have hread := ih (Nat.zero_le 2) hothers hnone
      rw [List.replicate_zero, List.nil_append, List.nil_append] at hread
      refine readsTo_literalLines.replicate hrun (by simpa using hmark) ?_
      rw [List.cons_append, literalLines_cons hfirst fun h => absurd h hmark, hread, push_some]

/-! ### The form of a text -/

theorem isShowable_iff : isShowable cs ↔ ∀ c ∈ cs, c = '\n' ∨ isPlain c := by
  simp [isShowable]

theorem of_formOf_eq_literal (h : formOf cs = .literal) : ∀ c ∈ cs, isPlain c ∧ c ≠ '\'' := by
  unfold formOf at h
  split_ifs at h with hquoted hliteral
  simp only [Bool.and_eq_true, isShowable_iff, Bool.not_eq_true', List.contains_eq_mem, decide_eq_false_iff_not]
    at hliteral
  obtain ⟨⟨hshowable, hmark⟩, hline⟩ := hliteral
  intro c hc
  refine ⟨(hshowable c hc).resolve_left ?_, ?_⟩
  · rintro rfl
    exact hline hc
  · rintro rfl
    exact hmark hc

theorem of_formOf_eq_literalLines (h : formOf cs = .literalLines) :
    (∀ c ∈ cs, c = '\n' ∨ isPlain c) ∧ hasTriple '\'' cs = false := by
  unfold formOf at h
  split_ifs at h with hquoted hliteral hquotedLines hliteralLines
  simpa only [Bool.and_eq_true, isShowable_iff, Bool.not_eq_true'] using hliteralLines

/-! ### Every form -/

theorem text?_quote (h : ∀ more, rest ≠ '"' :: '"' :: more) : text? ('"' :: rest) = quotedText rest := by
  unfold text?
  split
  case h_1 heq => exact absurd (List.cons.inj heq).2 (h _)
  case h_2 heq => rw [(List.cons.inj heq).2]
  all_goals simp_all

theorem text?_apostrophe (h : ∀ more, rest ≠ '\'' :: '\'' :: more) : text? ('\'' :: rest) = literalText rest := by
  unfold text?
  split
  case h_3 heq => exact absurd (List.cons.inj heq).2 (h _)
  case h_4 heq => rw [(List.cons.inj heq).2]
  all_goals simp_all

/-- A line break right behind an opening is dropped, and nothing else is. -/
theorem firstLine_eq_self (h : ∀ c ∈ ['\n', '\r'], cs.head? ≠ some c) : firstLine cs = cs := by
  have hnone : lineBreak? cs = none := by
    unfold lineBreak?
    split
    case h_1 => simp at h
    case h_2 => simp at h
    case h_3 => rfl
  rw [firstLine, hnone, Option.getD_none]

/-- Behind an opening the text starts where it is written. -/
theorem firstLine_opening (cs : List Char) (h : '\n' ∉ cs → ∀ c ∈ ['\n', '\r'], rest.head? ≠ some c) :
    firstLine ((if cs.contains '\n' then ['\n'] else []) ++ rest) = rest := by
  split
  next => rfl
  next hline => exact firstLine_eq_self (h (by simpa using hline))

theorem head?_quotedLinesBody (hline : '\n' ∉ cs) :
    ∀ c ∈ ['\n', '\r'], (quotedLinesBody 0 cs ++ '"' :: rest).head? ≠ some c := by
  cases cs with
  | nil => simp [quotedLinesBody]
  | cons c cs =>
    obtain ⟨hc, -⟩ := not_or.mp (mt List.mem_cons.mpr hline)
    rw [quotedLinesBody]
    split
    next h => simp [h.1]
    next =>
      rw [if_neg (Ne.symm hc), List.append_assoc]
      exact fun d hd => head?_quotedChar_ne c _ d (List.mem_cons_of_mem _ hd)

theorem text?_quoted (cs : List Char) (hrest : rest.head? ≠ some '"') :
    text? ('"' :: cs.flatMap quotedChar ++ ['"'] ++ rest) = some (cs, rest) := by
  have hshort : ∀ more, cs.flatMap quotedChar ++ '"' :: rest ≠ '"' :: '"' :: more := by
    intro more heq
    cases cs with
    | nil => exact hrest (by rw [(List.cons.inj heq).2]; rfl)
    | cons c cs =>
      rw [List.flatMap_cons, List.append_assoc] at heq
      exact head?_quotedChar_ne c _ '"' (by simp) (by rw [heq]; rfl)
  rw [List.cons_append, List.cons_append, List.append_assoc]
  exact (text?_quote hshort).trans (quotedText_flatMap cs rest)

theorem text?_literal (hcs : ∀ c ∈ cs, isPlain c ∧ c ≠ '\'') (hrest : rest.head? ≠ some '\'') :
    text? ('\'' :: cs ++ ['\''] ++ rest) = some (cs, rest) := by
  have hshort : ∀ more, cs ++ '\'' :: rest ≠ '\'' :: '\'' :: more := by
    intro more heq
    cases cs with
    | nil => exact hrest (by rw [(List.cons.inj heq).2]; rfl)
    | cons c cs => exact (hcs c List.mem_cons_self).2 (List.cons.inj heq).1
  rw [List.cons_append, List.cons_append, List.append_assoc]
  exact (text?_apostrophe hshort).trans (literalText_append rest hcs)

theorem text?_quotedLines (cs : List Char) (hrest : rest.head? ≠ some '"') :
    text? (opening '"' cs ++ quotedLinesBody 0 cs ++ ['"', '"', '"'] ++ rest) = some (cs, rest) := by
  have hread := quotedLines_quotedLinesBody (Nat.zero_le 2) cs hrest
  rw [opening, List.append_assoc, List.append_assoc, List.append_assoc]
  have hstart : text? ('"' :: '"' :: '"' :: ((if cs.contains '\n' then ['\n'] else []) ++
      (quotedLinesBody 0 cs ++ '"' :: '"' :: '"' :: rest))) = some (cs, rest) := by
    rw [text?, firstLine_opening cs head?_quotedLinesBody]
    exact hread
  exact hstart

theorem text?_literalLines (hcs : ∀ c ∈ cs, c = '\n' ∨ isPlain c) (htriple : hasTriple '\'' cs = false)
    (hrest : rest.head? ≠ some '\'') :
    text? (opening '\'' cs ++ cs ++ ['\'', '\'', '\''] ++ rest) = some (cs, rest) := by
  have hread := literalLines_append (Nat.zero_le 2) hcs htriple hrest
  have hhead : '\n' ∉ cs → ∀ c ∈ ['\n', '\r'], (cs ++ '\'' :: '\'' :: '\'' :: rest).head? ≠ some c := by
    intro hline
    cases cs with
    | nil => simp
    | cons c cs =>
      have hc : c ≠ '\n' := fun heq => hline (heq ▸ List.mem_cons_self)
      have hreturn := ne_return_of_isPlain ((hcs c List.mem_cons_self).resolve_left hc)
      simpa using ⟨hc, hreturn⟩
  rw [opening, List.append_assoc, List.append_assoc, List.append_assoc]
  have hstart : text? ('\'' :: '\'' :: '\'' :: ((if cs.contains '\n' then ['\n'] else []) ++
      (cs ++ '\'' :: '\'' :: '\'' :: rest))) = some (cs, rest) := by
    rw [text?, firstLine_opening cs hhead]
    exact hread
  exact hstart

/-- A written string is read as it was. -/
theorem text?_writtenText (s : String) (hrest : Ends rest) :
    text? (writtenText s ++ rest) = some (s.toList, rest) := by
  have hquote : rest.head? ≠ some '"' := hrest _ (by simp)
  have hmark : rest.head? ≠ some '\'' := hrest _ (by simp)
  cases hform : formOf s.toList with
  | quoted =>
    simp only [writtenText, hform]
    exact text?_quoted s.toList hquote
  | literal =>
    simp only [writtenText, hform]
    exact text?_literal (of_formOf_eq_literal hform) hmark
  | quotedLines =>
    simp only [writtenText, hform]
    exact text?_quotedLines s.toList hquote
  | literalLines =>
    obtain ⟨hshowable, htriple⟩ := of_formOf_eq_literalLines hform
    simp only [writtenText, hform]
    exact text?_literalLines hshowable htriple hmark

end ResourceIndex.Toml
