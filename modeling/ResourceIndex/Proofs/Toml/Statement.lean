import ResourceIndex.Proofs.Toml.Scalar

/-!
# Values and lines read

A value is read as it was written, whatever stands behind its line. A list of strings is read the same on one line and
with one string to a line, each with a comma behind it. A name of letters, digits and dashes is a key.
-/

namespace ResourceIndex.Toml

variable {c : Char} {cs rest : List Char}

/-! ### Values -/

/-- What starts neither a list nor an inline table is a scalar. -/
theorem value?_eq_scalar? (h : c ≠ '[' ∧ c ≠ '\x7b') (depth : Nat) : value? depth (c :: cs) = scalar? (c :: cs) := by
  unfold value?
  split
  case h_1 => rfl
  case h_2 =>
    split
    next heq => exact absurd (List.cons.inj heq).1 h.1
    next heq => exact absurd (List.cons.inj heq).1 h.2
    next => rfl

theorem value?_writtenText (depth : Nat) (s : String) (hrest : Ends rest) :
    value? depth (writtenText s ++ rest) = some (.text s, rest) := by
  have hread := scalar?_writtenText s hrest
  obtain ⟨mark, cs, hwritten, hmark⟩ := exists_writtenText s
  have hscalar : mark ≠ '[' ∧ mark ≠ '\x7b' := by
    obtain rfl | rfl := hmark <;> decide
  rw [hwritten, List.cons_append] at hread ⊢
  rw [value?_eq_scalar? hscalar, hread]

theorem value?_digits (depth : Nat) (rest : List Char) {n : Nat} (hn : n < 2 ^ 63) :
    value? depth (Text.digits n ++ '\n' :: rest) = some (.integer n, '\n' :: rest) := by
  have hread := scalar?_digits rest hn
  cases hdigits : Text.digits n with
  | nil => exact absurd hdigits Nat.toDigits_ne_nil
  | cons d ds =>
    have hd : d.isDigit := Text.isDigit_of_mem_digits (hdigits ▸ List.mem_cons_self)
    have hscalar : d ≠ '[' ∧ d ≠ '\x7b' := by
      constructor <;> (rintro rfl; contradiction)
    rw [hdigits, List.cons_append] at hread
    rw [List.cons_append, value?_eq_scalar? hscalar, hread]

/-! ### Lists of strings -/

theorem skipLines_writtenText (s : String) (rest : List Char) :
    skipLines false (writtenText s ++ rest) = writtenText s ++ rest := by
  obtain ⟨mark, cs, hwritten, rfl | rfl⟩ := exists_writtenText s
  · rw [hwritten]
    rfl
  · rw [hwritten]
    rfl

/-- Strings of a list, one to a line and each with a comma behind it. -/
def textLines (ss : List String) : List Char :=
  ss.flatMap fun s => "    ".toList ++ writtenText s ++ [',', '\n']

theorem length_le_length_textLines (ss : List String) : ss.length ≤ (textLines ss).length := by
  induction ss with
  | nil => exact Nat.le_refl 0
  | cons s ss ih =>
    have hlines : textLines (s :: ss) = "    ".toList ++ writtenText s ++ [',', '\n'] ++ textLines ss := rfl
    rw [hlines, List.length_append, List.length_append, List.length_cons]
    have hend : [',', '\n'].length = 2 := rfl
    omega

section Items

variable {item? : List Char → Option (Value × List Char)} {v : Value} {inner : List Char} {fuel : Nat}

/-- An item with a comma behind it. -/
theorem items?_comma (hcs : skipLines false cs = c :: inner) (hc : c ≠ ']')
    (hitem : item? (c :: inner) = some (v, ',' :: rest)) :
    items? item? (fuel + 1) cs = (items? item? fuel rest).map fun (vs, left) => (v :: vs, left) := by
  rw [items?, hcs]
  split
  next heq => exact absurd (List.cons.inj heq).1 hc
  next =>
    have hcomma : skipLines false (',' :: rest) = ',' :: rest := rfl
    simp only [hitem, Option.bind_eq_bind, Option.bind_some, hcomma]
    cases items? item? fuel rest <;> rfl

/-- The last item, with no comma behind it. -/
theorem items?_last (hcs : skipLines false cs = c :: inner) (hc : c ≠ ']')
    (hitem : item? (c :: inner) = some (v, ']' :: rest)) : items? item? (fuel + 1) cs = some ([v], rest) := by
  rw [items?, hcs]
  split
  next heq => exact absurd (List.cons.inj heq).1 hc
  next =>
    have hbracket : skipLines false (']' :: rest) = ']' :: rest := rfl
    simp only [hitem, Option.bind_eq_bind, Option.bind_some, hbracket]
    rfl

end Items

theorem ends_cons (h : c ≠ '"' ∧ c ≠ '\'') (rest : List Char) : Ends (c :: rest) := by
  intro mark hmark
  rw [List.head?_cons, ne_eq, Option.some.injEq]
  rintro rfl
  simp only [List.mem_cons, List.not_mem_nil, or_false] at hmark
  obtain hmark | hmark := hmark
  · exact h.1 hmark
  · exact h.2 hmark

theorem items?_single (depth fuel : Nat) (s : String) (rest : List Char) :
    items? (value? depth) (fuel + 1) (writtenText s ++ ']' :: rest) = some ([.text s], rest) := by
  have hskip := skipLines_writtenText s (']' :: rest)
  have hitem := value?_writtenText depth s (ends_cons (by decide : ']' ≠ '"' ∧ ']' ≠ '\'') rest)
  obtain ⟨mark, inner, hwritten, hmark⟩ := exists_writtenText s
  have hne : mark ≠ ']' := by
    obtain rfl | rfl := hmark <;> decide
  rw [hwritten, List.cons_append] at hskip hitem ⊢
  exact items?_last hskip hne hitem

theorem items?_textLines (depth : Nat) {fuel : Nat} (ss : List String) (hfuel : ss.length < fuel) (rest : List Char) :
    items? (value? depth) fuel ('\n' :: (textLines ss ++ ']' :: rest)) = some (ss.map .text, rest) := by
  induction ss generalizing fuel with
  | nil =>
    obtain ⟨fuel, rfl⟩ : ∃ n, fuel = n + 1 := ⟨fuel - 1, by omega⟩
    rfl
  | cons s ss ih =>
    obtain ⟨fuel, rfl⟩ : ∃ n, fuel = n + 1 := ⟨fuel - 1, by omega⟩
    have hrest := ih (Nat.lt_of_succ_lt_succ hfuel)
    have hlines : textLines (s :: ss) ++ ']' :: rest =
        "    ".toList ++ (writtenText s ++ ',' :: '\n' :: (textLines ss ++ ']' :: rest)) := by
      simp [textLines]
    have hindent (cs : List Char) : skipLines false ('\n' :: ("    ".toList ++ cs)) = skipLines false cs := rfl
    have hskip := skipLines_writtenText s (',' :: '\n' :: (textLines ss ++ ']' :: rest))
    have hitem := value?_writtenText depth s
      (ends_cons (by decide : ',' ≠ '"' ∧ ',' ≠ '\'') ('\n' :: (textLines ss ++ ']' :: rest)))
    obtain ⟨mark, inner, hwritten, hmark⟩ := exists_writtenText s
    have hne : mark ≠ ']' := by
      obtain rfl | rfl := hmark <;> decide
    rw [← hindent, hwritten, List.cons_append] at hskip
    rw [hwritten, List.cons_append] at hitem
    rw [hlines, hwritten, List.cons_append, items?_comma hskip hne hitem, hrest]
    rfl

/-! ### Lines -/

/-- A character of a key is no blank and opens no string. -/
theorem of_isKeyChar (h : isKeyChar c) : isBlank c = false ∧ c ≠ '"' ∧ c ≠ '\'' := by
  refine ⟨?_, ?_, ?_⟩
  · rw [isBlank, Bool.or_eq_false_iff, decide_eq_false_iff_not, decide_eq_false_iff_not]
    constructor <;> (rintro rfl; contradiction)
  · rintro rfl
    contradiction
  · rintro rfl
    contradiction

theorem skipBlanks_cons (h : isBlank c = false) (cs : List Char) : skipBlanks (c :: cs) = c :: cs := by
  rw [skipBlanks, List.dropWhile_cons_of_neg (by simp [h])]

theorem keyPart?_name (hne : cs ≠ []) (hcs : ∀ c ∈ cs, isKeyChar c) (rest : List Char) :
    keyPart? (cs ++ ' ' :: rest) = some (String.ofList cs, ' ' :: rest) := by
  obtain ⟨c, more, rfl⟩ := List.exists_cons_of_ne_nil hne
  obtain ⟨-, hquote, hmark⟩ := of_isKeyChar (hcs c List.mem_cons_self)
  have htake : (c :: more ++ ' ' :: rest).takeWhile isKeyChar = c :: more := by
    rw [List.takeWhile_append_of_pos hcs, List.takeWhile_cons_of_neg (by decide), List.append_nil]
  have hdrop : (c :: more ++ ' ' :: rest).dropWhile isKeyChar = ' ' :: rest := by
    rw [List.dropWhile_append_of_pos hcs, List.dropWhile_cons_of_neg (by decide)]
  unfold keyPart?
  split
  next heq => exact absurd (List.cons.inj heq).1 hquote
  next heq => exact absurd (List.cons.inj heq).1 hmark
  next => rw [htake, hdrop]; rfl

/-- A name with a blank and an equals sign behind it is a key without dots. -/
theorem key?_name (hne : cs ≠ []) (hcs : ∀ c ∈ cs, isKeyChar c) (rest : List Char) :
    key? (cs ++ ' ' :: '=' :: rest) = some (([], String.ofList cs), '=' :: rest) := by
  have hskip : skipBlanks (cs ++ ' ' :: '=' :: rest) = cs ++ ' ' :: '=' :: rest := by
    obtain ⟨c, more, rfl⟩ := List.exists_cons_of_ne_nil hne
    exact skipBlanks_cons (of_isKeyChar (hcs c List.mem_cons_self)).1 _
  have hequals : skipBlanks (' ' :: '=' :: rest) = '=' :: rest := rfl
  rw [key?, nestingLimit, keyParts?, hskip, keyPart?_name hne hcs]
  simp only [Option.bind_eq_bind, Option.bind_some, hequals]
  rfl

end ResourceIndex.Toml
