import Mathlib.Data.List.Infix
import ResourceIndex.GlobPattern.Matching

/-!
# Names that a pattern matches

A pattern matches a name that splits into one text for each of its tokens, in their order, each of which its token may
stand for. That needs no search, so it says what a pattern means apart from how a match is found; the search for a
split, and with it the passes over all ends of a name, find one exactly if there is one (`holds_iff_matches`).
-/

namespace ResourceIndex

/-- The characters that may stand at one place, ranges with both their ends. -/
def CharClass.Contains : CharClass → Char → Prop
  | exactly c, d => d = c
  | any, _ => True
  | within ranges, d => ∃ range ∈ ranges, range.first ≤ d ∧ d ≤ range.last
  | outside ranges, d => ∀ range ∈ ranges, ¬(range.first ≤ d ∧ d ≤ range.last)

theorem CharClass.holds_iff_contains (chars : CharClass) (c : Char) : chars.holds c ↔ chars.Contains c := by
  cases chars with
  | exactly d => simp [holds, Contains, eq_comm]
  | any => simp [holds, Contains]
  | within ranges => simp [holds, Contains, CharRange.holds]
  | outside ranges => simp [holds, Contains, CharRange.holds]

/-- The texts that a token may stand for, with the text that is left behind it. Whole leading parts are none at all, a
text that ends in a slash, or all that there is. -/
def GlobToken.StandsFor : GlobToken → List Char → List Char → Prop
  | one chars, text, _ => ∃ c, text = [c] ∧ chars.Contains c
  | anyText, _, _ => True
  | anyParts, text, rest => text = [] ∨ text.getLast? = some '/' ∨ rest = []

namespace GlobPattern

/-- A text is made up of texts that the tokens may stand for. -/
inductive MadeUpOf : List GlobToken → List Char → Prop where
  | nil : MadeUpOf [] []
  | cons {token : GlobToken} {tokens : List GlobToken} {text rest : List Char}
      (hstands : token.StandsFor text rest) (hrest : MadeUpOf tokens rest) :
      MadeUpOf (token :: tokens) (text ++ rest)

/-- The pattern matches the whole name. -/
def Matches (p : GlobPattern) (name : String) : Prop :=
  MadeUpOf p.tokens name.toList

variable {token : GlobToken} {tokens : List GlobToken} {cs rest : List Char}

theorem madeUpOf_nil_iff : MadeUpOf [] cs ↔ cs = [] := by
  constructor
  · intro h
    cases h with
    | nil => rfl
  · rintro rfl
    exact .nil

theorem madeUpOf_cons_iff :
    MadeUpOf (token :: tokens) cs ↔
      ∃ text rest, text ++ rest = cs ∧ token.StandsFor text rest ∧ MadeUpOf tokens rest := by
  constructor
  · intro h
    cases h with
    | cons hstands hrest => exact ⟨_, _, rfl, hstands, hrest⟩
  · rintro ⟨text, rest, rfl, hstands, hrest⟩
    exact .cons hstands hrest

/-! ### What a token leaves behind it -/

theorem mem_ends_iff : rest ∈ ends cs ↔ rest <:+ cs := by
  have hends : ends cs = cs.tails := by
    induction cs with
    | nil => rfl
    | cons c cs ih => rw [ends, ih, List.tails]
  rw [hends, List.mem_tails]

theorem mem_partEnds_iff : rest ∈ partEnds cs ↔ rest = [] ∨ '/' :: rest <:+ cs := by
  induction cs with
  | nil => simp [partEnds]
  | cons c cs ih =>
    rw [partEnds, List.suffix_cons_iff, List.cons.injEq]
    split
    next hslash =>
      rw [List.mem_cons, ih, hslash]
      tauto
    next hother =>
      rw [ih]
      tauto

/-- Any text leaves any end. -/
theorem mem_ends_iff_standsFor :
    rest ∈ ends cs ↔ ∃ text, text ++ rest = cs ∧ GlobToken.anyText.StandsFor text rest := by
  rw [mem_ends_iff]
  simp only [GlobToken.StandsFor, and_true]
  exact Iff.rfl

/-- Whole leading parts leave the whole text, the start of a part or nothing. -/
theorem mem_cons_partEnds_iff_standsFor :
    rest ∈ cs :: partEnds cs ↔ ∃ text, text ++ rest = cs ∧ GlobToken.anyParts.StandsFor text rest := by
  rw [List.mem_cons, mem_partEnds_iff]
  constructor
  · rintro (rfl | rfl | ⟨parts, rfl⟩)
    · exact ⟨[], rfl, .inl rfl⟩
    · exact ⟨cs, List.append_nil cs, .inr (.inr rfl)⟩
    · exact ⟨parts ++ ['/'], (List.append_cons parts '/' rest).symm, .inr (.inl List.getLast?_concat)⟩
  · rintro ⟨text, rfl, rfl | hslash | rfl⟩
    · exact .inl rfl
    · obtain ⟨parts, rfl⟩ := List.getLast?_eq_some_iff.mp hslash
      exact .inr (.inr ⟨parts, List.append_cons parts '/' rest⟩)
    · exact .inr (.inl rfl)

/-! ### The search -/

/-- A search that tries all that a token can leave tries all splits. -/
theorem any_matchTokens_iff {rests : List (List Char)}
    (hrests : ∀ rest, rest ∈ rests ↔ ∃ text, text ++ rest = cs ∧ token.StandsFor text rest)
    (htokens : ∀ rest, matchTokens tokens rest ↔ MadeUpOf tokens rest) :
    rests.any (matchTokens tokens) ↔ MadeUpOf (token :: tokens) cs := by
  rw [List.any_eq_true, madeUpOf_cons_iff]
  constructor
  · rintro ⟨rest, hmem, hmatch⟩
    obtain ⟨text, hsplit, hstands⟩ := (hrests rest).mp hmem
    exact ⟨text, rest, hsplit, hstands, (htokens rest).mp hmatch⟩
  · rintro ⟨text, rest, hsplit, hstands, hmade⟩
    exact ⟨rest, (hrests rest).mpr ⟨text, hsplit, hstands⟩, (htokens rest).mpr hmade⟩

theorem matchTokens_iff_madeUpOf : matchTokens tokens cs ↔ MadeUpOf tokens cs := by
  induction tokens generalizing cs with
  | nil => rw [matchTokens, List.isEmpty_iff, madeUpOf_nil_iff]
  | cons token tokens ih =>
    cases token with
    | one chars =>
      rw [madeUpOf_cons_iff]
      cases cs with
      | nil => simp [matchTokens, GlobToken.StandsFor]
      | cons c cs =>
        rw [matchTokens, Bool.and_eq_true, CharClass.holds_iff_contains, ih]
        constructor
        · rintro ⟨hc, hrest⟩
          exact ⟨[c], cs, rfl, ⟨c, rfl, hc⟩, hrest⟩
        · rintro ⟨_, rest, hsplit, ⟨d, rfl, hd⟩, hrest⟩
          obtain ⟨rfl, rfl⟩ := List.cons.inj hsplit
          exact ⟨hd, hrest⟩
    | anyText => exact any_matchTokens_iff (fun _ => mem_ends_iff_standsFor) fun _ => ih
    | anyParts => exact any_matchTokens_iff (fun _ => mem_cons_partEnds_iff_standsFor) fun _ => ih

/-- The passes over all ends of a name find a match exactly if there is one. -/
theorem holds_iff_matches (p : GlobPattern) (name : String) : p.holds name ↔ p.Matches name := by
  rw [holds_eq, matchTokens_iff_madeUpOf, Matches]

end GlobPattern

end ResourceIndex
