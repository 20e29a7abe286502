import ResourceIndex.GlobPattern.Basic

/-!
# Names that match a pattern

A pattern matches whole names. What that means is `matchTokens`, which tries every text for every star, in a time that
each star multiplies. A pattern answers by `matchEnds` instead: the answers for all ends of a name are found in one pass
for each token from the answers for the tokens behind it, and they are the same (`matchEnds_eq`).
-/

namespace ResourceIndex.GlobPattern

/-- Every end of a text, the whole text first. -/
def ends : List Char → List (List Char)
  | [] => [[]]
  | c :: cs => (c :: cs) :: ends cs

/-- The ends of a text that start a part, except the whole text, and the empty end. -/
def partEnds : List Char → List (List Char)
  | [] => [[]]
  | c :: cs => if c = '/' then cs :: partEnds cs else partEnds cs

/-- Tokens match a text: they can be given texts that they stand for and that make up the text. -/
def matchTokens : List GlobToken → List Char → Bool
  | [], cs => cs.isEmpty
  | .one _ :: _, [] => false
  | .one chars :: ts, c :: cs => chars.holds c && matchTokens ts cs
  | .anyText :: ts, cs => (ends cs).any (matchTokens ts)
  | .anyParts :: ts, cs => (cs :: partEnds cs).any (matchTokens ts)

/-! ### All ends at once -/

/-- The answers for all ends of a text with one more place in front, from the answers without it. -/
def oneBefore (chars : CharClass) : List Char → List Bool → List Bool
  | [], _ => [false]
  | c :: cs, answers => (chars.holds c && answers.tail.headD false) :: oneBefore chars cs answers.tail

/-- For every answer, whether it or a later one is yes. -/
def anyFrom : List Bool → List Bool
  | [] => []
  | answer :: answers =>
    let later := anyFrom answers
    (answer || later.headD false) :: later

/-- For every end of a text, whether the answer is yes for one of its ends that start a part. -/
def anyPartFrom : List Char → List Bool → List Bool
  | [], answers => answers
  | c :: cs, answers =>
    let later := anyPartFrom cs answers.tail
    ((c = '/' && answers.tail.headD false) || later.headD false) :: later

/-- Whether tokens match, for every end of a text. -/
def matchEnds : List GlobToken → List Char → List Bool
  | [], cs => (ends cs).map List.isEmpty
  | .one chars :: ts, cs => oneBefore chars cs (matchEnds ts cs)
  | .anyText :: ts, cs => anyFrom (matchEnds ts cs)
  | .anyParts :: ts, cs =>
    let answers := matchEnds ts cs
    List.zipWith (· || ·) answers (anyPartFrom cs answers)

/-- The pattern matches a whole name. -/
def holds (p : GlobPattern) (name : String) : Bool :=
  (matchEnds p.tokens name.toList).headD false

theorem headD_map_ends (f : List Char → Bool) (cs : List Char) : ((ends cs).map f).headD false = f cs := by
  cases cs <;> rfl

theorem oneBefore_map_ends (chars : CharClass) (ts : List GlobToken) (cs : List Char) :
    oneBefore chars cs ((ends cs).map (matchTokens ts)) = (ends cs).map (matchTokens (.one chars :: ts)) := by
  induction cs with
  | nil => rfl
  | cons c cs ih => simp [ends, oneBefore, matchTokens, ih, headD_map_ends, -List.headD_eq_head?_getD]

theorem anyFrom_map_ends (f : List Char → Bool) (cs : List Char) :
    anyFrom ((ends cs).map f) = (ends cs).map fun e => (ends e).any f := by
  induction cs with
  | nil => rfl
  | cons c cs ih => simp [ends, anyFrom, ih, headD_map_ends, -List.headD_eq_head?_getD]

theorem anyPartFrom_map_ends (f : List Char → Bool) (cs : List Char) :
    anyPartFrom cs ((ends cs).map f) = (ends cs).map fun e => (partEnds e).any f := by
  induction cs with
  | nil => simp [ends, anyPartFrom, partEnds]
  | cons c cs ih =>
    by_cases h : c = '/' <;>
      simp [ends, anyPartFrom, partEnds, ih, h, headD_map_ends, -List.headD_eq_head?_getD]

/-- Answering for all ends at once gives the same answers as trying every text for every star. -/
theorem matchEnds_eq (ts : List GlobToken) (cs : List Char) : matchEnds ts cs = (ends cs).map (matchTokens ts) := by
  induction ts with
  | nil => rfl
  | cons t ts ih =>
    cases t with
    | one chars => rw [matchEnds, ih, oneBefore_map_ends]
    | anyText => simp [matchEnds, ih, anyFrom_map_ends, matchTokens]
    | anyParts => simp [matchEnds, ih, anyPartFrom_map_ends, matchTokens, List.zipWith_map]

theorem holds_eq (p : GlobPattern) (name : String) : p.holds name = matchTokens p.tokens name.toList := by
  rw [holds, matchEnds_eq, headD_map_ends]

end ResourceIndex.GlobPattern
