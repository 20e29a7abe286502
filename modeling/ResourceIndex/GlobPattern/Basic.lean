/-!
# Glob patterns

A question mark stands for any character, a star for any text, brackets for one of some characters or for none of them.
Two stars that fill a part between slashes stand for any whole leading parts. Slashes and dots are otherwise characters
like all others.
-/

namespace ResourceIndex

/-- Why a text is no pattern. Positions count characters from the start. -/
inductive GlobFault where
  | tooManyStars (position : Nat)
  | starsWithText (position : Nat)
  | brackets (position : Nat)
deriving DecidableEq, Repr

def GlobFault.message : GlobFault → String
  | tooManyStars p => at_ p ++ "wildcards are either regular `*` or recursive `**`"
  | starsWithText p => at_ p ++ "recursive wildcards must form a single path component"
  | brackets p => at_ p ++ "invalid range pattern"
where
  at_ (p : Nat) : String :=
    "Pattern syntax error near position " ++ toString p ++ ": "

/-- Characters from one to another, both included. -/
structure CharRange where
  first : Char
  last : Char
deriving DecidableEq, Repr

def CharRange.holds (r : CharRange) (c : Char) : Bool :=
  r.first ≤ c && c ≤ r.last

/-- The characters that may stand at one place. -/
inductive CharClass where
  | exactly (c : Char)
  | any
  | within (ranges : List CharRange)
  | outside (ranges : List CharRange)
deriving DecidableEq, Repr

def CharClass.holds : CharClass → Char → Bool
  | exactly c, d => c = d
  | any, _ => true
  | within ranges, d => ranges.any (·.holds d)
  | outside ranges, d => !ranges.any (·.holds d)

inductive GlobToken where
  | one (chars : CharClass)
  | anyText
  | anyParts
deriving DecidableEq, Repr

structure GlobPattern where
  tokens : List GlobToken
deriving DecidableEq, Repr

namespace GlobPattern

/-- The ranges that the text between brackets lists. A dash between two characters makes a range of them. -/
def rangesOf : List Char → List CharRange
  | a :: '-' :: b :: rest => ⟨a, b⟩ :: rangesOf rest
  | a :: rest => ⟨a, a⟩ :: rangesOf rest
  | [] => []

/-- Splits the text behind the first character in brackets at the closing bracket. -/
def closing? : List Char → Option (List Char × List Char)
  | [] => none
  | ']' :: rest => some ([], rest)
  | c :: cs => (closing? cs).map fun (inside, rest) => (c :: inside, rest)

/-- Reads the text behind an opening bracket. The first character inside is a member whatever it is. -/
def brackets? : List Char → Option (CharClass × List Char)
  | '!' :: first :: cs => (closing? cs).map fun (inside, rest) => (.outside (rangesOf (first :: inside)), rest)
  | ['!'] => none
  | first :: cs => (closing? cs).map fun (inside, rest) => (.within (rangesOf (first :: inside)), rest)
  | [] => none

theorem length_closing? {cs inside rest : List Char} (h : closing? cs = some (inside, rest)) :
    inside.length + rest.length + 1 = cs.length := by
  fun_induction closing? cs generalizing inside rest with
  | case1 => simp at h
  | case2 => simp_all
  | case3 c cs _ ih =>
    simp only [Option.map_eq_some_iff, Prod.mk.injEq, Prod.exists] at h
    obtain ⟨i, r, hr, rfl, rfl⟩ := h
    have := ih hr
    simp only [List.length_cons]
    omega

theorem length_brackets? {cs rest : List Char} {k : CharClass} (h : brackets? cs = some (k, rest)) :
    rest.length ≤ cs.length := by
  unfold brackets? at h
  split at h <;>
    simp only [Option.map_eq_some_iff, Prod.mk.injEq, Prod.exists, reduceCtorEq] at h
  all_goals
    obtain ⟨i, r, hr, _, rfl⟩ := h
    have := length_closing? hr
    simp only [List.length_cons]
    omega

/-- Reads the tokens of a pattern from a position on. Two stars must follow the start or a slash and be followed by the
end or a slash, and this slash belongs to them. -/
def tokensFrom (position : Nat) (isPartStart : Bool) (cs : List Char) : Except GlobFault (List GlobToken) :=
  match cs with
  | [] => .ok []
  | '*' :: '*' :: '*' :: _ => .error (.tooManyStars (position + 2))
  | '*' :: '*' :: rest =>
    if !isPartStart then .error (.starsWithText (position - 1))
    else
      match rest with
      | [] => .ok [.anyParts]
      | '/' :: more => (tokensFrom (position + 3) true more).map (.anyParts :: ·)
      | _ => .error (.starsWithText (position + 2))
  | '*' :: rest => (tokensFrom (position + 1) false rest).map (.anyText :: ·)
  | '?' :: rest => (tokensFrom (position + 1) false rest).map (.one .any :: ·)
  | '[' :: inside =>
    match _h : brackets? inside with
    | none => .error (.brackets position)
    | some (chars, rest) =>
      (tokensFrom (position + 1 + (inside.length - rest.length)) false rest).map (.one chars :: ·)
  | c :: rest => (tokensFrom (position + 1) (c = '/') rest).map (.one (.exactly c) :: ·)
termination_by cs.length
decreasing_by
  all_goals simp only [List.length_cons]
  all_goals try omega
  have := length_brackets? _h
  omega

def ofText (text : String) : Except GlobFault GlobPattern :=
  (tokensFrom 0 true text.toList).map GlobPattern.mk

end GlobPattern

end ResourceIndex
