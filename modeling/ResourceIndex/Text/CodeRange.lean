/-!
# Ranges of characters

A property of characters that no rule gives is a list of ranges of code points, in ascending order and apart from each
other.
-/

namespace ResourceIndex.Text

/-- Code points from one to another, both included. -/
structure CodeRange where
  first : Nat
  last : Nat
deriving DecidableEq, Repr

def CodeRange.holds (r : CodeRange) (c : Char) : Bool :=
  r.first ≤ c.toNat && c.toNat ≤ r.last

/-- The ranges are in ascending order, with at least one code point between neighbours. -/
def CodeRange.areApart : List CodeRange → Bool
  | a :: b :: rest => a.first ≤ a.last && a.last + 1 < b.first && areApart (b :: rest)
  | [a] => a.first ≤ a.last
  | [] => true

end ResourceIndex.Text
