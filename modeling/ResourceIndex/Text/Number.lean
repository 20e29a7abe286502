/-!
# Decimal numbers in a text

Folder qualifiers and generated ids hold plain decimal numbers. Writing gives the shortest digits, reading takes a
bounded count of ASCII digits, and leading zeros are allowed when a number is read.
-/

namespace ResourceIndex.Text

/-- The decimal digits of a number, without leading zeros. -/
def digits (n : Nat) : List Char :=
  Nat.toDigits 10 n

/-- The digits filled up with zeros on the left to at least `width` places. -/
def paddedDigits (width n : Nat) : List Char :=
  (digits n).leftpad width '0'

/-- The number that a run of decimal digits denotes. -/
def digitsValue (cs : List Char) : Nat :=
  cs.foldl (fun n c => 10 * n + (c.toNat - '0'.toNat)) 0

/-- Reads a number of `least` to `most` ASCII digits that fill the whole text. -/
def number? (least most : Nat) (cs : List Char) : Option Nat :=
  if least ≤ cs.length ∧ cs.length ≤ most ∧ cs.all Char.isDigit then some (digitsValue cs) else none

/-- A number as a 16-bit word, if it fits. -/
def word16? (n : Nat) : Option UInt16 :=
  if n < UInt16.size then some (UInt16.ofNat n) else none

/-- A number as a 32-bit word, if it fits. -/
def word32? (n : Nat) : Option UInt32 :=
  if n < UInt32.size then some (UInt32.ofNat n) else none

/-- A number as a 32-bit word, or the largest word if it does not fit. -/
def saturated (n : Nat) : UInt32 :=
  (word32? n).getD (UInt32.ofNat (UInt32.size - 1))

end ResourceIndex.Text
