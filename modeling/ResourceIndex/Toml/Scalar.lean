import ResourceIndex.Text.Affix
import ResourceIndex.Text.Number
import ResourceIndex.Toml.Text
import ResourceIndex.Toml.Value

/-!
# TOML numbers, truth values and moments

A number may have single underscores between digits. Decimal numbers have no leading zeros; integers fit sixty-four
bits with a sign and may be written in hexadecimal, octal or binary digits without one; a float must not be too large.
Moments are dates, times of day, or both with an optional offset, and exist on the calendar.
-/

namespace ResourceIndex.Toml

/-! ### Digits -/

/-- Reads digits of some kind, after the first one. An underscore must be followed by a digit. -/
def moreDigits (isDigit : Char → Bool) : List Char → Option (List Char × List Char)
  | [] => some ([], [])
  | '_' :: c :: cs => if isDigit c then push c (moreDigits isDigit cs) else none
  | c :: cs =>
    if c = '_' then none
    else if isDigit c then push c (moreDigits isDigit cs)
    else some ([], c :: cs)

/-- Reads at least one digit of some kind. -/
def digits? (isDigit : Char → Bool) : List Char → Option (List Char × List Char)
  | [] => none
  | c :: cs => if isDigit c then push c (moreDigits isDigit cs) else none

/-- Reads a decimal number without leading zeros: a zero stands alone. -/
def decimal? : List Char → Option (List Char × List Char)
  | '0' :: cs => some (['0'], cs)
  | cs => digits? Char.isDigit cs

/-- Takes a sign off, and tells whether it is a minus. -/
def sign : List Char → Bool × List Char
  | '-' :: cs => (true, cs)
  | '+' :: cs => (false, cs)
  | cs => (false, cs)

/-! ### Integers -/

/-- An integer that fits sixty-four bits. -/
def integer? (isNegative : Bool) (magnitude : Nat) : Option Value :=
  if isNegative then if magnitude ≤ Nat.pow 2 63 then some (.integer (Int.negOfNat magnitude)) else none
  else if magnitude < Nat.pow 2 63 then some (.integer (Int.ofNat magnitude)) else none

def magnitude (base : Nat) (cs : List Char) : Nat :=
  cs.foldl (fun n c => base * n + (hexDigit? c).getD 0) 0

def isDigitOf (base : Nat) (c : Char) : Bool :=
  (hexDigit? c).any (· < base)

/-- Reads an integer in a base, after its mark. -/
def based? (base : Nat) (cs : List Char) : Option (Value × List Char) := do
  let (ds, rest) ← digits? (isDigitOf base) cs
  return (← integer? false (magnitude base ds), rest)

/-! ### Floats -/

/-- A number that digits with a power of ten denote is too large for a float: it is rounded to infinity. Only exponents
near the limit need the exact product. -/
def isTooLarge (ds : List Char) (exponent : Int) : Bool :=
  let m := Text.digitsValue ds
  let limit := Nat.pow 2 1024 - Nat.pow 2 970
  let top := (Text.digits m).length + exponent
  if m = 0 ∨ top < 300 then false
  else if 310 < top then true
  else if 0 ≤ exponent then limit ≤ m * Nat.pow 10 exponent.toNat
  else limit * Nat.pow 10 (-exponent).toNat ≤ m

/-- Reads the exponent of a float, after its letter. -/
def exponent? (cs : List Char) : Option (Int × List Char) := do
  let (isNegative, cs) := sign cs
  let (ds, rest) ← digits? Char.isDigit cs
  let n : Int := Text.digitsValue ds
  return (if isNegative then -n else n, rest)

def isExponentMark (c : Char) : Bool :=
  c = 'e' || c = 'E'

/-- Reads the fraction of a float, if there is one. -/
def fraction? : List Char → Option (List Char × List Char)
  | '.' :: cs => digits? Char.isDigit cs
  | cs => some ([], cs)

/-- Reads the rest of a number whose integer digits are read: a float if a point or an exponent follows. -/
def afterInteger (isNegative : Bool) (whole cs : List Char) : Option (Value × List Char) := do
  if cs.head?.any fun c => c = '.' || isExponentMark c then
    let (part, cs) ← fraction? cs
    let (exponent, rest) ← match cs with
      | c :: more => if isExponentMark c then exponent? more else some (0, c :: more)
      | [] => some (0, [])
    if !isNegative && isTooLarge (whole ++ part) (exponent - part.length) then none
    else return (.float (whole ++ '.' :: part), rest)
  else return (← integer? isNegative (Text.digitsValue whole), cs)

/-- Reads infinity or the undefined number. -/
def special? (cs : List Char) : Option (Value × List Char) :=
  match cs with
  | 'i' :: 'n' :: 'f' :: rest => some (.float ['i', 'n', 'f'], rest)
  | 'n' :: 'a' :: 'n' :: rest => some (.float ['n', 'a', 'n'], rest)
  | _ => none

def number? (cs : List Char) : Option (Value × List Char) :=
  match cs with
  | '0' :: 'x' :: rest => based? 16 rest
  | '0' :: 'o' :: rest => based? 8 rest
  | '0' :: 'b' :: rest => based? 2 rest
  | _ =>
    let (isNegative, body) := sign cs
    match special? body with
    | some found => some found
    | none => do
      let (whole, rest) ← decimal? body
      afterInteger isNegative whole rest

/-! ### Moments -/

/-- Reads a number of exactly `count` digits between two bounds. -/
def field? (count least most : Nat) (cs : List Char) : Option (Nat × List Char) :=
  let n := Text.digitsValue (cs.take count)
  if (cs.take count).length = count && (cs.take count).all Char.isDigit && least ≤ n && n ≤ most then
    some (n, cs.drop count)
  else none

/-- Takes a character off. -/
def expect? (c : Char) : List Char → Option (List Char)
  | d :: cs => if c = d then some cs else none
  | [] => none

def daysOf (year month : Nat) : Nat :=
  if month = 2 then if year % 4 = 0 ∧ (year % 100 ≠ 0 ∨ year % 400 = 0) then 29 else 28
  else if month = 4 ∨ month = 6 ∨ month = 9 ∨ month = 11 then 30
  else 31

def date? (cs : List Char) : Option (List Char) := do
  let (year, cs) ← field? 4 0 9999 cs
  let (month, cs) ← field? 2 1 12 (← expect? '-' cs)
  let (_, cs) ← field? 2 1 (daysOf year month) (← expect? '-' cs)
  return cs

/-- Reads the fraction of a second, if there is one. -/
def secondFraction (cs : List Char) : List Char :=
  match cs with
  | '.' :: c :: rest => if c.isDigit then rest.dropWhile Char.isDigit else cs
  | _ => cs

def time? (cs : List Char) : Option (List Char) := do
  let (_, cs) ← field? 2 0 23 cs
  let (_, cs) ← field? 2 0 59 (← expect? ':' cs)
  let (_, cs) ← field? 2 0 60 (← expect? ':' cs)
  return secondFraction cs

/-- Reads an offset, if there is one. -/
def offset? (cs : List Char) : Option (List Char) :=
  match cs with
  | c :: rest =>
    if c = 'Z' ∨ c = 'z' then some rest
    else if c = '+' ∨ c = '-' then do
      let (_, rest) ← field? 2 0 23 rest
      let (_, rest) ← field? 2 0 59 (← expect? ':' rest)
      return rest
    else some cs
  | [] => some []

/-- Four digits and a dash start a date. -/
def startsDate (cs : List Char) : Bool :=
  (field? 4 0 9999 cs).any fun (_, rest) => rest.head? = some '-'

/-- Two digits and a colon start a time. -/
def startsTime (cs : List Char) : Bool :=
  (field? 2 0 99 cs).any fun (_, rest) => rest.head? = some ':'

/-- Reads a moment that starts with a date. A space separates a time only if a time follows. -/
def dated? (cs : List Char) : Option (List Char) := do
  let rest ← date? cs
  match rest with
  | c :: more =>
    if (c = 'T' || c = 't' || c = ' ') && startsTime more then offset? (← time? more) else return rest
  | [] => return []

/-- Reads a moment. -/
def moment? (cs : List Char) : Option (Value × List Char) := do
  let rest ← if startsDate cs then dated? cs else time? cs
  return (.moment (cs.take (cs.length - rest.length)), rest)

/-! ### Scalars -/

/-- Takes a word off. -/
def word? (word : String) (v : Value) (cs : List Char) : Option (Value × List Char) :=
  (word.toList.isPrefixOf? cs).map fun rest => (v, rest)

/-- Reads a value that holds no other values. -/
def scalar? (cs : List Char) : Option (Value × List Char) :=
  match cs with
  | [] => none
  | c :: _ =>
    if c = '"' ∨ c = '\'' then (text? cs).map fun (s, rest) => (.text (String.ofList s), rest)
    else if c = 't' then word? "true" (.boolean true) cs
    else if c = 'f' then word? "false" (.boolean false) cs
    else if startsDate cs || startsTime cs then moment? cs
    else number? cs

end ResourceIndex.Toml
