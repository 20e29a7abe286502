/-!
# TOML strings

A string stands between quotes or between apostrophes, once or three times. Between quotes a backslash escapes; between
apostrophes everything stands for itself. Three quotes or apostrophes hold line breaks, each read as one line feed, and
the one right behind the opening is dropped. Control characters except the tab never stand for themselves.

A string is written in the first form that holds it without an escape, other than for a tab, and with escapes between
quotes if no form does.
-/

namespace ResourceIndex.Toml

/-- Space and tab separate the parts of a line. -/
def isBlank (c : Char) : Bool :=
  c = ' ' || c = '\t'

/-- The character may stand for itself in a string or a comment. -/
def isPlain (c : Char) : Bool :=
  c = '\t' || (0x20 ≤ c.toNat && c.toNat ≠ 0x7F)

/-- Takes a line break off. -/
def lineBreak? : List Char → Option (List Char)
  | '\n' :: cs => some cs
  | '\r' :: '\n' :: cs => some cs
  | _ => none

/-! ### Reading -/

/-- What a letter behind a backslash stands for. -/
def escaped? : Char → Option Char
  | 'b' => some '\x08'
  | 'f' => some '\x0c'
  | 'n' => some '\n'
  | 'r' => some '\r'
  | 't' => some '\t'
  | '\\' => some '\\'
  | '"' => some '"'
  | _ => none

def hexDigit? (c : Char) : Option Nat :=
  if c.isDigit then some (c.toNat - '0'.toNat)
  else if 'a' ≤ c ∧ c ≤ 'f' then some (c.toNat - 'a'.toNat + 10)
  else if 'A' ≤ c ∧ c ≤ 'F' then some (c.toNat - 'A'.toNat + 10)
  else none

def hexValue? (cs : List Char) : Option Nat :=
  (cs.mapM hexDigit?).map fun ds => ds.foldl (fun n d => 16 * n + d) 0

/-- The character with a code in hexadecimal digits. -/
def codedChar? (cs : List Char) : Option Char :=
  (hexValue? cs).bind fun n => if n.isValidChar then some (Char.ofNat n) else none

/-- Puts a character in front of what is read. -/
def push (c : Char) (read : Option (List Char × List Char)) : Option (List Char × List Char) :=
  read.map fun (text, rest) => (c :: text, rest)

/-- Reads to the closing quote. -/
def quotedText : List Char → Option (List Char × List Char)
  | '"' :: cs => some ([], cs)
  | '\\' :: 'u' :: a :: b :: c :: d :: cs => (codedChar? [a, b, c, d]).bind (push · (quotedText cs))
  | '\\' :: 'U' :: a :: b :: c :: d :: e :: f :: g :: h :: cs =>
    (codedChar? [a, b, c, d, e, f, g, h]).bind (push · (quotedText cs))
  | '\\' :: e :: cs => (escaped? e).bind (push · (quotedText cs))
  | c :: cs => if isPlain c && c ≠ '\\' then push c (quotedText cs) else none
  | [] => none

/-- Reads to the closing apostrophe. -/
def literalText : List Char → Option (List Char × List Char)
  | '\'' :: cs => some ([], cs)
  | c :: cs => if isPlain c then push c (literalText cs) else none
  | [] => none

/-- Behind three closing marks up to two more belong to the text before them. -/
def closing (mark : Char) : List Char → List Char × List Char
  | a :: b :: cs => if a = mark then if b = mark then ([mark, mark], cs) else ([mark], b :: cs) else ([], a :: b :: cs)
  | [a] => if a = mark then ([mark], []) else ([], [a])
  | [] => ([], [])

/-- Reads to three closing quotes. Behind a backslash at the end of a line, `skipping` is set, and all blanks and line
breaks are passed over. -/
def quotedLines (skipping : Bool) : List Char → Option (List Char × List Char)
  | '"' :: '"' :: '"' :: cs => some (closing '"' cs)
  | '\\' :: 'u' :: a :: b :: c :: d :: cs => (codedChar? [a, b, c, d]).bind (push · (quotedLines false cs))
  | '\\' :: 'U' :: a :: b :: c :: d :: e :: f :: g :: h :: cs =>
    (codedChar? [a, b, c, d, e, f, g, h]).bind (push · (quotedLines false cs))
  | '\\' :: e :: cs =>
    if isBlank e || e = '\n' || e = '\r' then
      if (lineBreak? ((e :: cs).dropWhile isBlank)).isSome then quotedLines true cs else none
    else (escaped? e).bind (push · (quotedLines false cs))
  | '\r' :: '\n' :: cs => if skipping then quotedLines true cs else push '\n' (quotedLines false cs)
  | c :: cs =>
    if c = '\n' || isBlank c then if skipping then quotedLines true cs else push c (quotedLines false cs)
    else if isPlain c && c ≠ '\\' then push c (quotedLines false cs)
    else none
  | [] => none

/-- Reads to three closing apostrophes. -/
def literalLines : List Char → Option (List Char × List Char)
  | '\'' :: '\'' :: '\'' :: cs => some (closing '\'' cs)
  | '\r' :: '\n' :: cs => push '\n' (literalLines cs)
  | c :: cs => if c = '\n' || isPlain c then push c (literalLines cs) else none
  | [] => none

/-- The text behind an opening, without a line break right there. -/
def firstLine (cs : List Char) : List Char :=
  (lineBreak? cs).getD cs

/-- Reads a string in any form. -/
def text? : List Char → Option (List Char × List Char)
  | '"' :: '"' :: '"' :: cs => quotedLines false (firstLine cs)
  | '"' :: cs => quotedText cs
  | '\'' :: '\'' :: '\'' :: cs => literalLines (firstLine cs)
  | '\'' :: cs => literalText cs
  | _ => none

/-! ### Writing -/

inductive TextForm where
  | quoted
  | literal
  | quotedLines
  | literalLines
deriving DecidableEq, Repr

/-- Somewhere in the text a mark stands three times in a row. -/
def hasTriple (mark : Char) : List Char → Bool
  | [] => false
  | c :: cs => [mark, mark, mark].isPrefixOf (c :: cs) || hasTriple mark cs

/-- A line break apart, every character may stand for itself. -/
def isShowable (cs : List Char) : Bool :=
  cs.all fun c => c = '\n' || isPlain c

/-- The form in which a string is written. -/
def formOf (cs : List Char) : TextForm :=
  if isShowable cs && !cs.contains '"' && !cs.contains '\\' && !cs.contains '\n' then .quoted
  else if isShowable cs && !cs.contains '\'' && !cs.contains '\n' then .literal
  else if isShowable cs && !cs.contains '\\' && !hasTriple '"' cs then .quotedLines
  else if isShowable cs && !hasTriple '\'' cs then .literalLines
  else if cs.contains '\n' then .quotedLines
  else .quoted

/-- A code in four hexadecimal digits. -/
def codeEscape (c : Char) : List Char :=
  let digits := (Nat.toDigits 16 c.toNat).map Char.toUpper
  '\\' :: 'u' :: digits.leftpad 4 '0'

/-- A character between quotes. -/
def quotedChar : Char → List Char
  | '\x08' => ['\\', 'b']
  | '\t' => ['\\', 't']
  | '\n' => ['\\', 'n']
  | '\x0c' => ['\\', 'f']
  | '\r' => ['\\', 'r']
  | '"' => ['\\', '"']
  | '\\' => ['\\', '\\']
  | c => if isPlain c then [c] else codeEscape c

/-- Characters between three quotes, behind `run` quotes that stand for themselves. Every third quote in a row is
escaped. -/
def quotedLinesBody (run : Nat) : List Char → List Char
  | [] => []
  | c :: cs =>
    if c = '"' ∧ run < 2 then c :: quotedLinesBody (run + 1) cs
    else if c = '\n' then c :: quotedLinesBody 0 cs
    else quotedChar c ++ quotedLinesBody 0 cs

/-- Three marks. Behind the opening ones a text of several lines starts on a line of its own. -/
def opening (mark : Char) (cs : List Char) : List Char :=
  [mark, mark, mark] ++ if cs.contains '\n' then ['\n'] else []

def writtenText (s : String) : List Char :=
  let cs := s.toList
  match formOf cs with
  | .quoted => '"' :: cs.flatMap quotedChar ++ ['"']
  | .literal => '\'' :: cs ++ ['\'']
  | .quotedLines => opening '"' cs ++ quotedLinesBody 0 cs ++ ['"', '"', '"']
  | .literalLines => opening '\'' cs ++ cs ++ ['\'', '\'', '\'']

end ResourceIndex.Toml
