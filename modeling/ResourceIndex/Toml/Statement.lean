import ResourceIndex.Toml.Scalar

/-!
# TOML statements

A document is a sequence of lines: headers, repeated headers, and values under dotted keys. An array may run over
several lines and end in a comma; an inline table stays on its line, strings apart, and does not. Values may be
nested, and keys dotted, to a limit.
-/

namespace ResourceIndex.Toml

/-- A line that says something. A path is never empty. -/
inductive Statement where
  | header (path : List String) (key : String)
  | row (path : List String) (key : String)
  | assignment (path : List String) (key : String) (value : Value)

/-- How deep values may be nested, and one less than the count of parts at which a key is too long. -/
def nestingLimit : Nat := 79

def skipBlanks (cs : List Char) : List Char :=
  cs.dropWhile isBlank

/-- Drops blanks, line breaks and comments. -/
def skipLines (inComment : Bool) : List Char → List Char
  | '\r' :: '\n' :: cs => skipLines false cs
  | c :: cs =>
    if c = '\n' then skipLines false cs
    else if inComment then if isPlain c then skipLines true cs else c :: cs
    else if isBlank c then skipLines false cs
    else if c = '#' then skipLines true cs
    else c :: cs
  | [] => []

/-- Reads the end of a line: blanks, perhaps a comment, and a line break or the end of the text. -/
def lineEnd? (cs : List Char) : Option (List Char) :=
  let rest := match skipBlanks cs with
    | '#' :: comment => comment.dropWhile isPlain
    | other => other
  if rest.isEmpty then some [] else lineBreak? rest

/-! ### Keys -/

/-- The character may stand in a key without quotes. -/
def isKeyChar (c : Char) : Bool :=
  c.isAlphanum || c = '-' || c = '_'

def keyPart? (cs : List Char) : Option (String × List Char) :=
  match cs with
  | '"' :: body => (quotedText body).map fun (s, rest) => (String.ofList s, rest)
  | '\'' :: body => (literalText body).map fun (s, rest) => (String.ofList s, rest)
  | _ =>
    let name := cs.takeWhile isKeyChar
    if name.isEmpty then none else some (String.ofList name, cs.dropWhile isKeyChar)

/-- Reads at most `fuel` parts of a key, with dots between them and blanks around them: the parts before the last one,
and the last one. -/
def keyParts? : Nat → List Char → Option ((List String × String) × List Char)
  | 0, _ => none
  | fuel + 1, cs => do
    let (part, rest) ← keyPart? (skipBlanks cs)
    match skipBlanks rest with
    | '.' :: more =>
      let ((path, key), rest) ← keyParts? fuel more
      return ((part :: path, key), rest)
    | rest => return (([], part), rest)

def key? (cs : List Char) : Option ((List String × String) × List Char) :=
  keyParts? nestingLimit cs

/-! ### Values -/

/-- Reads the items of an array, after its bracket, at most `fuel` of them. -/
def items? (item? : List Char → Option (Value × List Char)) : Nat → List Char → Option (List Value × List Char)
  | 0, _ => none
  | fuel + 1, cs =>
    match skipLines false cs with
    | ']' :: rest => some ([], rest)
    | cs => do
      let (v, rest) ← item? cs
      match skipLines false rest with
      | ',' :: rest =>
        let (vs, rest) ← items? item? fuel rest
        return (v :: vs, rest)
      | ']' :: rest => return ([v], rest)
      | _ => none

/-- Reads the value behind a key. -/
def valueBehind? (value? : List Char → Option (Value × List Char)) (cs : List Char) :
    Option (Value × List Char) := do
  value? (skipBlanks (← expect? '=' cs))

/-- Reads the keys and values of an inline table, after its brace, at most `fuel` of them. -/
def pairs? (value? : List Char → Option (Value × List Char)) :
    Nat → Entries → List Char → Option (Entries × List Char)
  | 0, _, _ => none
  | fuel + 1, found, cs => do
    let ((path, key), rest) ← key? cs
    let (v, rest) ← valueBehind? value? rest
    let (_, found) ← Entries.assign path key v .inline found
    match skipBlanks rest with
    | ',' :: rest => pairs? value? fuel found rest
    | '\x7d' :: rest => return (found, rest)
    | _ => none

/-- Reads a value that holds values to the given depth. -/
def value? : Nat → List Char → Option (Value × List Char)
  | 0, cs => scalar? cs
  | depth + 1, cs =>
    match cs with
    | '[' :: rest => (items? (value? depth) rest.length rest).map fun (vs, rest) => (.array vs, rest)
    | '\x7b' :: rest =>
      match skipBlanks rest with
      | '\x7d' :: rest => some (.table .inline [], rest)
      | _ => (pairs? (value? depth) rest.length [] rest).map fun (es, rest) => (.table .inline es, rest)
    | _ => scalar? cs

/-! ### Lines -/

/-- Reads a header between one or two brackets, after them, with the end of its line. -/
def header? (closing : List Char) (cs : List Char) : Option ((List String × String) × List Char) := do
  let (name, rest) ← key? cs
  let rest ← lineEnd? (← closing.isPrefixOf? rest)
  return (name, rest)

def statement? (cs : List Char) : Option (Statement × List Char) :=
  match cs with
  | '[' :: '[' :: rest => (header? [']', ']'] rest).map fun ((path, key), rest) => (.row path key, rest)
  | '[' :: rest => (header? [']'] rest).map fun ((path, key), rest) => (.header path key, rest)
  | _ => do
    let ((path, key), rest) ← key? cs
    let (v, rest) ← valueBehind? (value? nestingLimit) rest
    return (.assignment path key v, ← lineEnd? rest)

/-- Reads lines, at most `fuel` of them. -/
def lines? : Nat → List Char → Option (List Statement)
  | 0, _ => none
  | fuel + 1, cs =>
    match skipBlanks cs with
    | [] => some []
    | c :: cs =>
      if c = '#' ∨ c = '\n' ∨ c = '\r' then do lines? fuel (← lineEnd? (c :: cs))
      else do
        let (s, rest) ← statement? (c :: cs)
        return s :: (← lines? fuel rest)

/-- Reads a document. A byte order mark in front does not count. -/
def statements? (text : String) : Option (List Statement) :=
  let cs := match text.toList with
    | '\ufeff' :: rest => rest
    | all => all
  lines? (cs.length + 1) cs

end ResourceIndex.Toml
