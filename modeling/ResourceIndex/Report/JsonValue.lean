/-!
# JSON values

Values with records whose fields keep their order, and their text over several lines: two spaces for each level, one
field or item to a line, and nothing between the brackets of an empty list.
-/

namespace ResourceIndex

inductive JsonValue where
  | text (s : String)
  | number (n : Nat)
  | flag (b : Bool)
  | list (items : List JsonValue)
  | record (fields : List (String × JsonValue))

namespace JsonValue

/-- A code in four hexadecimal digits. -/
def codeEscape (c : Char) : List Char :=
  '\\' :: 'u' :: (Nat.toDigits 16 c.toNat).leftpad 4 '0'

/-- A character of a text. -/
def textChar (c : Char) : List Char :=
  match c with
  | '"' => ['\\', '"']
  | '\\' => ['\\', '\\']
  | '\x08' => ['\\', 'b']
  | '\x0c' => ['\\', 'f']
  | '\n' => ['\\', 'n']
  | '\r' => ['\\', 'r']
  | '\t' => ['\\', 't']
  | c => if c.toNat < 0x20 then codeEscape c else [c]

def quoted (s : String) : String :=
  String.ofList ('"' :: s.toList.flatMap textChar ++ ['"'])

/-- The start of a line at some level. -/
def indentation (level : Nat) : String :=
  String.ofList (List.replicate (2 * level) ' ')

/-- Puts parts between brackets, each on a line of its own at the level inside. -/
def block (opening closing : String) (level : Nat) (parts : List String) : String :=
  if parts.isEmpty then opening ++ closing
  else
    opening ++ "\n" ++ ",\n".intercalate (parts.map (indentation (level + 1) ++ ·)) ++ "\n" ++
      indentation level ++ closing

mutual

/-- The text of a value at some level. -/
def toText (level : Nat) : JsonValue → String
  | text s => quoted s
  | number n => toString n
  | flag b => if b then "true" else "false"
  | list items => block "[" "]" level (itemTexts (level + 1) items)
  | record fields => block "\x7b" "\x7d" level (fieldTexts (level + 1) fields)

def itemTexts (level : Nat) : List JsonValue → List String
  | [] => []
  | v :: vs => toText level v :: itemTexts level vs

def fieldTexts (level : Nat) : List (String × JsonValue) → List String
  | [] => []
  | (k, v) :: fs => (quoted k ++ ": " ++ toText level v) :: fieldTexts level fs

end

end JsonValue

end ResourceIndex
