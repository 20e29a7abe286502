import ResourceIndex.Text.Invisible
import ResourceIndex.Text.Combining

/-!
# Quoted text

A text is quoted for a message between double quotes. Quotes, backslashes and characters that do not show by themselves
are escaped, so that the reader of the message sees each of them.
-/

namespace ResourceIndex.Text

/-- The character does not show by itself. Between the space and the tilde every character does. -/
def isHidden (c : Char) : Bool :=
  c.toNat < 0x20 || (0x7F ≤ c.toNat && (isInvisible c || isCombining c))

def quotedChar (c : Char) : List Char :=
  match c with
  | '"' => ['\\', '"']
  | '\\' => ['\\', '\\']
  | '\n' => ['\\', 'n']
  | '\r' => ['\\', 'r']
  | '\t' => ['\\', 't']
  | '\x00' => ['\\', '0']
  | c => if isHidden c then ['\\', 'u', '\x7b'] ++ Nat.toDigits 16 c.toNat ++ ['\x7d'] else [c]

def quoted (s : String) : String :=
  String.ofList ('"' :: s.toList.flatMap quotedChar ++ ['"'])

end ResourceIndex.Text
