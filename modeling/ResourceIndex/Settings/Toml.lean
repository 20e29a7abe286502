import ResourceIndex.Settings.Basic
import ResourceIndex.Toml.Document

/-!
# Settings as TOML

A settings file is a TOML document. A key that is missing takes its default and a key that means nothing is passed over,
but a value of the wrong kind refuses the file. Settings are written one key to a line, in a fixed order, and a list of
more than one text with one text to a line.
-/

namespace ResourceIndex.Settings

/-! ### Reading -/

def word? : Toml.Value → Option UInt32
  | .integer (.ofNat n) => Text.word32? n
  | _ => none

def flag? : Toml.Value → Option Bool
  | .boolean b => some b
  | _ => none

def text? : Toml.Value → Option String
  | .text s => some s
  | _ => none

def texts? : Toml.Value → Option (List String)
  | .array vs => vs.mapM text?
  | _ => none

/-- Reads the value of a key, or takes its default. -/
def field? {α : Type} (es : Toml.Entries) (key : String) (default : α) (read? : Toml.Value → Option α) : Option α :=
  match es.lookup key with
  | none => some default
  | some v => read? v

def ofEntries? (es : Toml.Entries) : Option Settings := do
  let d : Settings := {}
  return {
    version := ← field? es "version" d.version word?
    ignorePatterns := ← field? es "ignore_patterns" d.ignorePatterns texts?
    scanInlineIds := ← field? es "scan_inline_ids" d.scanInlineIds flag?
    confirmDefault := ← field? es "confirm_default" d.confirmDefault flag?
    logLevel := ← field? es "log_level" d.logLevel text? }

/-- Reads a settings file and checks what it says. -/
def ofToml (text : String) : Except IndexFault Settings :=
  match Toml.entries? text >>= ofEntries? with
  | none => .error (.malformedSettings "not a settings file")
  | some s => s.validate

/-! ### Writing -/

/-- A line with a key and its value. -/
def line (key : String) (value : List Char) : List Char :=
  key.toList ++ " = ".toList ++ value ++ ['\n']

def writtenTexts : List String → List Char
  | [] => ['[', ']']
  | [s] => '[' :: Toml.writtenText s ++ [']']
  | many =>
    '[' :: '\n' :: (many.flatMap fun s => "    ".toList ++ Toml.writtenText s ++ [',', '\n']) ++ [']']

def writtenFlag (b : Bool) : List Char :=
  if b then "true".toList else "false".toList

def toToml (s : Settings) : String :=
  String.ofList (
    line "version" (Text.digits s.version.toNat) ++
    line "ignore_patterns" (writtenTexts s.ignorePatterns) ++
    line "scan_inline_ids" (writtenFlag s.scanInlineIds) ++
    line "confirm_default" (writtenFlag s.confirmDefault) ++
    line "log_level" (Toml.writtenText s.logLevel))

end ResourceIndex.Settings
