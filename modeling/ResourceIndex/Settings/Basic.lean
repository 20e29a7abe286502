import ResourceIndex.IndexFault
import ResourceIndex.Text.Blank

/-!
# Settings

What shapes a scan: the names to pass over, whether ids are read from inside layouts, the answer to questions when no
one can be asked, and how much is logged. Settings are checked when they are loaded.
-/

namespace ResourceIndex

structure Settings where
  version : UInt32 := 1
  /-- names that match one of these patterns are passed over -/
  ignorePatterns : List String := [".*", "*~", "Thumbs.db", "CVS"]
  /-- layouts and menus contribute the ids declared inside them -/
  scanInlineIds : Bool := true
  /-- the answer to every question -/
  confirmDefault : Bool := true
  logLevel : String := "info"
deriving DecidableEq, Repr

/-- What is wrong with the settings, if anything is. Patterns are checked first. -/
def Settings.problem? (s : Settings) : Option String :=
  if s.ignorePatterns.any (·.isEmpty) then some "empty ignore pattern"
  else if Text.isBlank s.logLevel then some "log_level must not be empty"
  else none

/-- Refuses settings that make no sense. -/
def Settings.validate (s : Settings) : Except IndexFault Settings :=
  match s.problem? with
  | some problem => .error (.settings problem)
  | none => .ok s

end ResourceIndex
