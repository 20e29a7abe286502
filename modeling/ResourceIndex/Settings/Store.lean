import ResourceIndex.FileSystem.Basic
import ResourceIndex.Settings.Toml

/-!
# Settings files

Settings are kept in a file, by default one below the user's configuration directory. Saving makes the directories that
are missing. Without a default file the defaults hold.
-/

namespace ResourceIndex

/-- What the environment says about the user's directories, and the home of the user's account. -/
structure Environment where
  home : Path
  configHome? : Option Path := none
  accountHome : Path := ⟨"/root"⟩
deriving DecidableEq, Repr

namespace Environment

/-- The user's home directory. An empty path set for it does not count. -/
def userHome (e : Environment) : Path :=
  if e.home.text.isEmpty then e.accountHome else e.home

/-- The directory of the user's configuration. A relative path set for it does not count. -/
def configHome (e : Environment) : Path :=
  match e.configHome? with
  | some p => if p.isAbsolute then p else e.userHome.join ".config"
  | none => e.userHome.join ".config"

def settingsDirectory (e : Environment) : Path :=
  e.configHome.join "r-droid"

def settingsFile (e : Environment) : Path :=
  e.settingsDirectory.join "resources.toml"

end Environment

namespace Settings

def fileFault (f : FileFault) : IndexFault :=
  .file f.message

def load (fs : FileSystem) (p : Path) : Except IndexFault Settings := do
  ofToml (← (fs.readText p).mapError fileFault)

/-- Loads settings from the default file, if it is there. -/
def loadDefault (fs : FileSystem) (e : Environment) : Except IndexFault Settings :=
  if fs.isPresent e.settingsFile then load fs e.settingsFile else .ok {}

def save (s : Settings) (fs : FileSystem) (p : Path) : Except IndexFault FileSystem := do
  let ready ← (fs.makeParents p).mapError fileFault
  (ready.writeText p s.toToml).mapError fileFault

end Settings

end ResourceIndex
