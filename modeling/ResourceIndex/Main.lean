import ResourceIndex.CommandLine.Run
import ResourceIndex.FileSystem.Listing

/-!
# Entry point

The program works on the file tree that is listed on its standard input.
-/

namespace ResourceIndex.CommandLine

/-- The lines of a stream, without their line ends. -/
partial def readLines (input : IO.FS.Stream) : IO (List String) := do
  let line ← input.getLine
  if line.isEmpty then return []
  return String.ofList (line.toList.takeWhile (· ≠ '\n')) :: (← readLines input)

/-- What the variables of the process say. -/
def environment : IO Environment := do
  let home := (← IO.getEnv "HOME").getD ""
  return { home := ⟨home⟩, configHome? := (← IO.getEnv "XDG_CONFIG_HOME").map Path.mk }

/-- Runs the program on the file tree on standard input, and gives its exit code. -/
def runOnInput (args : List String) : IO UInt32 := do
  match FileSystem.ofListing? (← readLines (← IO.getStdin)) with
  | none =>
    IO.eprintln "Error: the file tree on standard input cannot be read"
    return 1
  | some tree =>
    let exit := run tree (← environment) args
    IO.print exit.output
    IO.eprint exit.errors
    return exit.code.toUInt32

end ResourceIndex.CommandLine

def main (args : List String) : IO UInt32 :=
  ResourceIndex.CommandLine.runOnInput args
