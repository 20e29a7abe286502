import ResourceIndex.Command
import ResourceIndex.CommandLine.Arguments
import ResourceIndex.Progress.Bar
import ResourceIndex.Report.Json
import ResourceIndex.Report.Text
import ResourceIndex.Settings.Store

/-!
# The program

The program loads its settings, runs a command, and writes the report, or says what went wrong.
-/

namespace ResourceIndex.CommandLine

def programName : String := "rdroid-res"

def title : String := "R-Droid Resources"

def version : String := "0.1.0"

structure Exit where
  code : Nat
  output : String := ""
  errors : String := ""
deriving DecidableEq, Repr

/-- A text whose first line starts with `first` and whose other lines start with `rest`. -/
def indented (first rest text : String) : String :=
  first ++ String.ofList (text.toList.flatMap fun c => if c = '\n' then '\n' :: rest.toList else [c])

/-- How causes are told, one below the other. Several causes are numbered. -/
def causesText : List String → String
  | [] => ""
  | [cause] => "\n\nCaused by:\n" ++ indented "    " "    " cause
  | causes =>
    "\n\nCaused by:" ++ String.join (causes.zipIdx.map fun (cause, n) =>
      "\n" ++ indented ("    " ++ toString n ++ ": ") "       " cause)

/-- How a fault of the index is told. Where a settings file is malformed is not told. -/
def faultText : IndexFault → String
  | .malformedSettings _ => "Error: TOML parse error"
  | e => "Error: " ++ e.message ++ causesText e.causes ++ "\n"

def failureText : CommandFault → String
  | .index e => faultText e
  | e => "Error: " ++ e.message ++ "\n"

/-- Ends with a report or with what went wrong. -/
def finish {α : Type} (asJson : Bool) (toJson : α → JsonValue) (toText : α → String) :
    Except CommandFault α → Exit
  | .ok report => { code := 0, output := if asJson then (toJson report).toText 0 ++ "\n" else toText report }
  | .error e => { code := 1, errors := failureText e }

def settings (fs : FileSystem) (e : Environment) (i : Invocation) : Except IndexFault Settings :=
  match i.settings? with
  | some p => Settings.load fs p
  | none => Settings.loadDefault fs e

def perform (fs : FileSystem) (i : Invocation) (s : Settings) : Exit :=
  let monitor := BarMonitor.new s.confirmDefault i.asJson
  match i.task with
  | .scan dirs => finish i.asJson ScanReport.toJson ScanReport.toText (Command.scan s fs dirs monitor).1
  | .variants typeName name dirs =>
    finish i.asJson VariantsReport.toJson VariantsReport.toText
      (Command.variants s fs typeName name dirs monitor).1

def run (fs : FileSystem) (e : Environment) (args : List String) : Exit :=
  match request args with
  | .misuse => { code := 2 }
  | .help => { code := 0 }
  | .version => { code := 0, output := programName ++ " " ++ version ++ "\n" }
  | .run i =>
    match settings fs e i with
    | .ok s => perform fs i s
    | .error f => { code := 1, errors := faultText f }

end ResourceIndex.CommandLine
