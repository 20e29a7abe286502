import ResourceIndex.Path

/-!
# Arguments

The program is called with a command, its arguments, and options. A settings file and verbose output can be asked for
before the command and behind it, once on either side, and what stands behind the command counts. Options may stand
between arguments; after two dashes everything is an argument. The version can be asked for before the command, and is
told as soon as it is asked for.
-/

namespace ResourceIndex.CommandLine

inductive Task where
  | scan (dirs : List Path)
  | variants (typeName name : String) (dirs : List Path)
deriving DecidableEq, Repr

structure Invocation where
  task : Task
  settings? : Option Path
  isVerbose : Bool
  asJson : Bool
deriving DecidableEq, Repr

inductive Request where
  | run (invocation : Invocation)
  | version
  | help
  | misuse
deriving DecidableEq, Repr

structure Options where
  settings? : Option Path := none
  isVerbose : Bool := false
  asJson : Bool := false
deriving DecidableEq, Repr

/-- What is known while arguments are read: the options, the arguments that are no options, and whether two dashes have
ended the options. -/
structure Reading where
  options : Options := {}
  values : List String := []
  optionsEnded : Bool := false

/-- Where reading goes on: with one more thing known, with the value of the settings option still to come, or not at
all. -/
inductive Next where
  | known (reading : Reading)
  | settingsValue (reading : Reading)
  | finished (request : Request)

namespace Reading

/-- Takes the settings file. There is one at most, and it has a name. -/
def setSettings (r : Reading) (value : List Char) : Next :=
  if r.options.settings?.isSome || value.isEmpty then .finished .misuse
  else .known { r with options := { r.options with settings? := some ⟨String.ofList value⟩ } }

/-- Takes the wish for verbose output, once. -/
def setVerbose (r : Reading) : Option Reading :=
  if r.options.isVerbose then none else some { r with options := { r.options with isVerbose := true } }

/-- Takes the wish for a record, once. -/
def setJson (r : Reading) : Option Reading :=
  if r.options.asJson then none else some { r with options := { r.options with asJson := true } }

/-- A step that may be a misuse. -/
def orMisuse : Option Reading → Next
  | some r => .known r
  | none => .finished .misuse

def shorts (inCommand : Bool) (r : Reading) : List Char → Next
  | [] => .known r
  | 'v' :: cs =>
    match r.setVerbose with
    | some r => shorts inCommand r cs
    | none => .finished .misuse
  | ['c'] => .settingsValue r
  | 'c' :: '=' :: cs => r.setSettings cs
  | 'c' :: cs => r.setSettings cs
  | 'h' :: _ => .finished .help
  | 'V' :: _ => .finished (if inCommand then .misuse else .version)
  | _ => .finished .misuse

def long (inCommand : Bool) (r : Reading) (name : List Char) : Next :=
  match "config=".toList.isPrefixOf? name with
  | some value => r.setSettings value
  | none =>
    match String.ofList name with
    | "config" => .settingsValue r
    | "verbose" => orMisuse r.setVerbose
    | "json" => if inCommand then orMisuse r.setJson else .finished .misuse
    | "help" => .finished .help
    | "version" => .finished (if inCommand then .misuse else .version)
    | _ => .finished .misuse

/-- Reads an argument that starts with a dash. A single dash is a value like others. -/
def dashed (inCommand : Bool) (r : Reading) (arg : List Char) : Next :=
  match arg with
  | ['-', '-'] => .known { r with optionsEnded := true }
  | '-' :: '-' :: name => r.long inCommand name
  | '-' :: name => r.shorts inCommand name
  | _ => .finished .misuse

end Reading

/-- The argument is an option, or ends the options. -/
def isOption (arg : String) : Bool :=
  match arg.toList with
  | '-' :: _ :: _ => true
  | _ => false

inductive CommandName where
  | scan
  | variants
deriving DecidableEq, Repr

def CommandName.ofName? : String → Option CommandName
  | "scan" => some .scan
  | "variants" => some .variants
  | _ => none

/-- The arguments of a command that name directories. -/
def CommandName.dirs : CommandName → List String → List String
  | .scan, values => values
  | .variants, values => values.drop 2

/-- Paths that arguments name: there is one at least, and none is empty. -/
def paths? (values : List String) : Option (List Path) :=
  if values.isEmpty || values.any (·.isEmpty) then none else some (values.map Path.mk)

def task? (c : CommandName) (values : List String) : Option Task :=
  match c, values with
  | .scan, dirs => (paths? dirs).map .scan
  | .variants, typeName :: name :: dirs => (paths? dirs).map (.variants typeName name)
  | .variants, _ => none

/-- The request that ends the reading of a command early. Help is given only if no path before it is empty. -/
def CommandName.finish (c : CommandName) (values : List String) : Request → Request
  | .help => if (c.dirs values).any (·.isEmpty) then .misuse else .help
  | request => request

/-- The request that a command with its arguments makes, after the options before it. -/
def conclude (outer : Options) (c : CommandName) (r : Reading) : Request :=
  match task? c r.values with
  | none => .misuse
  | some task =>
    .run
      { task := task
        settings? := r.options.settings? <|> outer.settings?
        isVerbose := r.options.isVerbose || outer.isVerbose
        asJson := r.options.asJson }

def readCommand (outer : Options) (c : CommandName) (r : Reading) : List String → Request
  | [] => conclude outer c r
  | arg :: args =>
    if r.optionsEnded || !isOption arg then
      readCommand outer c { r with values := r.values ++ [arg] } args
    else
      match r.dashed true arg.toList with
      | .known r => readCommand outer c r args
      | .finished request => c.finish r.values request
      | .settingsValue r =>
        match args with
        | [] => .misuse
        | value :: args =>
          if isOption value then .misuse
          else
            match r.setSettings value.toList with
            | .known r => readCommand outer c r args
            | _ => .misuse

/-- What asking for help means: help on the program, or on a command. -/
def helpOn : List String → Request
  | [] => .help
  | [topic] => if topic = "help" || (CommandName.ofName? topic).isSome then .help else .misuse
  | _ => .misuse

/-- Reads the arguments of a call, before the command and from it on. -/
def read (r : Reading) : List String → Request
  | [] => .misuse
  | arg :: args =>
    if r.optionsEnded then .misuse
    else if isOption arg then
      match r.dashed false arg.toList with
      | .known r => read r args
      | .finished request => request
      | .settingsValue r =>
        match args with
        | [] => .misuse
        | value :: args =>
          if isOption value then .misuse
          else
            match r.setSettings value.toList with
            | .known r => read r args
            | _ => .misuse
    else
      match CommandName.ofName? arg with
      | some c => readCommand r.options c {} args
      | none => if arg = "help" then helpOn args else .misuse

def request (args : List String) : Request :=
  read {} args

end ResourceIndex.CommandLine
