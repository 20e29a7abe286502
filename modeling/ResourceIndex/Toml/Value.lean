/-!
# TOML tables

A table holds values by key. How a table came about decides what may still be added to it: a table under its own header
is complete except for keys that follow the header and for tables below it, a table that a longer header implies may get
its header later, a table made by dotted keys grows by dotted keys only, and an inline table is complete.
-/

namespace ResourceIndex.Toml

/-- How a table came about. -/
inductive TableForm where
  | headed
  | implied
  | dotted
  | inline
deriving DecidableEq, Repr

/-- A value. Floats and moments are kept as they are written. -/
inductive Value where
  | text (s : String)
  | integer (n : Int)
  | boolean (b : Bool)
  | float (written : List Char)
  | moment (written : List Char)
  | array (items : List Value)
  | table (form : TableForm) (entries : List (String × Value))
  /-- the tables under one repeated header -/
  | rows (tables : List (List (String × Value)))

/-- The keys of a table with their values. -/
abbrev Entries := List (String × Value)

namespace Entries

def replace (es : Entries) (key : String) (v : Value) : Entries :=
  es.map fun (k, old) => if k = key then (k, v) else (k, old)

/-- Changes the table at the end of a path. Tables on the way are made if they are missing, and of repeated tables the
last one is taken. Dotted keys do not pass a table that has its own header. -/
def edit (isDotted : Bool) (change : TableForm → Entries → Option (TableForm × Entries)) :
    List String → TableForm → Entries → Option (TableForm × Entries)
  | [], form, es => change form es
  | key :: path, form, es =>
    match es.lookup key with
    | none => do
      let (f, inner) ← edit isDotted change path (if isDotted then .dotted else .implied) []
      return (form, es ++ [(key, .table f inner)])
    | some (.table f inner) =>
      if f = .inline ∨ isDotted ∧ f = .headed then none
      else do
        let (f, inner) ← edit isDotted change path f inner
        return (form, replace es key (.table f inner))
    | some (.rows tables) => do
      let last ← tables.getLast?
      let (_, inner) ← edit isDotted change path .headed last
      return (form, replace es key (.rows (tables.dropLast ++ [inner])))
    | some _ => none

/-- Adds a key that is not there yet. -/
def add (key : String) (v : Value) (form : TableForm) (es : Entries) : Option (TableForm × Entries) :=
  match es.lookup key with
  | none => some (form, es ++ [(key, v)])
  | some _ => none

/-- Adds a value under a dotted key. Behind dots only a table made by dots grows. -/
def assign (path : List String) (key : String) (v : Value) (form : TableForm) (es : Entries) :
    Option (TableForm × Entries) :=
  edit true (fun f inner => if f = .dotted ↔ path = [] then none else add key v f inner) path form es

/-- Starts a table under its own header; only a table that was implied may be there. -/
def startTable (key : String) (form : TableForm) (es : Entries) : Option (TableForm × Entries) :=
  match es.lookup key with
  | none => some (form, es ++ [(key, .table .headed [])])
  | some (.table .implied inner) => some (form, replace es key (.table .headed inner))
  | some _ => none

/-- Starts one more table under a repeated header. -/
def startRow (key : String) (form : TableForm) (es : Entries) : Option (TableForm × Entries) :=
  match es.lookup key with
  | none => some (form, es ++ [(key, .rows [[]])])
  | some (.rows tables) => some (form, replace es key (.rows (tables ++ [[]])))
  | some _ => none

end Entries

end ResourceIndex.Toml
