import ShellWords.Text.Basic

/-! TOML values, and the rules by which the statements of a document define its tables. A table may
be written in parts, but each part may only add what no earlier part has closed. -/

namespace ShellWords.Toml

/-- How a table has come to be, which decides what may still be added to it. -/
inductive Origin where
  | header
  /-- The table lies on the way to one that a header names. -/
  | implicit
  /-- A dotted key of a pair passes through the table. -/
  | dotted
  | inline
deriving DecidableEq, Repr

inductive Value where
  | text (chars : Text)
  | boolean (value : Bool)
  | integer (value : Int)
  | float (literal : Text)
  | moment (literal : Text)
  | array (items : List Value)
  | table (origin : Origin) (entries : List (Text × Value))
  /-- An array of tables that headers define one by one. -/
  | tables (elements : List (List (Text × Value)))
deriving Repr

/-- The names in a table and the values under them. -/
abbrev Entries := List (Text × Value)

/-- A name with the names of the tables that lead to it. -/
structure Key where
  path : List Text
  name : Text
deriving DecidableEq, Repr

namespace Entries

def replace (entries : Entries) (name : Text) (value : Value) : Entries :=
  entries.map fun entry => if entry.1 = name then (name, value) else entry

def add? (entries : Entries) (name : Text) (value : Value) : Option Entries :=
  match entries.lookup name with
  | none => some (entries ++ [(name, value)])
  | some _ => none

/-- Changes the table at the end of a path, which is made where it does not exist. Of an array of
tables the last one is meant. A path may not enter a value, and a dotted one may not enter a table
that a header names. -/
def change? (dotted : Bool) (change : Origin → Entries → Option Entries) :
    (origin : Origin) → (path : List Text) → Entries → Option Entries
  | origin, [], entries => change origin entries
  | _, name :: path, entries =>
    match entries.lookup name with
    | none => do
      let origin := if dotted then .dotted else .implicit
      return entries ++ [(name, .table origin (← change? dotted change origin path []))]
    | some (.table origin inner) => do
      guard (origin ≠ .inline ∧ ¬(dotted ∧ origin = .header))
      return entries.replace name (.table origin (← change? dotted change origin path inner))
    | some (.tables elements) => do
      let last ← change? dotted change .header path (← elements.getLast?)
      return entries.replace name (.tables (elements.dropLast ++ [last]))
    | some _ => none

/-- Adds the pair of a key and a value. A dotted key adds only to tables made by dotted keys. -/
def addPair? (key : Key) (value : Value) (entries : Entries) : Option Entries :=
  let add origin entries := do
    guard (key.path.isEmpty ∨ origin = .dotted)
    add? entries key.name value
  change? true add .header key.path entries

/-- Makes the table that a header names, or names one that lies on the way to another. -/
def addTable? (key : Key) (entries : Entries) : Option Entries :=
  let add _ entries :=
    match List.lookup key.name entries with
    | none => some (entries ++ [(key.name, .table .header [])])
    | some (.table .implicit inner) => some (replace entries key.name (.table .header inner))
    | some _ => none
  change? false add .header key.path entries

/-- Makes the next table of the array that a header names. -/
def addElement? (key : Key) (entries : Entries) : Option Entries :=
  let add _ entries :=
    match List.lookup key.name entries with
    | none => some (entries ++ [(key.name, .tables [[]])])
    | some (.tables elements) => some (replace entries key.name (.tables (elements ++ [[]])))
    | some _ => none
  change? false add .header key.path entries

def ofPairs? (pairs : List (Key × Value)) : Option Entries :=
  pairs.foldlM (fun entries (key, value) => addPair? key value entries) []

end Entries

inductive Statement where
  | pair (key : Key) (value : Value)
  | table (key : Key)
  /-- A header, which makes a new table of an array the current one. -/
  | element (key : Key)

structure Definitions where
  entries : Entries := []
  current : List Text := []

namespace Definitions

def add? (definitions : Definitions) : Statement → Option Definitions
  | .pair key value => do
    let add _ entries := Entries.addPair? key value entries
    let entries ← definitions.entries.change? false add .header definitions.current
    return { definitions with entries }
  | .table key => do
    return { entries := ← definitions.entries.addTable? key, current := key.path ++ [key.name] }
  | .element key => do
    return { entries := ← definitions.entries.addElement? key, current := key.path ++ [key.name] }

end Definitions

def define? (statements : List Statement) : Option Entries :=
  (statements.foldlM Definitions.add? {}).map (·.entries)

end ShellWords.Toml
