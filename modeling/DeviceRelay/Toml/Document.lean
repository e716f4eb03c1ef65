/-
# TOML documents as trees

A document is built line by line. A header opens a table, a key with dots passes
through tables on its way, and every table remembers how it came to be: a table
may be opened by a header once, tables that a key made may be extended by keys of
the same part only, and tables that a longer header implied may still be opened.

Key definitions: `Toml.Value`, `Toml.Node`, `Toml.openTable`, `Toml.openTables`,
`Toml.assign`, `Toml.Node.value`.
-/

namespace DeviceRelay
namespace Toml

/-- A value of a finished document. -/
inductive Value where
  | text (s : String)
  | int (n : Int)
  | bool (b : Bool)
  | float
  /-- A date, a time or both. -/
  | moment
  | list (items : List Value)
  | table (entries : List (String × Value))
  deriving Repr, Inhabited

/-- How a table came to be. -/
inductive Origin where
  /-- A header opened it. -/
  | header
  /-- A longer header implied it. -/
  | implied
  /-- A key with dots made it. -/
  | dotted
  deriving DecidableEq, Repr

/-- A part of a document that is being built. -/
inductive Node where
  | value (v : Value)
  | table (origin : Origin) (entries : List (String × Node))
  /-- Tables under one name, the latest first. -/
  | tables (tables : List (List (String × Node)))
  deriving Repr, Inhabited

abbrev Entries := List (String × Node)

/-- Replaces an entry in its place, or adds one at the end. -/
def setEntry (name : String) (node : Node) : Entries → Entries
  | [] => [(name, node)]
  | (other, old) :: rest =>
    if name = other then (name, node) :: rest else (other, old) :: setEntry name node rest

/-- Changes the table at the end of a path, making the tables in between. A path
through a key may only pass tables that no header opened. -/
def descend (viaKey : Bool) (change : Origin → Entries → Option Entries) (origin : Origin) :
    List String → Entries → Option Entries
  | [], entries => change origin entries
  | name :: path, entries =>
    match entries.lookup name with
    | none =>
      let fresh := if viaKey then Origin.dotted else .implied
      (descend viaKey change fresh path []).map fun inner =>
        setEntry name (.table fresh inner) entries
    | some (.value _) => none
    | some (.tables []) => none
    | some (.tables (latest :: earlier)) =>
      if viaKey then none
      else
        (descend viaKey change .header path latest).map fun inner =>
          setEntry name (.tables (inner :: earlier)) entries
    | some (.table origin inner) =>
      if viaKey ∧ origin = .header then none
      else
        (descend viaKey change origin path inner).map fun inner =>
          setEntry name (.table origin inner) entries

/-- Opens the table of a header. -/
def openTable (path : List String) (name : String) (root : Entries) : Option Entries :=
  descend false (fun _ entries =>
    match entries.lookup name with
    | none => some (setEntry name (.table .header []) entries)
    | some (.table .implied inner) => some (setEntry name (.table .header inner) entries)
    | some _ => none) .header path root

/-- Opens one more table of a header in double brackets. -/
def openTables (path : List String) (name : String) (root : Entries) : Option Entries :=
  descend false (fun _ entries =>
    match entries.lookup name with
    | none => some (setEntry name (.tables [[]]) entries)
    | some (.tables earlier) => some (setEntry name (.tables ([] :: earlier)) entries)
    | some _ => none) .header path root

/-- Gives a key its value, inside one table. -/
def assign (path : List String) (name : String) (v : Value) (entries : Entries) :
    Option Entries :=
  descend true (fun origin inner =>
    -- a table on the way was made by keys, so it may not be one that a header implied
    if !path.isEmpty ∧ origin ≠ .dotted then none
    else
      match inner.lookup name with
      | none => some (setEntry name (.value v) inner)
      | some _ => none) .header path entries

/-- Gives a key its value, inside the table of the last header. -/
def assignUnder : List String → List String → String → Value → Entries → Option Entries
  | [], path, name, v, entries => assign path name v entries
  | step :: header, path, name, v, entries =>
    match entries.lookup step with
    | some (.table origin inner) =>
      (assignUnder header path name v inner).map fun inner =>
        setEntry step (.table origin inner) entries
    | some (.tables (latest :: earlier)) =>
      (assignUnder header path name v latest).map fun inner =>
        setEntry step (.tables (inner :: earlier)) entries
    | _ => none

mutual

def Node.finish : Node → Value
  | .value v => v
  | .table _ entries => .table (finishEntries entries)
  | .tables tables => .list (finishTables tables).reverse

def finishEntries : List (String × Node) → List (String × Value)
  | [] => []
  | (name, node) :: rest => (name, node.finish) :: finishEntries rest

def finishTables : List (List (String × Node)) → List Value
  | [] => []
  | entries :: rest => .table (finishEntries entries) :: finishTables rest

end

end Toml
end DeviceRelay
