/-!
# TOML values

A TOML document is a tree of tables. A manifest has no use for numbers, booleans and dates, so these
are checked and kept as they are written.

While a document is read, tables that are already there may be added to, and whether they may
depends on how they came about (`TableForm`). Three operations grow a document: `Entries.assign`
sets a key, `Entries.openTable` begins a table, and `Entries.appendTable` begins a new table of an
array of tables. Each refuses what TOML forbids: a key that is there twice, a table that is defined
twice, and additions to a value that is closed.
-/

namespace AnalysisHost.Toml

/-- How a table came about. -/
inductive TableForm where
  /-- It is written in braces, and closed. -/
  | inline
  /-- It has a header of its own. -/
  | header
  /-- It is on the way to a table with a header, and may yet get one of its own. -/
  | implied
  /-- It is on the way to a dotted key, and only dotted keys may add to it. -/
  | dotted
  deriving DecidableEq, Repr

/-- A value. -/
inductive Value where
  | string (s : String)
  /-- A number, a boolean, a date or a time, as it is written. -/
  | scalar (text : String)
  | array (items : List Value)
  | table (form : TableForm) (entries : List (String × Value))
  /-- An array of tables, one for each header. -/
  | tables (elements : List (List (String × Value)))

/-- Keys with their values, in the order of the document. -/
abbrev Entries := List (String × Value)

namespace Entries

def get? (entries : Entries) (key : String) : Option Value := entries.lookup key

/-- Put a value in place of the one that a key has, or at the end. -/
def put (entries : Entries) (key : String) (value : Value) : Entries :=
  match entries with
  | [] => [(key, value)]
  | (k, v) :: rest => if k = key then (key, value) :: rest else (k, v) :: put rest key value

def changeLast (f : Entries → Option Entries) : List Entries → Option (List Entries)
  | [] => none
  | [last] => (f last).map fun last => [last]
  | first :: second :: rest => (changeLast f (second :: rest)).map (first :: ·)

/-- Change the table at the end of a path of headers. Tables that are missing on the way are
implied, and of an array of tables the last one counts. -/
def descend (f : Entries → Option Entries) : List String → Entries → Option Entries
  | [], entries => f entries
  | key :: path, entries =>
    match entries.get? key with
    | none => (descend f path []).map fun t => entries.put key (.table .implied t)
    | some (.table .inline _) => none
    | some (.table form t) => (descend f path t).map fun t => entries.put key (.table form t)
    | some (.tables ts) =>
      (changeLast (descend f path) ts).map fun ts => entries.put key (.tables ts)
    | some _ => none

/-- Set a key that is reached by dots. Tables that are missing on the way are made, and the last of
them must be one that dots have made. -/
def assign (value : Value) : List String → Entries → Option Entries
  | [], _ => none
  | [key], entries =>
    match entries.get? key with
    | none => some (entries.put key value)
    | some _ => none
  | key :: next :: path, entries =>
    match entries.get? key with
    | none => (assign value (next :: path) []).map fun t => entries.put key (.table .dotted t)
    | some (.table .dotted t) =>
      (assign value (next :: path) t).map fun t => entries.put key (.table .dotted t)
    | some (.table .implied t) =>
      match path with
      | [] => none
      | _ :: _ =>
        (assign value (next :: path) t).map fun t => entries.put key (.table .implied t)
    | some _ => none

/-- Begin the table with a given header. -/
def openTable (path : List String) (key : String) : Entries → Option Entries :=
  descend (fun entries =>
    match entries.get? key with
    | none => some (entries.put key (.table .header []))
    | some (.table .implied t) => some (entries.put key (.table .header t))
    | some _ => none) path

/-- Begin a new table of the array of tables with a given header. -/
def appendTable (path : List String) (key : String) : Entries → Option Entries :=
  descend (fun entries =>
    match entries.get? key with
    | none => some (entries.put key (.tables [[]]))
    | some (.tables ts) => some (entries.put key (.tables (ts ++ [[]])))
    | some _ => none) path

end Entries

end AnalysisHost.Toml
