import AnalysisHost.Manifest
import AnalysisHost.Toml.Value

/-!
# Manifests as documents

What a document must look like to be a manifest. Each kind of entry is a record with named fields;
some must be there, and the others are lists that default to the empty one. A record may be written
in two ways: as a table, which may have no other keys, or as a list of its fields in order, of which
a tail may be left off and anything beyond is ignored.
-/

namespace AnalysisHost.Manifest

open Toml (Value Entries)

abbrev Fields := List (String × Value)

/-! ### Shapes -/

/-- The entries of a table that has no other keys than the given ones. -/
def knownFields? (names : List String) (entries : Entries) : Option Fields :=
  if entries.all fun e => names.contains e.1 then some entries else none

def fields? (names : List String) : Value → Option Fields
  | .table _ entries => knownFields? names entries
  | .array items => some (names.zip items)
  | .tables elements =>
    some (names.zip (elements.map fun entries => Value.table .header entries))
  | .string _ => none
  | .scalar _ => none

def members? : Value → Option (List Value)
  | .array items => some items
  | .tables elements => some (elements.map fun entries => Value.table .header entries)
  | _ => none

def text? : Value → Option String
  | .string s => some s
  | _ => none

/-- A list whose members all have a shape. -/
def listOf? (shape : Value → Option α) (v : Value) : Option (List α) := do
  (← members? v).mapM shape

def required? (shape : Value → Option α) (name : String) (fields : Fields) : Option α := do
  shape (← fields.lookup name)

/-- A field that is the empty list if it is not there. -/
def optional? (shape : Value → Option α) (name : String) (fields : Fields) : Option (List α) :=
  match fields.lookup name with
  | none => some []
  | some v => listOf? shape v

/-! ### Records -/

def classpathEntry? (v : Value) : Option ClasspathEntry := do
  let fields ← fields? ["package", "types"] v
  return { package := ← required? text? "package" fields
           types := ← optional? text? "types" fields }

def methodEntry? (v : Value) : Option MethodEntry := do
  let fields ← fields? ["name", "body"] v
  return { name := ← required? text? "name" fields
           body := ← optional? text? "body" fields }

def unitEntry? (v : Value) : Option UnitEntry := do
  let fields ← fields? ["path", "package", "imports", "types", "methods"] v
  return { path := ← required? text? "path" fields
           package := ← required? text? "package" fields
           imports := ← optional? text? "imports" fields
           types := ← optional? text? "types" fields
           methods := ← optional? methodEntry? "methods" fields }

def ofEntries? (document : Entries) : Option Manifest := do
  let fields ← knownFields? ["classpath", "unit"] document
  return { classpath := ← optional? classpathEntry? "classpath" fields
           units := ← optional? unitEntry? "unit" fields }

end AnalysisHost.Manifest
