import AnalysisHost.Manifest
import AnalysisHost.Manifest.Name

/-!
# Which manifests are accepted

`check` goes through a manifest in order — classpath entries first, then units — and stops at the
first `Violation`: a package, import, type or method that is no proper name, a unit path that is
there twice, or a type that two declarations give the same qualified name.

Within a unit the order is: its path, its package, its imports, its types, its methods. A type is
checked for its form before it is compared with what has been declared already.
-/

namespace AnalysisHost.Manifest

/-- What an identifier names. -/
inductive NameKind where
  | type
  | method
  deriving DecidableEq, Repr

def NameKind.text : NameKind → String
  | type => "type"
  | method => "method"

/-- Why a manifest is not accepted. -/
inductive Violation where
  | badPackage (package : String) (fault : NameFault)
  | badImport (unit text : String) (fault : NameFault)
  | badName (kind : NameKind) (name : String) (fault : NameFault)
  | duplicateUnit (path : String)
  | duplicateType (qualified firstUnit secondUnit : String)
  deriving DecidableEq, Repr

/-- A type that a unit declares, under its qualified name. -/
structure Declaration where
  qualified : String
  unit : String
  deriving DecidableEq, Repr

/-! ### The parts of a manifest -/

def checkPackage (package : String) : Except Violation Unit :=
  match qualifiedFault? package.toList with
  | some fault => .error (.badPackage package fault)
  | none => .ok ()

def checkName (kind : NameKind) (name : String) : Except Violation Unit :=
  match identifierFault? name.toList with
  | some fault => .error (.badName kind name fault)
  | none => .ok ()

def checkImport (unit text : String) : Except Violation Unit :=
  match importFault? text.toList with
  | some fault => .error (.badImport unit text fault)
  | none => .ok ()

/-- Check each member of a list, in order. -/
def checkEach (check : α → Except Violation Unit) : List α → Except Violation Unit
  | [] => .ok ()
  | a :: as => do check a; checkEach check as

def checkClasspathEntry (entry : ClasspathEntry) : Except Violation Unit := do
  checkPackage entry.package
  checkEach (checkName .type) entry.types

/-- Check the types of a unit against what has been declared before, and add them to it. -/
def checkTypes (unit : UnitEntry) (declared : List Declaration) :
    List String → Except Violation (List Declaration)
  | [] => .ok declared
  | type :: types => do
    checkName .type type
    let qualified := qualify unit.package type
    match declared.find? fun d => decide (d.qualified = qualified) with
    | some first => .error (.duplicateType qualified first.unit unit.path)
    | none => checkTypes unit (declared ++ [⟨qualified, unit.path⟩]) types

/-- Check a unit after those with the given paths and declarations. -/
def checkUnit (paths : List String) (declared : List Declaration) (unit : UnitEntry) :
    Except Violation (List Declaration) := do
  if unit.path ∈ paths then throw (.duplicateUnit unit.path)
  checkPackage unit.package
  checkEach (checkImport unit.path) unit.imports
  let declared ← checkTypes unit declared unit.types
  checkEach (checkName .method) (unit.methods.map (·.name))
  return declared

/-- Check units after those with the given paths and declarations. -/
def checkUnits (paths : List String) (declared : List Declaration) :
    List UnitEntry → Except Violation Unit
  | [] => .ok ()
  | unit :: units => do
    let declared ← checkUnit paths declared unit
    checkUnits (paths ++ [unit.path]) declared units

def check (m : Manifest) : Except Violation Unit := do
  checkEach checkClasspathEntry m.classpath
  checkUnits [] [] m.units

def Valid (m : Manifest) : Prop := m.check = .ok ()

end AnalysisHost.Manifest
