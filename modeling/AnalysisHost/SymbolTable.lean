import AnalysisHost.CompilationUnit
import AnalysisHost.Manifest

/-!
# The symbol table

Every type that a compilation can see, under its qualified name: the types that units declare, and
those on the classpath. A declaration of a unit hides a classpath type of the same name, and of two
units that declare the same name the later one counts.
-/

namespace AnalysisHost

/-- Where a type comes from. -/
inductive Origin where
  /-- It is declared by a unit. -/
  | source (unit : String)
  /-- It is on the classpath. -/
  | classpath
  /-- It is nowhere. -/
  | unresolved
  deriving DecidableEq, Repr

/-- Every type that a compilation can see. -/
structure SymbolTable where
  /-- Types of units: qualified name and unit path, in order of declaration. -/
  declared : List (String × String) := []
  /-- Qualified names of classpath types, in order. -/
  classpath : List String := []
  deriving DecidableEq, Repr

namespace SymbolTable

def build (units : List CompilationUnit) (classpath : List ClasspathEntry) : SymbolTable where
  declared := units.flatMap fun u => u.types.map fun t => (qualify u.package t, u.path)
  classpath := classpath.flatMap fun e => e.types.map (qualify e.package)

/-- The path of the unit whose declaration of a name counts. -/
def declaringUnit? (table : SymbolTable) (qualified : String) : Option String :=
  (table.declared.reverse.find? fun d => decide (d.1 = qualified)).map (·.2)

def originOf (table : SymbolTable) (qualified : String) : Origin :=
  match table.declaringUnit? qualified with
  | some unit => .source unit
  | none => if qualified ∈ table.classpath then .classpath else .unresolved

def resolve (table : SymbolTable) (i : Import) : Origin := table.originOf i.qualified

/-- The names in the table, each once. -/
def names (table : SymbolTable) : List String :=
  (table.declared.map (·.1) ++ table.classpath).eraseDups

def size (table : SymbolTable) : Nat := table.names.length

def isEmpty (table : SymbolTable) : Bool := table.names.isEmpty

end SymbolTable

end AnalysisHost
