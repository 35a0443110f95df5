import AnalysisHost.Text.Blank
import AnalysisHost.Text.Split

/-!
# Compilation units

The tree that the host builds of one unit: its path and package, the types it imports and declares,
and its methods, each a list of statements. Of a statement only its effect on control is known:
`return` and `throw` end a body, anything else goes on to the next statement.
-/

namespace AnalysisHost

/-! ### Imports -/

/-- The import of a single type, such as `com.lib.Util`. An import without a package part keeps its
whole text as the name and has the empty package. -/
structure Import where
  package : String
  name : String
  deriving DecidableEq, Repr

namespace Import

/-- Split a qualified name at its last dot. Both sides must be there. -/
def parse? (qualified : String) : Option Import :=
  match Text.splitLast '.' qualified.toList with
  | some (package@(_ :: _), name@(_ :: _)) => some ⟨String.ofList package, String.ofList name⟩
  | _ => none

/-- An import that could not be split into package and type. -/
def unqualified (text : String) : Import := ⟨"", text⟩

/-- The import that a text stands for. Every text stands for one. -/
def ofText (text : String) : Import := (parse? text).getD (unqualified text)

def qualified (i : Import) : String :=
  if i.package.isEmpty then i.name else s!"{i.package}.{i.name}"

/-- The order by package, then by name. -/
def precedes (a b : Import) : Bool :=
  decide (a.package < b.package) || (decide (a.package = b.package) && decide (a.name < b.name))

end Import

/-! ### Statements -/

/-- A statement of a method body. -/
inductive Statement where
  | ret
  | throw
  /-- A statement that control passes through. -/
  | other (text : String)
  deriving DecidableEq, Repr

namespace Statement

/-- Read a statement. Blanks around it do not matter. -/
def ofText (text : String) : Statement :=
  match String.ofList (Text.trim text.toList) with
  | "return" => .ret
  | "throw" => .throw
  | trimmed => .other trimmed

/-- Whether control never continues past a statement. -/
def isTerminal : Statement → Bool
  | .ret | .throw => true
  | .other _ => false

end Statement

/-! ### Units -/

/-- A method and its body. -/
structure Method where
  name : String
  body : List Statement
  deriving DecidableEq, Repr

/-- The tree of one unit. -/
structure CompilationUnit where
  /-- Where the unit comes from; diagnostics identify it so. -/
  path : String
  package : String
  imports : List Import := []
  types : List String := []
  methods : List Method := []
  deriving DecidableEq, Repr

end AnalysisHost
