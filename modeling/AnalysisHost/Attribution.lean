import AnalysisHost.Log
import AnalysisHost.Phase
import AnalysisHost.SymbolTable

/-!
# The attribute phase

Each import of a unit is resolved to the place its type comes from. An import that cannot be
resolved is reported as an error, and kept, so that whoever comes later still sees it.
-/

namespace AnalysisHost

/-- An import and where its type comes from. -/
structure Resolution where
  imported : Import
  origin : Origin
  deriving DecidableEq, Repr

namespace CompilationUnit

def resolutions (u : CompilationUnit) (table : SymbolTable) : List Resolution :=
  u.imports.map fun i => ⟨i, table.resolve i⟩

def unresolvedImport (u : CompilationUnit) (i : Import) : Diagnostic :=
  let message := s!"cannot find symbol '{i.qualified}'"
  ((Diagnostic.error Phase.attribution.text message).inUnit u.path).located s!"import {i.qualified}"

def importErrors (u : CompilationUnit) (table : SymbolTable) : List Diagnostic :=
  ((u.resolutions table).filter fun r => decide (r.origin = .unresolved)).map fun r =>
    u.unresolvedImport r.imported

/-- Resolve the imports of a unit, and report those that cannot be. -/
def attributeImports (u : CompilationUnit) (table : SymbolTable) (log : Log) :
    List Resolution × Log :=
  (u.resolutions table, log.reportAll (u.importErrors table))

end CompilationUnit

end AnalysisHost
