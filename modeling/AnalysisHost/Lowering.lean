import AnalysisHost.CompilationUnit
import AnalysisHost.Manifest

/-!
# From a manifest to unit trees

Every unit entry becomes a tree, in the same order. An import that cannot be split into package and
type is kept as it stands, so that the attribute phase can report it.
-/

namespace AnalysisHost

def MethodEntry.lower (m : MethodEntry) : Method := ⟨m.name, m.body.map Statement.ofText⟩

def UnitEntry.lower (u : UnitEntry) : CompilationUnit where
  path := u.path
  package := u.package
  imports := u.imports.map Import.ofText
  types := u.types
  methods := u.methods.map MethodEntry.lower

def Manifest.lower (m : Manifest) : List CompilationUnit := m.units.map UnitEntry.lower

end AnalysisHost
