/-!
# Manifests

A manifest says what to compile: the units, in compilation order, and the packages of precompiled
types on the classpath. Here it is data; `Manifest.Schema` reads it from a document, and
`Manifest.Validity` says which manifests are accepted.
-/

namespace AnalysisHost

/-- The full name of a type of a package. -/
def qualify (package type : String) : String := s!"{package}.{type}"

/-- A package of precompiled types. -/
structure ClasspathEntry where
  package : String
  types : List String := []
  deriving DecidableEq, Repr

/-- A method and its body, one statement per text. -/
structure MethodEntry where
  name : String
  body : List String := []
  deriving DecidableEq, Repr

/-- A unit to compile. -/
structure UnitEntry where
  path : String
  package : String
  /-- Single-type imports such as `com.lib.Util`. -/
  imports : List String := []
  types : List String := []
  methods : List MethodEntry := []
  deriving DecidableEq, Repr

/-- What to compile, and against what. -/
structure Manifest where
  classpath : List ClasspathEntry := []
  units : List UnitEntry := []
  deriving DecidableEq, Repr

namespace Manifest

def unit? (m : Manifest) (path : String) : Option UnitEntry :=
  m.units.find? fun u => decide (u.path = path)

/-- The packages that units declare, each once, in the order of their first unit. -/
def sourcePackages (m : Manifest) : List String := (m.units.map (·.package)).eraseDups

end Manifest

end AnalysisHost
