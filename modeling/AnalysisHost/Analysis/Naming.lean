import AnalysisHost.Plugin

/-!
# Naming conventions

Warns about packages that are not written in lower case, such as `com.App`, and about types that are
not written in upper camel case, such as `http_client`. Both conventions are plain: a package is
dotted parts of lower-case letters, digits and underscores, each beginning with a letter; a type is
letters and digits, beginning with a capital.
-/

namespace AnalysisHost

/-- The state of the naming check. -/
structure Naming where
  enabled : Bool := false
  deriving DecidableEq, Repr

namespace Naming

def namingFlag : String := "--naming"

def analysisName : String := "naming"

/-- Claim the switch. Once enabled, the check stays enabled. -/
def processArgs (p : Naming) (args : List String) : Except FlagError (List String) × Naming :=
  match Flag.claimSwitch namingFlag args with
  | .error e => (.error e, p)
  | .ok (present, rest) => (.ok rest, { p with enabled := p.enabled || present })

def isPackageSegment : List Char → Bool
  | [] => false
  | c :: cs => c.isLower && cs.all fun d => d.isLower || d.isDigit || d == '_'

def isPackageName (name : String) : Bool :=
  (Text.segments '.' name.toList).all isPackageSegment

def isTypeName (name : String) : Bool :=
  match name.toList with
  | [] => false
  | c :: cs => c.isUpper && cs.all Char.isAlphanum

def packageWarning (unit package : String) : Diagnostic :=
  let message := s!"package '{package}' should be lowercase (e.g., 'com.app' not 'com.App')"
  ((Diagnostic.warning analysisName message).inUnit unit).located s!"package {package}"

def typeWarning (unit type : String) : Diagnostic :=
  let message :=
    s!"type '{type}' should use UpperCamelCase (e.g., 'HttpClient' not 'http_client')"
  ((Diagnostic.warning analysisName message).inUnit unit).located s!"type {type}"

/-- The warnings about a unit: first its package, then its types in order. -/
def warnings (u : CompilationUnit) : List Diagnostic :=
  (if isPackageName u.package then [] else [packageWarning u.path u.package]) ++
    (u.types.filter fun t => !isTypeName t).map (typeWarning u.path)

def afterAttribution (p : Naming) (env : Env) (s : Session) : Reply Naming Session :=
  if p.enabled then (.ok (), p, { s with log := s.log.reportAll (warnings env.tree) })
  else (.ok (), p, s)

instance : Plugin Naming where
  name _ := analysisName
  description _ := "Check package and type names follow Java conventions"
  flags _ := [⟨namingFlag, none, "Enable naming convention warnings"⟩]
  processArgs := processArgs
  afterAttribution := afterAttribution

end Naming

end AnalysisHost
