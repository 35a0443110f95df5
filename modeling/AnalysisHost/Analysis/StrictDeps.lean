import AnalysisHost.Plugin
import AnalysisHost.Text.Letter

/-!
# Strict dependencies

Flags imports that resolve to the classpath but come from a package that was not declared as a
direct dependency. A package is declared if it, or a package that it is nested in, was named with
`--direct-dep`. Imports from units are never checked.

Each such import is reported where it occurs. At the end each undeclared package gets one note, and
where the check is strict the run is aborted.
-/

namespace AnalysisHost

/-- How imports from undeclared packages are treated. -/
inductive CheckMode where
  /-- They are errors, and the run is aborted at its end. -/
  | strict
  /-- They are warnings. -/
  | warn
  | off
  deriving DecidableEq, Repr

def CheckMode.parse? : String → Option CheckMode
  | "strict" => some strict
  | "warn" => some warn
  | "off" => some off
  | _ => none

/-- A unit imports from an undeclared package. -/
structure UndeclaredUse where
  package : String
  unit : String
  deriving DecidableEq, Repr

/-- The state of the strict dependency check. -/
structure StrictDeps where
  mode : CheckMode := .off
  /-- The declared packages, in the order of their declaration. -/
  direct : List String := []
  /-- Uses of undeclared packages, each once, in order of first use. -/
  uses : List UndeclaredUse := []
  deriving DecidableEq, Repr

namespace StrictDeps

/-! ### Packages -/

/-- Whether a part of a dotted name is fine: a letter, `_` or `$`, and then also digits. -/
def isSegment : List Char → Bool
  | [] => false
  | c :: cs =>
    (Text.isLetter c || c == '_' || c == '$') &&
      cs.all fun d => Text.isLetter d || Text.isNumeral d || d == '_' || d == '$'

def isPackageName (name : String) : Bool := (Text.segments '.' name.toList).all isSegment

/-- Whether a package is another one, or is nested in it. -/
def isWithin (outer package : String) : Bool :=
  match Text.after? outer.toList package.toList with
  | some [] => true
  | some ('.' :: _) => true
  | _ => false

def isDirect (p : StrictDeps) (package : String) : Bool := p.direct.any (isWithin · package)

/-- Undeclared packages, each once, in order of first use. -/
def missing (p : StrictDeps) : List String := (p.uses.map (·.package)).eraseDups

/-- How many units import from an undeclared package. -/
def unitCount (p : StrictDeps) (package : String) : Nat :=
  p.uses.countP fun use => decide (use.package = package)

def addUse (p : StrictDeps) (use : UndeclaredUse) : StrictDeps :=
  if use ∈ p.uses then p else { p with uses := p.uses ++ [use] }

/-! ### Flags -/

def checkFlag : String := "--check"

def directDepFlag : String := "--direct-dep"

/-- Claim both flags. The mode is set before the packages are looked at. -/
def processArgs (p : StrictDeps) (args : List String) :
    Except FlagError (List String) × StrictDeps :=
  match Flag.claimOne checkFlag args with
  | .error e => (.error e, p)
  | .ok (mode?, rest) =>
    let mode := match mode? with
      | some value => Flag.choose CheckMode.parse? checkFlag value "strict, warn or off"
      | none => .ok p.mode
    match mode with
    | .error e => (.error e, p)
    | .ok mode =>
      let p := { p with mode }
      match Flag.claimAll directDepFlag rest with
      | .error e => (.error e, p)
      | .ok (packages, rest) =>
        match packages.find? fun name => !isPackageName name with
        | some bad => (.error (.invalidValue directDepFlag bad "a qualified package name"), p)
        | none => (.ok rest, { p with direct := p.direct ++ packages })

/-! ### Callbacks -/

def analysisName : String := "strict-deps"

def isUndeclared (p : StrictDeps) (r : Resolution) : Bool :=
  decide (r.origin = .classpath) && !p.isDirect r.imported.package

def undeclaredImport (p : StrictDeps) (unit : String) (i : Import) : Diagnostic :=
  let message :=
    s!"'{i.qualified}' is provided by '{i.package}', which is not a direct dependency"
  let diagnostic := match p.mode with
    | .strict => Diagnostic.error analysisName message
    | _ => Diagnostic.warning analysisName message
  (diagnostic.inUnit unit).located s!"import {i.qualified}"

/-- Report the imports of a unit that come from undeclared packages. -/
def afterAttribution (p : StrictDeps) (env : Env) (s : Session) : Reply StrictDeps Session :=
  match p.mode with
  | .off => (.ok (), p, s)
  | _ =>
    let undeclared := env.resolved.filter p.isUndeclared
    let reports := undeclared.map fun r => p.undeclaredImport env.path r.imported
    let p' := undeclared.foldl (fun p r => p.addUse ⟨r.imported.package, env.path⟩) p
    (.ok (), p', { s with log := s.log.reportAll reports })

def missingNote (p : StrictDeps) (package : String) : Diagnostic :=
  .note analysisName
    s!"'{package}' is used by {p.unitCount package} unit(s) but not declared with {directDepFlag}"

/-- Sum up the undeclared packages, and abort the run if the check is strict. -/
def finish (p : StrictDeps) (s : Session) : Reply StrictDeps Session :=
  let s := { s with log := s.log.reportAll (p.missing.map p.missingNote) }
  match p.mode, p.missing with
  | .strict, missing@(_ :: _) =>
    let list := ", ".intercalate missing
    (.error (.escalate .error s!"missing direct dependencies: {list}"), p, s)
  | _, _ => (.ok (), p, s)

instance : Plugin StrictDeps where
  name _ := analysisName
  description _ := "Check that classpath imports come from declared direct dependencies"
  flags _ :=
    [⟨checkFlag, some "strict|warn|off",
      "How to treat imports from undeclared packages (default: off)"⟩,
      ⟨directDepFlag, some "package", "Declare a direct dependency; may be repeated"⟩]
  processArgs := processArgs
  afterAttribution := afterAttribution
  finish := finish

end StrictDeps

end AnalysisHost
