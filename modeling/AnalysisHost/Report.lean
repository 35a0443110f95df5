import AnalysisHost.Analysis.Bundled
import AnalysisHost.Manifest.Read
import AnalysisHost.Run

/-!
# Reports

What the commands have to show, as data: a report is a list of lines that say *what* is shown, and
`Line.onTerminal` says how a terminal shows it. A compilation also has a machine-readable report, a
JSON document.
-/

namespace AnalysisHost.Report

/-! ### Lines -/

/-- A line of a report, by its role. -/
inductive Line where
  | title (text : String)
  | section (name : String)
  | keyValue (key value : String)
  | item (text : String)
  | diagnostic (text : String)
  | preformatted (text : String)
  | blank
  deriving DecidableEq, Repr

/-- Where a terminal shows a line. -/
inductive Stream where
  | output
  | error
  deriving DecidableEq, Repr

/-- How a terminal shows a line, and where. A title is underlined, as far as it has bytes. -/
def Line.onTerminal : Line → Stream × String
  | title text =>
    let rule := String.ofList (List.replicate text.utf8ByteSize '=')
    (.output, text ++ "\n" ++ rule ++ "\n")
  | .section name => (.output, name ++ ":\n")
  | keyValue key value => (.output, key ++ ": " ++ value ++ "\n")
  | item text => (.output, "  - " ++ text ++ "\n")
  | diagnostic text => (.error, text ++ "\n")
  | preformatted text => (.output, text ++ "\n")
  | blank => (.output, "\n")

/-- What a terminal shows of a report on one of its streams. -/
def shownOn (stream : Stream) (lines : List Line) : String :=
  String.join (lines.filterMap fun line =>
    let (s, text) := line.onTerminal
    if s = stream then some text else none)

/-! ### Plugins -/

/-- A flag as it is typed, with a placeholder for its value. -/
def usage (flag : FlagInfo) : String :=
  match flag.value? with
  | some value => flag.name ++ "=<" ++ value ++ ">"
  | none => flag.name

def pluginLines (info : PluginInfo) : List Line :=
  [.blank, .section info.name, .preformatted s!"  {info.description}"] ++
    info.flags.map fun flag => .item s!"{usage flag}  {flag.help}"

def plugins (infos : List PluginInfo) : List Line :=
  .title "Plugins" :: infos.flatMap pluginLines

/-! ### Checked manifests -/

/-- What there is to say about a manifest. -/
structure Check where
  path : String
  units : List String
  sourcePackages : List String
  classpathPackages : List String
  /-- How many imports there are in all units. -/
  imports : Nat
  deriving DecidableEq, Repr

def Check.ofSource (source : Manifest.Source) : Check where
  path := source.path
  units := source.manifest.units.map (·.path)
  sourcePackages := source.manifest.sourcePackages
  classpathPackages := source.manifest.classpath.map (·.package)
  imports := (source.manifest.lower.flatMap (·.imports)).length

/-- A list of packages under a heading, if there are any. -/
def packageLines (heading : String) : List String → List Line
  | [] => []
  | packages@(_ :: _) => [.blank, .section heading] ++ packages.map .item

def Check.lines (c : Check) : List Line :=
  [.preformatted s!"✓ {c.path} is valid", .blank, .keyValue "units" (toString c.units.length),
    .keyValue "imports" (toString c.imports)] ++
    packageLines "Source packages" c.sourcePackages ++
    packageLines "Classpath packages" c.classpathPackages

/-! ### Compilations -/

def compile (m : Manifest) (flags : List String) (warningsAsErrors : Bool) (files : Files) :
    Run Bundled :=
  let c : Compilation Bundled := .ofManifest m
  { c with plugins := Bundled.all, warningsAsErrors }.run flags files

def plural (n : Nat) : String := if n = 1 then "" else "s"

def summary (path : String) (r : RunReport) : String :=
  let units := s!"{r.unitsCompiled} unit{plural r.unitsCompiled}"
  let errors := s!"{r.errorCount} error{plural r.errorCount}"
  let warnings := s!"{r.warningCount} warning{plural r.warningCount}"
  s!"{path}: compiled {units} ({errors}, {warnings}), {r.stage.text}"

/-- The report on a run over the manifest at a path. -/
def runLines (path : String) (r : RunReport) : List Line :=
  r.diagnostics.map (.diagnostic ·.text) ++
    (if r.diagnostics.isEmpty then [] else [.blank]) ++ [.preformatted (summary path r)]

/-- The machine-readable report on a run over the manifest at a path. -/
def runJson (path : String) (r : RunReport) : Json :=
  .objectOf
    [("units", some (.string path)), ("status", some (.string r.outcome.status.text)),
      ("code", some (.number r.outcome.status.code)), ("state", some (.string r.stage.text)),
      ("message", r.outcome.message?.map .string),
      ("units_compiled", some (.number r.unitsCompiled)),
      ("diagnostics", some (.array (r.diagnostics.map Diagnostic.toJson)))]

end AnalysisHost.Report
