import AnalysisHost.Cycle
import AnalysisHost.Plugin

/-!
# Import cycles

Looks for cycles in the graph of packages. An edge is added when a unit of one package, reaching the
end of the flow phase, imports a type that a unit of another package declares; an edge that closes a
cycle is found by looking for a path back. The graph is shared through the context, where others may
read it.

The search follows one shortest path back per new edge. Cycles are compared up to rotation, so none
is reported twice.
-/

namespace AnalysisHost

/-- How a cycle is treated. -/
inductive CycleMode where
  /-- The first one aborts the run. -/
  | fatal
  /-- Each one is a warning. -/
  | warn
  | off
  deriving DecidableEq, Repr

def CycleMode.parse? : String → Option CycleMode
  | "fatal" => some fatal
  | "warn" => some warn
  | "off" => some off
  | _ => none

/-- The state of the cycle search. -/
structure ImportCycles where
  mode : CycleMode := .warn
  /-- The cycles found so far, in canonical form, in order. -/
  cycles : List (List String) := []
  deriving DecidableEq, Repr

namespace ImportCycles

def modeFlag : String := "--import-cycles"

def analysisName : String := "import-cycles"

def processArgs (p : ImportCycles) (args : List String) :
    Except FlagError (List String) × ImportCycles :=
  match Flag.claimOne modeFlag args with
  | .error e => (.error e, p)
  | .ok (none, rest) => (.ok rest, p)
  | .ok (some value, rest) =>
    match Flag.choose CycleMode.parse? modeFlag value "fatal, warn or off" with
    | .error e => (.error e, p)
    | .ok mode => (.ok rest, { p with mode })

/-! ### Finding cycles -/

/-- The packages of other units that a unit of a package imports from, in order of import. -/
def targets (package : String) (resolved : List Resolution) : List String :=
  (resolved.filter fun r =>
    match r.origin with
    | .source _ => decide (r.imported.package ≠ package)
    | _ => false).map (·.imported.package)

/-- The cycle that an edge from `package` to `target` closes, in canonical form. The way back ends
in `package`, with which the cycle begins. -/
def closedCycle? (g : PackageGraph) (package target : String) : Option (List String) :=
  (g.path target package).map fun back => Cycle.canonical (package :: back.dropLast)

/-- Add edges from a package, and collect the cycles that they close. An edge that is there already
closes nothing new. -/
def addEdges (package : String) (g : PackageGraph) :
    List String → PackageGraph × List (List String)
  | [] => (g, [])
  | target :: rest =>
    if g.hasEdge package target then addEdges package g rest
    else
      let g := g.addEdge package target
      let (final, found) := addEdges package g rest
      (final, (closedCycle? g package target).toList ++ found)

def cycleMessage (cycle : List String) : String := s!"import cycle: {Cycle.render cycle}"

/-- Note cycles that were not known before. The first of them aborts the run if cycles are fatal. -/
def noteCycles (unit : String) : ImportCycles → Log → List (List String) →
    Except Failure Unit × ImportCycles × Log
  | p, log, [] => (.ok (), p, log)
  | p, log, cycle :: rest =>
    if cycle ∈ p.cycles then noteCycles unit p log rest
    else
      let p := { p with cycles := p.cycles ++ [cycle] }
      match p.mode with
      | .fatal =>
        (.error (.escalate .error "illegal import cycle"), p,
          log.report ((Diagnostic.note analysisName (cycleMessage cycle)).inUnit unit))
      | _ =>
        noteCycles unit p
          (log.report ((Diagnostic.warning analysisName (cycleMessage cycle)).inUnit unit)) rest

/-! ### Callbacks -/

/-- The graph in a context, empty if there is none yet. -/
def graphIn (context : RunContext) : PackageGraph :=
  (context.get? .packageGraph).getD PackageGraph.empty

/-- Add the edges of a unit, and report the cycles that they close. -/
def afterFlow (p : ImportCycles) (env : Env) (s : Session) : Reply ImportCycles Session :=
  match p.mode with
  | .off => (.ok (), p, s)
  | _ =>
    let (graph, found) :=
      addEdges env.package (graphIn s.context) (targets env.package env.resolved)
    let (_, context) := s.context.put .packageGraph graph
    let (verdict, p, log) := noteCycles env.path p s.log found
    (verdict, p, { s with context, log })

/-- Sum up. -/
def finish (p : ImportCycles) (s : Session) : Reply ImportCycles Session :=
  match p.mode with
  | .off => (.ok (), p, s)
  | _ =>
    let edges := (graphIn s.context).edgeCount
    let message := s!"{p.cycles.length} import cycle(s) across {edges} package edge(s)"
    (.ok (), p, s.report (.note analysisName message))

instance : Plugin ImportCycles where
  name _ := analysisName
  description _ := "Detect import cycles between source packages"
  flags _ :=
    [⟨modeFlag, some "fatal|warn|off", "How to treat import cycles (default: warn)"⟩]
  processArgs := processArgs
  afterFlow := afterFlow
  finish := finish

end ImportCycles

end AnalysisHost
