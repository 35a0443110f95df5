import AnalysisHost.Analysis.ImportCycles
import AnalysisHost.Analysis.Naming
import AnalysisHost.Analysis.PhaseTrace
import AnalysisHost.Analysis.StrictDeps

/-!
# The bundled analyses

The four analyses that come with the host, as one type of plugins, so that they can run together.
-/

namespace AnalysisHost

/-- A bundled analysis. -/
inductive Bundled where
  | strictDeps (p : StrictDeps)
  | importCycles (p : ImportCycles)
  | naming (p : Naming)
  | phaseTrace (p : PhaseTrace)
  deriving DecidableEq, Repr

namespace Bundled

/-- Every analysis as it is before it has seen any flag, in the order of registration. The trace
comes last, so that its snapshots hold what the others report in the same callback. -/
def all : List Bundled := [.strictDeps {}, .importCycles {}, .naming {}, .phaseTrace {}]

instance : Plugin Bundled where
  name
    | .strictDeps p => Plugin.name p
    | .importCycles p => Plugin.name p
    | .naming p => Plugin.name p
    | .phaseTrace p => Plugin.name p
  description
    | .strictDeps p => Plugin.description p
    | .importCycles p => Plugin.description p
    | .naming p => Plugin.description p
    | .phaseTrace p => Plugin.description p
  flags
    | .strictDeps p => Plugin.flags p
    | .importCycles p => Plugin.flags p
    | .naming p => Plugin.flags p
    | .phaseTrace p => Plugin.flags p
  processArgs
    | .strictDeps p, args => let (r, p) := Plugin.processArgs p args; (r, .strictDeps p)
    | .importCycles p, args => let (r, p) := Plugin.processArgs p args; (r, .importCycles p)
    | .naming p, args => let (r, p) := Plugin.processArgs p args; (r, .naming p)
    | .phaseTrace p, args => let (r, p) := Plugin.processArgs p args; (r, .phaseTrace p)
  prepareContext
    | .strictDeps p, c => Reply.map .strictDeps (Plugin.prepareContext p c)
    | .importCycles p, c => Reply.map .importCycles (Plugin.prepareContext p c)
    | .naming p, c => Reply.map .naming (Plugin.prepareContext p c)
    | .phaseTrace p, c => Reply.map .phaseTrace (Plugin.prepareContext p c)
  setUp
    | .strictDeps p, s => Reply.map .strictDeps (Plugin.setUp p s)
    | .importCycles p, s => Reply.map .importCycles (Plugin.setUp p s)
    | .naming p, s => Reply.map .naming (Plugin.setUp p s)
    | .phaseTrace p, s => Reply.map .phaseTrace (Plugin.setUp p s)
  afterAttribution
    | .strictDeps p, env, s => Reply.map .strictDeps (Plugin.afterAttribution p env s)
    | .importCycles p, env, s => Reply.map .importCycles (Plugin.afterAttribution p env s)
    | .naming p, env, s => Reply.map .naming (Plugin.afterAttribution p env s)
    | .phaseTrace p, env, s => Reply.map .phaseTrace (Plugin.afterAttribution p env s)
  afterFlow
    | .strictDeps p, env, s => Reply.map .strictDeps (Plugin.afterFlow p env s)
    | .importCycles p, env, s => Reply.map .importCycles (Plugin.afterFlow p env s)
    | .naming p, env, s => Reply.map .naming (Plugin.afterFlow p env s)
    | .phaseTrace p, env, s => Reply.map .phaseTrace (Plugin.afterFlow p env s)
  finish
    | .strictDeps p, s => Reply.map .strictDeps (Plugin.finish p s)
    | .importCycles p, s => Reply.map .importCycles (Plugin.finish p s)
    | .naming p, s => Reply.map .naming (Plugin.finish p s)
    | .phaseTrace p, s => Reply.map .phaseTrace (Plugin.finish p s)

/-- The bundled analysis with a given name, as it is before it has seen any flag. -/
def named? (name : String) : Option Bundled := all.find? fun p => decide (Plugin.name p = name)

end Bundled

end AnalysisHost
