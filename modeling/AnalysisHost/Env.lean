import AnalysisHost.Attribution
import AnalysisHost.Flow

/-!
# What an analysis sees of a unit

After each phase, analyses get to see the tree of the unit and all that the host has found out about
it so far. Whether there are flow facts tells which phase has just ended, so the two cannot
disagree.
-/

namespace AnalysisHost

/-- A unit and what is known about it. -/
structure Env where
  tree : CompilationUnit
  resolved : List Resolution
  flow? : Option Flow.Facts := none
  deriving DecidableEq, Repr

namespace Env

def phase (env : Env) : Phase := if env.flow?.isSome then .flow else .attribution

def path (env : Env) : String := env.tree.path

def package (env : Env) : String := env.tree.package

end Env

end AnalysisHost
