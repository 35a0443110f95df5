/-!
# Host phases

Every unit passes through two phases, and analyses are called after each: *attribute* resolves its
imports, *flow* checks which statements can be reached.
-/

namespace AnalysisHost

/-- A phase of the host. -/
inductive Phase where
  | attribution
  | flow
  deriving DecidableEq, Repr

namespace Phase

def all : List Phase := [.attribution, .flow]

/-- The name of a phase, also the source of the diagnostics that it reports. -/
def text : Phase → String
  | .attribution => "attribute"
  | .flow => "flow"

def description : Phase → String
  | .attribution => "Resolve imports against source units and the classpath"
  | .flow => "Check statement reachability in method bodies"

end Phase

end AnalysisHost
