import AnalysisHost.CompilationUnit
import AnalysisHost.Log
import AnalysisHost.Phase

/-!
# The flow phase

A method body runs from its first statement on, and `return` and `throw` end it. The phase finds,
for each method, the first statement that can therefore never run, if there is one, and otherwise
whether control can run off the end. A method with an unreachable statement, one that ends exactly
at its last statement, and one that completes normally are the three possibilities
(`Flow.Exit`).
-/

namespace AnalysisHost

namespace Flow

/-- A statement that can never run. -/
structure Unreachable where
  method : String
  /-- Its place in the method body, counted from zero. -/
  index : Nat
  deriving DecidableEq, Repr

/-- What the flow phase finds out about a unit. -/
structure Facts where
  unreachable : List Unreachable := []
  /-- The methods whose end control can reach. -/
  completesNormally : List String := []
  deriving DecidableEq, Repr

/-- How control leaves a method body. -/
inductive Exit where
  /-- It runs off the end. -/
  | normal
  /-- It leaves at the last statement. -/
  | atEnd
  /-- It leaves earlier; the index is that of the first statement left behind. -/
  | early (index : Nat)
  deriving DecidableEq, Repr

/-- How control leaves a body of which `passed` statements have already run. -/
def exitFrom (passed : Nat) : List Statement → Exit
  | [] => .normal
  | s :: rest =>
    if s.isTerminal then
      match rest with
      | [] => .atEnd
      | _ :: _ => .early (passed + 1)
    else exitFrom (passed + 1) rest

/-- How control leaves a method. -/
def exit (m : Method) : Exit := exitFrom 0 m.body

def facts (methods : List Method) : Facts where
  unreachable := methods.filterMap fun m =>
    match exit m with
    | .early index => some ⟨m.name, index⟩
    | _ => none
  completesNormally := methods.filterMap fun m =>
    match exit m with
    | .normal => some m.name
    | _ => none

end Flow

namespace CompilationUnit

def unreachableStatement (u : CompilationUnit) (s : Flow.Unreachable) : Diagnostic :=
  ((Diagnostic.error Phase.flow.text "unreachable statement").inUnit u.path).located
    s!"{s.method}#{s.index}"

def flowFacts (u : CompilationUnit) : Flow.Facts := Flow.facts u.methods

def flowErrors (u : CompilationUnit) : List Diagnostic :=
  u.flowFacts.unreachable.map u.unreachableStatement

/-- Find the flow facts of a unit, and report its unreachable statements. -/
def flow (u : CompilationUnit) (log : Log) : Flow.Facts × Log :=
  (u.flowFacts, log.reportAll u.flowErrors)

end CompilationUnit

end AnalysisHost
