/-!
# The lifecycle of a run

A run moves through its stages in one direction, and from any stage in which work is under way it
may be aborted instead:

    notStarted → argsProcessed → initialized → phaseLoop → finished
                      │               │            │
                      └───────────────┴────────────┴──▶ aborted

`Stage.canMoveTo` is this picture; `Lifecycle.advance` refuses every other move and then stays where
it is.
-/

namespace AnalysisHost

namespace Lifecycle

/-- How far a run has come. -/
inductive Stage where
  | notStarted
  | argsProcessed
  | initialized
  | phaseLoop
  | finished
  | aborted
  deriving DecidableEq, Repr

namespace Stage

def all : List Stage :=
  [.notStarted, .argsProcessed, .initialized, .phaseLoop, .finished, .aborted]

def text : Stage → String
  | .notStarted => "not-started"
  | .argsProcessed => "args-processed"
  | .initialized => "initialized"
  | .phaseLoop => "phase-loop"
  | .finished => "finished"
  | .aborted => "aborted"

def ofText? (word : String) : Option Stage := all.find? fun s => decide (s.text = word)

def isTerminal : Stage → Bool
  | .finished | .aborted => true
  | _ => false

def canMoveTo : Stage → Stage → Bool
  | .notStarted, .argsProcessed => true
  | .argsProcessed, .initialized => true
  | .initialized, .phaseLoop => true
  | .phaseLoop, .finished => true
  | .argsProcessed, .aborted => true
  | .initialized, .aborted => true
  | .phaseLoop, .aborted => true
  | _, _ => false

def successors (s : Stage) : List Stage := all.filter s.canMoveTo

/-- A stage is terminal exactly if no move leaves it. -/
theorem isTerminal_iff (s : Stage) : s.isTerminal = true ↔ s.successors = [] := by
  cases s <;> decide

end Stage

/-- A refused move. -/
structure IllegalMove where
  origin : Stage
  target : Stage
  deriving DecidableEq, Repr

def IllegalMove.message (move : IllegalMove) : String :=
  s!"illegal lifecycle transition from {move.origin.text} to {move.target.text}"

end Lifecycle

/-- The lifecycle of one run. -/
structure Lifecycle where
  stage : Lifecycle.Stage := .notStarted
  deriving DecidableEq, Repr

namespace Lifecycle

def advance (life : Lifecycle) (next : Stage) : Except IllegalMove Lifecycle :=
  if life.stage.canMoveTo next then .ok ⟨next⟩ else .error ⟨life.stage, next⟩

def abort (life : Lifecycle) : Except IllegalMove Lifecycle := life.advance .aborted

theorem advance_eq_ok_iff {life life' : Lifecycle} {next : Stage} :
    life.advance next = .ok life' ↔ life.stage.canMoveTo next = true ∧ life' = ⟨next⟩ := by
  unfold advance
  by_cases h : life.stage.canMoveTo next = true
  · simp only [h, if_true, Except.ok.injEq, true_and]
    exact eq_comm
  · simp [h]

end Lifecycle

end AnalysisHost
