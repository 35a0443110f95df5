/-!
# Exit statuses

How a run ends, seen from outside. An `ExitStatus` is what the process reports; an `AbortStatus`
is what an analysis may end a run with. The two are separate types so that nothing can abort a run
*successfully*: `AbortStatus.toExitStatus` never hits `.ok`, and nothing maps back.
-/

namespace AnalysisHost

/-- The final status of a run. -/
inductive ExitStatus where
  /-- Compilation completed without errors. -/
  | ok
  /-- Compilation completed, or was ended, with errors. -/
  | error
  /-- The command line was rejected. -/
  | cmdErr
  /-- A file or directory was unavailable. -/
  | sysErr
  /-- The host or one of its analyses failed unexpectedly. -/
  | abnormal
  deriving DecidableEq, Repr

namespace ExitStatus

def all : List ExitStatus := [.ok, .error, .cmdErr, .sysErr, .abnormal]

def code : ExitStatus → Nat
  | .ok => 0
  | .error => 1
  | .cmdErr => 2
  | .sysErr => 3
  | .abnormal => 4

/-- The word for a status in messages and in machine-readable reports. -/
def text : ExitStatus → String
  | .ok => "ok"
  | .error => "error"
  | .cmdErr => "cmderr"
  | .sysErr => "syserr"
  | .abnormal => "abnormal"

def isOk : ExitStatus → Bool
  | .ok => true
  | _ => false

theorem code_eq_zero_iff (s : ExitStatus) : s.code = 0 ↔ s = .ok := by
  cases s <;> decide

end ExitStatus

/-- A status that an analysis may abort a run with: any but success. -/
inductive AbortStatus where
  | error
  | cmdErr
  | sysErr
  | abnormal
  deriving DecidableEq, Repr

namespace AbortStatus

def all : List AbortStatus := [.error, .cmdErr, .sysErr, .abnormal]

def toExitStatus : AbortStatus → ExitStatus
  | .error => .error
  | .cmdErr => .cmdErr
  | .sysErr => .sysErr
  | .abnormal => .abnormal

def text (s : AbortStatus) : String := s.toExitStatus.text

/-- An aborted run is never a success. -/
theorem toExitStatus_ne_ok (s : AbortStatus) : s.toExitStatus ≠ .ok := by
  cases s <;> decide

end AbortStatus

end AnalysisHost
