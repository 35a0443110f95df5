import AnalysisHost.Diagnostic
import AnalysisHost.Failure
import AnalysisHost.Flag
import AnalysisHost.Lifecycle
import AnalysisHost.Log

/-!
# How a run ends

A run completes, is aborted by an escalation, never starts because the command line is rejected, or
crashes. Each way has a status for the process and, unless the run completed, a message.
-/

namespace AnalysisHost

/-- How a run ended. -/
inductive Outcome where
  /-- Every unit went through every phase and every plugin concluded. -/
  | completed (status : ExitStatus)
  /-- A plugin escalated; its status and message are kept as they are. -/
  | aborted (escalation : Escalation)
  /-- A plugin rejected the command line, before anything was compiled. -/
  | invalidCommandLine (error : FlagError)
  /-- A plugin or the host failed with something other than an escalation. -/
  | crashed (message : String)
  deriving DecidableEq, Repr

namespace Outcome

/-- The outcome of a run that went through, given its log. -/
def ofLog (log : Log) : Outcome := .completed (if log.hasErrors then .error else .ok)

/-- The outcome of a run that a failure stopped. -/
def ofFailure (f : Failure) : Outcome :=
  match f.escalation? with
  | some e => .aborted e
  | none => .crashed f.text

def status : Outcome → ExitStatus
  | completed status => status
  | aborted e => e.exitStatus
  | invalidCommandLine _ => .cmdErr
  | crashed _ => .abnormal

/-- What is printed on the error stream. -/
def message? : Outcome → Option String
  | completed _ => none
  | aborted e => some e.message
  | invalidCommandLine error => some s!"invalid command line: {error.message}"
  | crashed message => some message

def isSuccess (o : Outcome) : Bool := o.status.isOk

end Outcome

/-- What a run has to show. -/
structure RunReport where
  outcome : Outcome
  /-- What host phases and plugins reported, in order. -/
  diagnostics : List Diagnostic
  /-- The stage in which the run ended. -/
  stage : Lifecycle.Stage
  /-- How many units went through both phases. -/
  unitsCompiled : Nat
  deriving DecidableEq, Repr

namespace RunReport

def errorCount (r : RunReport) : Nat := r.diagnostics.countP (·.severity.isError)

def warningCount (r : RunReport) : Nat := r.diagnostics.countP (·.severity.isWarning)

end RunReport

end AnalysisHost
