import AnalysisHost.Diagnostic

/-!
# The shared log

All diagnostics of a run, in the order in which they were reported. Reporting only ever appends, so
a reader that remembers how long the log was can later ask for what came since. A log may be told
to treat warnings as errors: every warning reported *from then on* is recorded as an error, and
what is already recorded stays as it is.
-/

namespace AnalysisHost

/-- Diagnostics in reporting order. -/
structure Log where
  diagnostics : List Diagnostic := []
  /-- Whether warnings are recorded as errors. -/
  warningsAsErrors : Bool := false
  deriving DecidableEq, Repr

namespace Log

def empty : Log := {}

/-- The form in which this log records a diagnostic. -/
def recorded (log : Log) (d : Diagnostic) : Diagnostic :=
  if log.warningsAsErrors then d.promote else d

def report (log : Log) (d : Diagnostic) : Log :=
  { log with diagnostics := log.diagnostics ++ [log.recorded d] }

def reportAll (log : Log) (ds : List Diagnostic) : Log := ds.foldl report log

/-- From now on, record warnings as errors, or stop doing so. -/
def setWarningsAsErrors (log : Log) (enabled : Bool) : Log :=
  { log with warningsAsErrors := enabled }

def size (log : Log) : Nat := log.diagnostics.length

def isEmpty (log : Log) : Bool := log.diagnostics.isEmpty

def hasErrors (log : Log) : Bool := log.diagnostics.any (·.severity.isError)

def hasWarnings (log : Log) : Bool := log.diagnostics.any (·.severity.isWarning)

def errorCount (log : Log) : Nat := log.diagnostics.countP (·.severity.isError)

def warningCount (log : Log) : Nat := log.diagnostics.countP (·.severity.isWarning)

def fromSource (log : Log) (source : String) : List Diagnostic :=
  log.diagnostics.filter fun d => decide (d.source = source)

/-- What has been recorded since the log held `n` diagnostics. -/
def since (log : Log) (n : Nat) : List Diagnostic := log.diagnostics.drop n

/-! ### What the operations do to the diagnostics -/

@[simp] theorem diagnostics_report (log : Log) (d : Diagnostic) :
    (log.report d).diagnostics = log.diagnostics ++ [log.recorded d] := rfl

@[simp] theorem warningsAsErrors_report (log : Log) (d : Diagnostic) :
    (log.report d).warningsAsErrors = log.warningsAsErrors := rfl

@[simp] theorem recorded_report (log : Log) (d e : Diagnostic) :
    (log.report d).recorded e = log.recorded e := rfl

theorem warningsAsErrors_reportAll (log : Log) (ds : List Diagnostic) :
    (log.reportAll ds).warningsAsErrors = log.warningsAsErrors := by
  induction ds generalizing log with
  | nil => rfl
  | cons d ds ih => exact ih (log.report d)

theorem diagnostics_reportAll (log : Log) (ds : List Diagnostic) :
    (log.reportAll ds).diagnostics = log.diagnostics ++ ds.map log.recorded := by
  induction ds generalizing log with
  | nil => simp [reportAll]
  | cons d ds ih =>
    have h : (log.report d).recorded = log.recorded := funext fun _ => rfl
    have := ih (log.report d)
    simp only [reportAll, List.foldl_cons] at this ⊢
    rw [this, h]; simp

/-- Logs that treat warnings alike record everything alike. -/
theorem recorded_congr {log log' : Log} (h : log.warningsAsErrors = log'.warningsAsErrors) :
    log.recorded = log'.recorded := by
  funext d
  rw [recorded, recorded, h]

/-- Only warnings are ever promoted. -/
theorem recorded_of_ne_warning {d : Diagnostic} (h : d.severity ≠ .warning) (log : Log) :
    log.recorded d = d := by
  cases d with
  | mk severity source message unit? location? =>
    cases severity with
    | warning => exact absurd rfl h
    | error | note => exact ite_self _

/-- Where warnings are errors, no warning is recorded. -/
theorem isWarning_recorded {log : Log} (h : log.warningsAsErrors = true) (d : Diagnostic) :
    (log.recorded d).severity.isWarning = false := by
  simp [recorded, h, Diagnostic.promote, Severity.isWarning_promote]

end Log

end AnalysisHost
