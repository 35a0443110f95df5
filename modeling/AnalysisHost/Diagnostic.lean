/-!
# Diagnostics

What host phases and analyses have to say. A diagnostic has a severity, a source (the phase or
analysis that speaks), a message, and optionally the unit it is about and a location inside it.
-/

namespace AnalysisHost

/-- How serious a diagnostic is. -/
inductive Severity where
  /-- Makes the run fail once compilation completes. -/
  | error
  /-- Does not make the run fail unless warnings count as errors. -/
  | warning
  /-- Supplementary information. -/
  | note
  deriving DecidableEq, Repr

namespace Severity

def all : List Severity := [.error, .warning, .note]

def text : Severity → String
  | .error => "error"
  | .warning => "warning"
  | .note => "note"

def isError : Severity → Bool
  | .error => true
  | _ => false

def isWarning : Severity → Bool
  | .warning => true
  | _ => false

/-- The severity that counts when warnings are errors. -/
def promote : Severity → Severity
  | .warning => .error
  | s => s

theorem isWarning_promote (s : Severity) : s.promote.isWarning = false := by
  cases s <;> rfl

end Severity

/-- A message from a host phase or an analysis. -/
structure Diagnostic where
  severity : Severity
  /-- The phase or analysis that reports. -/
  source : String
  message : String
  /-- The path of the unit it is about. -/
  unit? : Option String := none
  /-- A place inside the unit, such as `run#2` or `import com.lib.Util`. -/
  location? : Option String := none
  deriving DecidableEq, Repr

namespace Diagnostic

def error (source message : String) : Diagnostic := ⟨.error, source, message, none, none⟩

def warning (source message : String) : Diagnostic := ⟨.warning, source, message, none, none⟩

def note (source message : String) : Diagnostic := ⟨.note, source, message, none, none⟩

def inUnit (d : Diagnostic) (path : String) : Diagnostic := { d with unit? := some path }

def located (d : Diagnostic) (location : String) : Diagnostic :=
  { d with location? := some location }

/-- The same diagnostic where warnings count as errors. -/
def promote (d : Diagnostic) : Diagnostic := { d with severity := d.severity.promote }

/-- The line shown for a diagnostic: unit, severity, source in brackets, message, location. -/
def text (d : Diagnostic) : String :=
  let unit := match d.unit? with
    | some path => s!"{path}: "
    | none => ""
  let location := match d.location? with
    | some place => s!" (at {place})"
    | none => ""
  s!"{unit}{d.severity.text}: [{d.source}] {d.message}{location}"

end Diagnostic

end AnalysisHost
