import AnalysisHost.Proofs.Tracing

/-!
# Warnings as errors

Two runs over the same manifest, flags and files, one of which records warnings as errors. No call
looks at the severity of what has been logged, so the second run is the first one with every warning
made an error, in the log and in the snapshots of the trace. The promotion is a map on runs under
way (`Progress.promote`), and every task but the last call of the trace commutes with it
(`Progress.perform_promote`).

The last call of the trace writes what has been logged, so there the files come apart: one run
leaves the trace of the other, promoted (`PhaseTrace.finish_promote`). `Bundled.compile_promoted`
puts the two runs together.
-/

namespace AnalysisHost

/-! ## Promotion

The map of the whole development: each part of a run that remembers diagnostics is promoted, and
nothing else is. A log that promotes on its own accord records a diagnostic as the promoted log
does. -/

/-- The same log where warnings are errors. -/
def Log.promote (log : Log) : Log where
  diagnostics := log.diagnostics.map Diagnostic.promote
  warningsAsErrors := true

/-- The same snapshot where warnings are errors. -/
def Snapshot.promote (s : Snapshot) : Snapshot :=
  { s with diagnostics := s.diagnostics.map Diagnostic.promote }

/-- The same trace where warnings are errors. -/
def Trace.promote (t : Trace) : Trace := { t with snapshots := t.snapshots.map Snapshot.promote }

/-- Of what plugins are lent, only the log is promoted. -/
def Session.promote (s : Session) : Session := { s with log := s.log.promote }

def PhaseTrace.promote (t : PhaseTrace) : PhaseTrace :=
  { t with snapshots := t.snapshots.map Snapshot.promote }

/-- Only the trace remembers diagnostics. -/
def Bundled.promote : Bundled → Bundled
  | .phaseTrace t => .phaseTrace t.promote
  | p => p

def Progress.promote (run : Progress Bundled) : Progress Bundled :=
  { run with plugins := run.plugins.map Bundled.promote, session := run.session.promote }

namespace Log

end Log

/-! ## Calls

No callback asks for a severity, except the last one of the trace, which prints what it has
remembered. So every other call commutes with the map, and of that one only the file that it leaves
is another. -/

namespace PhaseTrace

/-- Whether a run is traced to a directory shows in its files: if it gets through, it leaves a file
in which a trace is read. Where warnings are errors the promoted trace is read there, and otherwise
the files are the same. -/
structure LeftAlike (directory? : Option String) (concluded : Prop) (plain strict : Files) :
    Prop where
  written : ∀ directory, directory? = some directory → concluded →
    ∃ trace : Trace, (∀ trace', Written plain directory trace' ↔ trace' = trace) ∧
      ∀ trace', Written strict directory trace' ↔ trace' = trace.promote
  others : (directory? = none ∨ ¬ concluded) → strict = plain

/-- Where no trace is left, the files are the same. -/
theorem LeftAlike.same {directory? : Option String} {concluded : Prop}
    (h : directory? = none ∨ ¬ concluded) (files : Files) :
    LeftAlike directory? concluded files files where
  written directory hdirectory hconcluded := by
    rcases h with rfl | hnot
    · cases hdirectory
    · exact absurd hconcluded hnot
  others _ := rfl

end PhaseTrace

namespace Bundled

end Bundled

namespace Bundled

end Bundled

/-! ## Sweeps and tasks

What commutes with one call commutes with a sweep and with a list of tasks. -/

namespace Progress

end Progress

/-! ## The last call

Up to here the two runs are each other's image. In the last sweep the trace is the only plugin that
may behave otherwise, so it is taken off the end of the list. -/

namespace Compilation

variable {π : Type}

/-- The last call stands behind all units, and only the last stage follows it. -/
theorem schedule_eq_concat (c : Compilation π) :
    c.schedule = c.scheduleTo c.units.length ++ [.call .finish, .enter .finished] := by
  rw [c.schedule_eq c.units.length, scheduleFrom, List.drop_length]
  rfl

/-- It stands nowhere else. -/
theorem finish_not_mem_scheduleTo (c : Compilation π) (k : Nat) :
    .call .finish ∉ c.scheduleTo k := by
  simp [scheduleTo, CompilationUnit.tasks]

end Compilation

namespace Bundled

end Bundled

end AnalysisHost
