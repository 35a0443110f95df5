import AnalysisHost.Json
import AnalysisHost.Plugin

/-!
# Tracing callbacks

Takes a snapshot of the host after each of its own callbacks, and writes all of them to
`trace.json` when the run concludes. It is enabled by naming a directory to write to. A snapshot
holds the diagnostics that came since the one before, so their concatenation is the whole log, and
the number of task events that the trace's listeners have heard so far.
-/

namespace AnalysisHost

/-! ### Traces -/

/-- The host right after a callback. -/
structure Snapshot where
  callback : String
  phase? : Option Phase := none
  unit? : Option String := none
  /-- How many task events had been heard. -/
  taskEvents : Nat
  /-- What was reported since the snapshot before. -/
  diagnostics : List Diagnostic
  deriving DecidableEq, Repr

/-- The whole trace. -/
structure Trace where
  host : String
  version : String
  taskEvents : Nat
  snapshots : List Snapshot
  deriving DecidableEq, Repr

def Diagnostic.toJson (d : Diagnostic) : Json :=
  .objectOf
    [("severity", some (.string d.severity.text)), ("source", some (.string d.source)),
      ("message", some (.string d.message)), ("unit", d.unit?.map .string),
      ("location", d.location?.map .string)]

def Snapshot.toJson (s : Snapshot) : Json :=
  .objectOf
    [("callback", some (.string s.callback)), ("phase", s.phase?.map fun p => .string p.text),
      ("unit", s.unit?.map .string), ("task_events", some (.number s.taskEvents)),
      ("diagnostics", some (.array (s.diagnostics.map Diagnostic.toJson)))]

def Trace.toJson (t : Trace) : Json :=
  .object
    [("host", .string t.host), ("version", .string t.version),
      ("task_events", .number t.taskEvents),
      ("snapshots", .array (t.snapshots.map Snapshot.toJson))]

/-! ### The analysis -/

/-- The state of the trace. -/
structure PhaseTrace where
  /-- The directory to write to; without one, nothing is traced. -/
  directory? : Option String := none
  listeners : List Nat := []
  snapshots : List Snapshot := []
  /-- How much of the log has gone into snapshots. -/
  recorded : Nat := 0
  deriving DecidableEq, Repr

namespace PhaseTrace

def directoryFlag : String := "--trace-dir"

def analysisName : String := "phase-trace"

def traceFile : String := "trace.json"

def processArgs (p : PhaseTrace) (args : List String) :
    Except FlagError (List String) × PhaseTrace :=
  match Flag.claimOne directoryFlag args with
  | .error e => (.error e, p)
  | .ok (none, rest) => (.ok rest, p)
  | .ok (some directory, rest) => (.ok rest, { p with directory? := some directory })

/-- How many events the listeners of this trace have heard. -/
def taskEvents (p : PhaseTrace) (context : RunContext) : Nat :=
  (p.listeners.flatMap context.heard).length

def capture (p : PhaseTrace) (callback : String) (env? : Option Env) (s : Session) : PhaseTrace :=
  match p.directory? with
  | none => p
  | some _ =>
    let snapshot : Snapshot :=
      { callback
        phase? := env?.map Env.phase
        unit? := env?.map Env.path
        taskEvents := p.taskEvents s.context
        diagnostics := s.log.since p.recorded }
    { p with snapshots := p.snapshots ++ [snapshot], recorded := s.log.size }

def trace (p : PhaseTrace) (s : Session) : Trace where
  host := s.host.name
  version := s.host.version
  taskEvents := p.taskEvents s.context
  snapshots := p.snapshots

/-- Write a text to the trace file in a directory, making the directory first. What was made stays,
even if the rest fails. -/
def writeTrace (files : Files) (directory text : String) : Except FileError Unit × Files :=
  match files.createDirectories directory with
  | (.error e, files) => (.error e, files)
  | (.ok (), files) =>
    match files.write (Files.inDirectory directory traceFile) text with
    | .error e => (.error e, files)
    | .ok files => (.ok (), files)

/-! ### Callbacks -/

/-- Install a listener, if the trace is enabled. -/
def prepareContext (p : PhaseTrace) (context : RunContext) : Reply PhaseTrace RunContext :=
  match p.directory? with
  | none => (.ok (), p, context)
  | some _ =>
    let (listener, context) := context.listen
    (.ok (), { p with listeners := p.listeners ++ [listener] }, context)

/-- Take the last snapshot, and write the trace. -/
def finish (p : PhaseTrace) (s : Session) : Reply PhaseTrace Session :=
  match p.directory? with
  | none => (.ok (), p, s)
  | some directory =>
    let p := p.capture "finish" none s
    let (written, files) := writeTrace s.files directory (p.trace s).toJson.render
    let s := { s with files }
    match written with
    | .ok () => (.ok (), p, s)
    | .error e =>
      let path := Files.inDirectory directory traceFile
      (.error (.escalate .sysErr s!"cannot write trace to '{path}': {e.message}"), p, s)

instance : Plugin PhaseTrace where
  name _ := analysisName
  description _ := "Write a JSON trace of every plugin callback"
  flags _ := [⟨directoryFlag, some "dir", "Directory to write trace.json to"⟩]
  processArgs := processArgs
  prepareContext := prepareContext
  setUp p s := (.ok (), p.capture "init" none s, s)
  afterAttribution p env s := (.ok (), p.capture "post_attribute" (some env) s, s)
  afterFlow p env s := (.ok (), p.capture "post_flow" (some env) s, s)
  finish := finish

end PhaseTrace

end AnalysisHost
