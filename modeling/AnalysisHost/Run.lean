import AnalysisHost.Lowering
import AnalysisHost.Outcome
import AnalysisHost.Plugin

/-!
# Running plugins over a manifest

A run goes through the callbacks in a fixed order:

1. every plugin claims its flags, each from what the ones before it left over;
2. every plugin prepares the context, then every plugin sets up;
3. each unit in turn is attributed, every plugin looks at it, its flow is checked, and every plugin
   looks at it again;
4. every plugin concludes.

Claiming flags comes first because it needs nothing but the command line. All the rest is a list of
tasks (`Compilation.schedule`) that is known before the first of them is carried out, and a run
carries them out in order up to the first that fails (`Progress.performAll`). The host puts layers
around the failure that say where it happened, and the outcome is read off it.

A run is described by what it leaves: its report, the plugins, the context and the files as they
were at the end, and its `history`, in which every call and every event heard by a listener is
written down in the order in which it happened.
-/

namespace AnalysisHost

def hostName : String := "stagehook"

def hostVersion : String := "0.3.0"

/-! ### History -/

/-- A callback, and the unit that it is about. -/
inductive Callback where
  | processArgs
  | prepareContext
  | setUp
  | afterAttribution (unit : String)
  | afterFlow (unit : String)
  | finish
  deriving DecidableEq, Repr

/-- Something that happens in a run. Plugins are told apart by their place in the registration
order. -/
inductive Occurrence where
  | called (plugin : Nat) (callback : Callback)
  | heard (delivery : Delivery)
  deriving DecidableEq, Repr

/-! ### One callback of every plugin -/

/-- What a callback of every plugin leaves. -/
structure Sweep (ε π α : Type) where
  verdict : Except ε Unit
  plugins : List π
  /-- What was lent to one plugin after the other. -/
  lent : α
  calls : Nat

/-- Call each plugin in turn, up to the first that fails. What is lent passes from one to the next;
plugins behind the failing one are left as they are. -/
def sweep {ε π α : Type} (call : π → α → Except ε Unit × π × α) : List π → α → Sweep ε π α
  | [], lent => ⟨.ok (), [], lent, 0⟩
  | p :: ps, lent =>
    match call p lent with
    | (.error e, p, lent) => ⟨.error e, p :: ps, lent, 1⟩
    | (.ok (), p, lent) =>
      let rest := sweep call ps lent
      { rest with plugins := p :: rest.plugins, calls := rest.calls + 1 }

theorem sweep_cons_of_ok {ε π α : Type} {call : π → α → Except ε Unit × π × α} {p p' : π}
    {lent lent' : α} (h : call p lent = (.ok (), p', lent')) (ps : List π) :
    sweep call (p :: ps) lent =
      { sweep call ps lent' with
        plugins := p' :: (sweep call ps lent').plugins
        calls := (sweep call ps lent').calls + 1 } := by
  rw [sweep, h]

theorem sweep_cons_of_error {ε π α : Type} {call : π → α → Except ε Unit × π × α} {p p' : π}
    {lent lent' : α} {e : ε} (h : call p lent = (.error e, p', lent')) (ps : List π) :
    sweep call (p :: ps) lent = ⟨.error e, p' :: ps, lent', 1⟩ := by
  rw [sweep, h]

/-- In a sweep that goes through, every call does. -/
theorem sweep_cons_eq_ok {ε π α : Type} {call : π → α → Except ε Unit × π × α} {p : π}
    {ps : List π} {lent : α} (h : (sweep call (p :: ps) lent).verdict = .ok ()) :
    ∃ p' lent', call p lent = (.ok (), p', lent') ∧ (sweep call ps lent').verdict = .ok () ∧
      (sweep call (p :: ps) lent).plugins = p' :: (sweep call ps lent').plugins ∧
      (sweep call (p :: ps) lent).lent = (sweep call ps lent').lent := by
  rcases hcall : call p lent with ⟨_ | ⟨⟩, p', lent'⟩
  · rw [sweep_cons_of_error hcall] at h
    cases h
  · rw [sweep_cons_of_ok hcall] at h ⊢
    exact ⟨p', lent', rfl, h, rfl, rfl⟩

def Sweep.history {ε π α : Type} (s : Sweep ε π α) (callback : Callback) : List Occurrence :=
  (List.range s.calls).map (.called · callback)

/-- Let each plugin claim its flags from what is left. -/
def claimFlags {π : Type} [Plugin π] : List π → List String → Sweep FlagError π (List String) :=
  sweep fun p args =>
    match Plugin.processArgs p args with
    | (.ok rest, p) => (.ok (), p, rest)
    | (.error e, p) => (.error e, p, args)

/-! ### Calls -/

/-- A call that is made to every plugin, once the flags are claimed. -/
inductive Call where
  | prepareContext
  | setUp
  /-- Look at a unit after a phase. -/
  | inspect (env : Env)
  | finish
  deriving DecidableEq, Repr

namespace Call

def callback : Call → Callback
  | prepareContext => .prepareContext
  | setUp => .setUp
  | inspect env =>
    match env.phase with
    | .attribution => .afterAttribution env.path
    | .flow => .afterFlow env.path
  | finish => .finish

/-- The layers that the host puts around a failure of a plugin, the first one innermost. -/
def layers (plugin : String) : Call → List String
  | prepareContext => [s!"plugin '{plugin}' failed to initialize the context"]
  | setUp => [s!"plugin '{plugin}' failed to initialize"]
  | inspect env =>
    [s!"plugin '{plugin}' failed after {env.phase.text}", s!"failed to compile '{env.path}'"]
  | finish => [s!"plugin '{plugin}' failed to finish"]

variable {π : Type} [Plugin π]

def make (p : π) (session : Session) : Call → Reply π Session
  | prepareContext =>
    let (verdict, p, context) := Plugin.prepareContext p session.context
    (verdict, p, { session with context })
  | setUp => Plugin.setUp p session
  | inspect env => Plugin.afterPhase p env session
  | finish => Plugin.finish p session

/-- Make a call to one plugin, and say where it failed if it did. -/
def makeLayered (call : Call) (p : π) (session : Session) : Reply π Session :=
  let (verdict, p, session) := call.make p session
  (verdict.mapError (·.wrapAll (call.layers (Plugin.name p))), p, session)

theorem makeLayered_of_ok {call : Call} {p p' : π} {session session' : Session}
    (h : call.make p session = (.ok (), p', session')) :
    call.makeLayered p session = (.ok (), p', session') := by
  rw [makeLayered, h]
  rfl

theorem makeLayered_of_error {call : Call} {p p' : π} {session session' : Session} {f : Failure}
    (h : call.make p session = (.error f, p', session')) :
    call.makeLayered p session =
      (.error (f.wrapAll (call.layers (Plugin.name p'))), p', session') := by
  rw [makeLayered, h]
  rfl

end Call

/-! ### Tasks -/

/-- A part of a run, once the flags are claimed. -/
inductive Task where
  /-- Move on in the lifecycle. -/
  | enter (stage : Lifecycle.Stage)
  /-- Let every listener hear of an event. -/
  | announce (event : TaskEvent)
  /-- Report what a host phase has found. -/
  | report (findings : List Diagnostic)
  /-- Make a call to every plugin. -/
  | call (call : Call)
  /-- Count a unit that has been through both phases. -/
  | unitDone
  deriving DecidableEq, Repr

/-- A run under way. -/
structure Progress (π : Type) where
  plugins : List π
  session : Session
  lifecycle : Lifecycle := {}
  unitsCompiled : Nat := 0
  history : List Occurrence

namespace Progress

variable {π : Type}

def announce (run : Progress π) (event : TaskEvent) : Progress π :=
  let context := run.session.context
  { run with
    session := { run.session with context := context.notify event }
    history := run.history ++ (context.deliveries event).map .heard }

def report (run : Progress π) (findings : List Diagnostic) : Progress π :=
  { run with session := { run.session with log := run.session.log.reportAll findings } }

def call [Plugin π] (run : Progress π) (call : Call) : Except Failure Unit × Progress π :=
  let calls := sweep call.makeLayered run.plugins run.session
  (calls.verdict,
    { run with
      plugins := calls.plugins, session := calls.lent
      history := run.history ++ calls.history call.callback })

def perform [Plugin π] (run : Progress π) : Task → Except Failure Unit × Progress π
  | .enter stage =>
    match run.lifecycle.advance stage with
    | .ok lifecycle => (.ok (), { run with lifecycle })
    | .error move => (.error (.ofText move.message), run)
  | .announce event => (.ok (), run.announce event)
  | .report findings => (.ok (), run.report findings)
  | .call call => run.call call
  | .unitDone => (.ok (), { run with unitsCompiled := run.unitsCompiled + 1 })

def performAll [Plugin π] (run : Progress π) : List Task → Except Failure Unit × Progress π
  | [] => (.ok (), run)
  | task :: tasks =>
    match run.perform task with
    | (.ok (), run) => run.performAll tasks
    | (.error f, run) => (.error f, run)

theorem performAll_cons_of_ok [Plugin π] {run next : Progress π} {task : Task}
    (h : run.perform task = (.ok (), next)) (tasks : List Task) :
    run.performAll (task :: tasks) = next.performAll tasks := by
  rw [performAll, h]

theorem performAll_cons_of_error [Plugin π] {run next : Progress π} {task : Task} {f : Failure}
    (h : run.perform task = (.error f, next)) (tasks : List Task) :
    run.performAll (task :: tasks) = (.error f, next) := by
  rw [performAll, h]

theorem performAll_append [Plugin π] (run : Progress π) (front back : List Task) :
    run.performAll (front ++ back) =
      match run.performAll front with
      | (.ok (), run) => run.performAll back
      | (.error f, run) => (.error f, run) := by
  induction front generalizing run with
  | nil => rfl
  | cons task tasks ih =>
    simp only [List.cons_append, performAll]
    split
    · exact ih _
    · rfl

end Progress

/-- The tasks that take one unit through both phases. -/
def CompilationUnit.tasks (u : CompilationUnit) (table : SymbolTable) : List Task :=
  let resolved := u.resolutions table
  [.announce (.started .attribution u.path),
    .report (u.importErrors table),
    .announce (.finished .attribution u.path),
    .call (.inspect { tree := u, resolved }),
    .announce (.started .flow u.path),
    .report u.flowErrors,
    .announce (.finished .flow u.path),
    .call (.inspect { tree := u, resolved, flow? := some u.flowFacts }),
    .unitDone]

/-! ### Whole runs -/

/-- What to run: trees and symbols, and the plugins in registration order. -/
structure Compilation (π : Type) where
  units : List CompilationUnit
  table : SymbolTable
  plugins : List π := []
  warningsAsErrors : Bool := false

/-- What a run leaves. -/
structure Run (π : Type) where
  report : RunReport
  plugins : List π
  context : RunContext
  files : Files
  history : List Occurrence

namespace Compilation

variable {π : Type}

def ofManifest (m : Manifest) : Compilation π where
  units := m.lower
  table := .build m.lower m.classpath

variable [Plugin π]

def pluginNames (c : Compilation π) : List String := c.plugins.map Plugin.name

/-- Register a plugin behind the others, unless its name is taken. -/
def register (c : Compilation π) (p : π) : Option (Compilation π) :=
  if Plugin.name p ∈ c.pluginNames then none else some { c with plugins := c.plugins ++ [p] }

/-- Register plugins one by one, up to the first whose name is taken; that name is the error. -/
def registerAll (c : Compilation π) : List π → Except String (Compilation π)
  | [] => .ok c
  | p :: ps =>
    match c.register p with
    | some c => c.registerAll ps
    | none => .error (Plugin.name p)

/-- The session at the start of a run. -/
def openSession (c : Compilation π) (options : List String) (files : Files) : Session where
  context := .empty
  log := { warningsAsErrors := c.warningsAsErrors }
  host :=
    { name := hostName, version := hostVersion, options, units := c.units.map (·.path) }
  files := files

/-- The tasks of a run, once the flags are claimed. -/
def schedule (c : Compilation π) : List Task :=
  [.enter .argsProcessed, .call .prepareContext, .call .setUp, .enter .initialized,
      .enter .phaseLoop] ++
    c.units.flatMap (·.tasks c.table) ++ [.call .finish, .enter .finished]

/-- What a run leaves whose command line has been rejected. -/
def rejected (e : FlagError) (claims : Sweep FlagError π (List String)) (files : Files) :
    Run π where
  report := ⟨.invalidCommandLine e, [], Lifecycle.stage {}, 0⟩
  plugins := claims.plugins
  context := .empty
  files := files
  history := claims.history .processArgs

/-- How far a run has come that has failed: it is aborted, where that is a legal move. -/
def failedStage (life : Lifecycle) : Lifecycle.Stage :=
  match life.abort with
  | .ok life => life.stage
  | .error _ => life.stage

/-- What a run leaves that has got under way. -/
def concluded (verdict : Except Failure Unit) (done : Progress π) : Run π where
  report :=
    match verdict with
    | .ok () =>
      ⟨.ofLog done.session.log, done.session.log.diagnostics, done.lifecycle.stage,
        done.unitsCompiled⟩
    | .error f =>
      ⟨.ofFailure f, done.session.log.diagnostics, failedStage done.lifecycle, done.unitsCompiled⟩
  plugins := done.plugins
  context := done.session.context
  files := done.session.files
  history := done.history

/-- A run that is about to get under way. -/
def start (c : Compilation π) (claims : Sweep FlagError π (List String)) (files : Files) :
    Progress π where
  plugins := claims.plugins
  session := c.openSession claims.lent files
  history := claims.history .processArgs

def run (c : Compilation π) (args : List String) (files : Files) : Run π :=
  let claims := claimFlags c.plugins args
  match claims.verdict with
  | .error e => rejected e claims files
  | .ok () =>
    let (verdict, done) := (c.start claims files).performAll c.schedule
    concluded verdict done

end Compilation

/-- The message when a plugin's name is taken. -/
def duplicatePluginMessage (name : String) : String := s!"plugin '{name}' is already registered"

end AnalysisHost
