import AnalysisHost.Context
import AnalysisHost.Env
import AnalysisHost.Failure
import AnalysisHost.Files
import AnalysisHost.Flag
import AnalysisHost.HostInfo
import AnalysisHost.Log
import AnalysisHost.PackageGraph

/-!
# Plugins

A plugin is an analysis that the host calls at fixed points of a run. It is a value of some type `π`
that the class `Plugin π` makes a state machine: every callback takes the plugin and what the host
lends it, and gives back its verdict, the plugin as it is afterwards, and what was lent.

A callback that fails still gives everything back. What it reported before it failed stays in the
log, and what it noted stays in the plugin.

Every callback has a default that does nothing, so an instance states only what it cares about. Two
types of plugins can take part in the same run: their sum is a type of plugins too.
-/

namespace AnalysisHost

/-! ### What the host lends -/

/-- The kinds of values that plugins may share through the context. -/
inductive Shared where
  | number
  | text
  | texts
  | packageGraph
  deriving DecidableEq, Repr

def Shared.Value : Shared → Type
  | number => Int
  | text => String
  | texts => List String
  | packageGraph => PackageGraph

abbrev RunContext := Context Shared.Value

/-- Everything that the host lends to a plugin for a callback. -/
structure Session where
  context : RunContext
  log : Log
  host : HostInfo
  files : Files

namespace Session

def report (s : Session) (d : Diagnostic) : Session := { s with log := s.log.report d }

end Session

/-! ### Callbacks -/

/-- What a callback gives back: its verdict, the plugin, and what the host lent it. -/
abbrev Reply (π α : Type) := Except Failure Unit × π × α

/-- A plugin, its description, and how to use it. -/
structure PluginInfo where
  name : String
  description : String
  flags : List FlagInfo
  deriving DecidableEq, Repr

/-- The values of a type are plugins. -/
class Plugin (π : Type) where
  name : π → String
  description : π → String := fun _ => ""
  flags : π → List FlagInfo := fun _ => []
  /-- Claim flags, before there is any context. Gives back the unclaimed ones. -/
  processArgs : π → List String → Except FlagError (List String) × π := fun p args => (.ok args, p)
  /-- Prepare the context, once every plugin has claimed its flags. -/
  prepareContext : π → RunContext → Reply π RunContext := fun p c => (.ok (), p, c)
  /-- Set up, once there is a session. -/
  setUp : π → Session → Reply π Session := fun p s => (.ok (), p, s)
  /-- Look at a unit after the attribute phase. -/
  afterAttribution : π → Env → Session → Reply π Session := fun p _ s => (.ok (), p, s)
  /-- Look at a unit after the flow phase. -/
  afterFlow : π → Env → Session → Reply π Session := fun p _ s => (.ok (), p, s)
  finish : π → Session → Reply π Session := fun p s => (.ok (), p, s)

namespace Plugin

variable {π : Type} [Plugin π]

def info (p : π) : PluginInfo := ⟨name p, description p, flags p⟩

/-- The callback after a phase. -/
def afterPhase (p : π) (env : Env) (s : Session) : Reply π Session :=
  match env.phase with
  | .attribution => afterAttribution p env s
  | .flow => afterFlow p env s

end Plugin

/-- Turn a reply of a plugin into one of a wider type of plugins. -/
def Reply.map {π ρ α : Type} (f : π → ρ) (r : Reply π α) : Reply ρ α := (r.1, f r.2.1, r.2.2)

/-- Plugins of two types, side by side. -/
instance {π ρ : Type} [Plugin π] [Plugin ρ] : Plugin (π ⊕ ρ) where
  name
    | .inl p => Plugin.name p
    | .inr q => Plugin.name q
  description
    | .inl p => Plugin.description p
    | .inr q => Plugin.description q
  flags
    | .inl p => Plugin.flags p
    | .inr q => Plugin.flags q
  processArgs
    | .inl p, args => let (r, p) := Plugin.processArgs p args; (r, .inl p)
    | .inr q, args => let (r, q) := Plugin.processArgs q args; (r, .inr q)
  prepareContext
    | .inl p, c => Reply.map .inl (Plugin.prepareContext p c)
    | .inr q, c => Reply.map .inr (Plugin.prepareContext q c)
  setUp
    | .inl p, s => Reply.map .inl (Plugin.setUp p s)
    | .inr q, s => Reply.map .inr (Plugin.setUp q s)
  afterAttribution
    | .inl p, env, s => Reply.map .inl (Plugin.afterAttribution p env s)
    | .inr q, env, s => Reply.map .inr (Plugin.afterAttribution q env s)
  afterFlow
    | .inl p, env, s => Reply.map .inl (Plugin.afterFlow p env s)
    | .inr q, env, s => Reply.map .inr (Plugin.afterFlow q env s)
  finish
    | .inl p, s => Reply.map .inl (Plugin.finish p s)
    | .inr q, s => Reply.map .inr (Plugin.finish q s)

/-- A plugin that does nothing. -/
structure IdlePlugin where
  name : String
  deriving DecidableEq, Repr

instance : Plugin IdlePlugin where
  name := IdlePlugin.name

end AnalysisHost
