import AnalysisHost.Proofs.Stopping

/-!
# How a failed call ends a run

The first call that fails ends a run, and its failure decides how. An escalation at the root of the
failure comes out with its status and message, whatever layers the plugin and the host put around
it. A failure without an escalation is a crash, shown with the host's layers for the place where it
happened (`Call.whereabouts`) in front of its own: `Compilation.outcome_of_failed_call`.
-/

namespace AnalysisHost

/-! ## Escalations in a failure -/

namespace Failure

/-- A failure without an escalation is one with none anywhere in its chain. -/
theorem escalation?_eq_none_iff {f : Failure} :
    f.escalation? = none ↔ ∀ e, .escalation e ∉ f.chain := by
  unfold escalation?
  rw [List.findSome?_eq_none_iff]
  constructor
  · intro h e he
    cases h _ he
  · intro h cause hcause
    cases cause with
    | text message => rfl
    | escalation e => exact absurd hcause (h e)

/-- Layers around an escalation do not hide it. -/
theorem escalation?_wrapAll_escalate (status : AbortStatus) (message : String)
    (layers : List String) :
    ((escalate status message).wrapAll layers).escalation? = some ⟨status, message⟩ :=
  escalation?_wrapAll _ layers

end Failure

/-! ## The host's layers

The source wraps a failure from the inside out. `Call.whereabouts` lists the same texts from the
outside in, which is the order of the message. -/

/-- Where a call to a plugin was made, from the outside in. -/
def Call.whereabouts (plugin : String) : Call → List String
  | prepareContext => [s!"plugin '{plugin}' failed to initialize the context"]
  | setUp => [s!"plugin '{plugin}' failed to initialize"]
  | inspect env =>
    [s!"failed to compile '{env.path}'", s!"plugin '{plugin}' failed after {env.phase.text}"]
  | finish => [s!"plugin '{plugin}' failed to finish"]

theorem Call.reverse_layers (plugin : String) (call : Call) :
    (call.layers plugin).reverse = call.whereabouts plugin := by
  cases call <;> rfl

namespace Stop

/-- The host's layers do not hide an escalation. -/
theorem outcome_failed_of_escalation {f : Failure} {e : Escalation} (h : f.escalation? = some e)
    (call : Call) (plugin : String) : (failed call plugin f).outcome = .aborted e := by
  rw [outcome, Outcome.ofFailure, Failure.escalation?_wrapAll, h]

/-- Any other failure is a crash, with every layer in its message. -/
theorem outcome_failed_of_none {f : Failure} (h : f.escalation? = none) (call : Call)
    (plugin : String) :
    (failed call plugin f).outcome =
      .crashed (": ".intercalate (call.whereabouts plugin ++ f.messages)) := by
  rw [outcome, Outcome.ofFailure, Failure.escalation?_wrapAll, h]
  dsimp only
  rw [Failure.text, Failure.messages_wrapAll, Call.reverse_layers]

end Stop

/-! ## The first call that fails -/

/-- **How a run ends whose first failing call is known**: by the escalation at the root of the
failure, or else with a crash that shows all layers, the host's in front of the plugin's. -/
theorem Compilation.outcome_of_failed_call {π : Type} [Plugin π] {c : Compilation π}
    (args : List String) (files : Files) {front back : List Step} {i : Nat} {call : Call}
    (hsteps : c.steps = front ++ .call i call :: back)
    (hfront : ((c.opening args files).play front).succeeded = true) {p p' : π}
    (hp : ((c.opening args files).play front).scene.plugins[i]? = some p) {f : Failure}
    {session : Session}
    (hfails : call.make p ((c.opening args files).play front).scene.session =
      (.error f, p', session)) :
    let outcome := (c.run args files).report.outcome
    (∀ status message layers, f = (Failure.escalate status message).wrapAll layers →
        outcome = .aborted ⟨status, message⟩) ∧
      ((∀ e, .escalation e ∉ f.chain) →
        outcome = .crashed (": ".intercalate (call.whereabouts (Plugin.name p') ++ f.messages)) ∧
          outcome.status = .abnormal) := by
  intro outcome
  have hstop : ((c.opening args files).play front).scene.stop? (.call i call) =
      some (.failed call (Plugin.name p') f) := by
    rw [Scene.stop?, hp]
    dsimp only
    rw [hfails]
  have houtcome : outcome = (Stop.failed call (Plugin.name p') f).outcome := by
    apply outcome_of_stop?
    rw [Compilation.stop?, hsteps]
    exact Scene.firstStop?_of_position hfront hstop back
  rw [houtcome]
  constructor
  · rintro status message layers rfl
    apply Stop.outcome_failed_of_escalation
    exact Failure.escalation?_wrapAll_escalate status message layers
  · intro hnone
    rw [Stop.outcome_failed_of_none (Failure.escalation?_eq_none_iff.mpr hnone)]
    exact ⟨rfl, rfl⟩

/-- A plugin that fails whenever it is shown a unit after the flow phase. -/
structure FlowRefuser where
  name : String
  failure : Failure

instance : Plugin FlowRefuser where
  name := FlowRefuser.name
  afterFlow p _ session := (.error p.failure, p, session)

/-- A unit that its only plugin refuses after the flow phase: with an escalation between two layers,
and with an accident at the root. -/
theorem Compilation.outcome_of_refused_flow :
    let u : CompilationUnit := { path := "A.java", package := "a" }
    let c (f : Failure) : Compilation FlowRefuser :=
      { units := [u], table := {}, plugins := [⟨"probe", f⟩] }
    ((c (((Failure.escalate .sysErr "disk full").wrap "while writing").wrap "while checking")).run
        [] {}).report.outcome = .aborted ⟨.sysErr, "disk full"⟩ ∧
      ((c ((Failure.ofText "index out of range").wrap "while checking")).run
        [] {}).report.outcome =
          .crashed ("failed to compile 'A.java': plugin 'probe' failed after flow: " ++
            "while checking: index out of range") := by
  intro u c
  let first : Env := { tree := u, resolved := [] }
  let second : Env := { first with flow? := some u.flowFacts }
  let front : List Step :=
    [.claim 0, .handOver, .call 0 .prepareContext, .call 0 .setUp,
      .announce (.started .attribution "A.java"), .report [],
      .announce (.finished .attribution "A.java"), .call 0 (.inspect first),
      .announce (.started .flow "A.java"), .report [], .announce (.finished .flow "A.java")]
  have hsteps (f : Failure) : (c f).steps =
      front ++ .call 0 (.inspect second) :: [.call 0 .finish] := rfl
  constructor
  · exact (outcome_of_failed_call [] {} (hsteps _) rfl rfl rfl).1 .sysErr "disk full"
      ["while writing", "while checking"] rfl
  · have hcrashed := (outcome_of_failed_call [] {}
      (hsteps ((Failure.ofText "index out of range").wrap "while checking")) rfl rfl rfl).2
    exact (hcrashed (Failure.escalation?_eq_none_iff.mp rfl)).1

end AnalysisHost
