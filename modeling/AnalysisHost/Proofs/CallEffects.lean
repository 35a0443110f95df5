import AnalysisHost.Proofs.BundledRun

/-!
# What a call of an analysis comes to

Four analyses share one log and one context, and each of them is called between the others. What a
call of one of them does to a session is an `Effect`: it may change the shared graph, and it puts
some reports behind those that are there. `Bundled.exists_acts` says that every call of an analysis
other than the trace has such an effect, and that the effect depends on nothing in the session but
the graph, and on that only for the search for cycles. So no analysis looks at what has been logged.

The trace does look at the log, but it reports nothing and shares nothing: `exists_make_phaseTrace`.
-/

namespace AnalysisHost

/-! ## The callbacks

Each callback is shown to do one thing to every session: the reports and the new state come first in
the statement, and the session that they are reported to after them. -/

namespace StrictDeps

/-- The check reports the same in every session: it looks at the unit and at nothing else. -/
theorem exists_afterAttribution (p : StrictDeps) (env : Env) :
    ∃ (p' : StrictDeps) (ds : List Diagnostic), (∀ d ∈ ds, d.source = analysisName) ∧
      ∀ s : Session, p.afterAttribution env s =
        (.ok (), p', { s with log := s.log.reportAll ds }) := by
  by_cases hmode : p.mode = .off
  · refine ⟨p, [], List.forall_mem_nil _, ?_⟩
    intro s
    unfold afterAttribution
    rw [hmode]
    rfl
  · refine ⟨_, _, ?_, fun s => afterAttribution_of_ne_off hmode env s⟩
    intro d hd
    obtain ⟨r, -, rfl⟩ := List.mem_map.mp hd
    exact p.source_undeclaredImport _ _

/-- So does its conclusion, which looks at what the check has noted. -/
theorem exists_finish (p : StrictDeps) :
    ∃ (verdict : Except Failure Unit) (ds : List Diagnostic),
      (∀ d ∈ ds, d.source = analysisName) ∧
      ∀ s : Session, p.finish s = (verdict, p, { s with log := s.log.reportAll ds }) := by
  have hsource : ∀ d ∈ p.missing.map p.missingNote, d.source = analysisName := by
    intro d hd
    obtain ⟨package, -, rfl⟩ := List.mem_map.mp hd
    rfl
  by_cases hmissing : p.mode = .strict ∧ p.missing ≠ []
  · obtain ⟨hmode, hmissing⟩ := hmissing
    obtain ⟨first, rest, hlist⟩ := List.exists_cons_of_ne_nil hmissing
    refine ⟨.error (.escalate .error (missingMessage p.missing)), p.missing.map p.missingNote,
      hsource, ?_⟩
    intro s
    unfold finish
    dsimp only
    rw [hmode, hlist]
    rfl
  · refine ⟨.ok (), p.missing.map p.missingNote, hsource, ?_⟩
    intro s
    unfold finish
    dsimp only
    split
    · next first rest hmode hlist =>
      refine absurd ⟨hmode, ?_⟩ hmissing
      rw [hlist]
      exact List.cons_ne_nil _ _
    · rfl

end StrictDeps

namespace Naming

theorem source_warnings (u : CompilationUnit) : ∀ d ∈ warnings u, d.source = analysisName := by
  intro d hd
  rcases List.mem_append.mp hd with hpackage | htype
  · split at hpackage
    · cases hpackage
    · cases List.mem_singleton.mp hpackage
      rfl
  · obtain ⟨type, -, rfl⟩ := List.mem_map.mp htype
    rfl

/-- The conventions look at the unit, too, and keep no state. -/
theorem exists_afterAttribution (p : Naming) (env : Env) :
    ∃ ds : List Diagnostic, (∀ d ∈ ds, d.source = analysisName) ∧
      ∀ s : Session, p.afterAttribution env s =
        (.ok (), p, { s with log := s.log.reportAll ds }) := by
  by_cases henabled : p.enabled = true
  · refine ⟨warnings env.tree, source_warnings env.tree, ?_⟩
    intro s
    unfold afterAttribution
    rw [if_pos henabled]
  · refine ⟨[], List.forall_mem_nil _, ?_⟩
    intro s
    unfold afterAttribution
    rw [if_neg henabled]
    rfl

end Naming

namespace ImportCycles

/-- Which cycles are new, and whether they end the run, does not depend on the log. -/
theorem exists_noteCycles (unit : String) (p : ImportCycles) (found : List (List String)) :
    ∃ (verdict : Except Failure Unit) (p' : ImportCycles) (ds : List Diagnostic),
      (∀ d ∈ ds, d.source = analysisName) ∧
      ∀ log : Log, noteCycles unit p log found = (verdict, p', log.reportAll ds) := by
  induction found generalizing p with
  | nil => exact ⟨.ok (), p, [], List.forall_mem_nil _, fun _ => rfl⟩
  | cons cycle rest ih =>
    by_cases hknown : cycle ∈ p.cycles
    · obtain ⟨verdict, p', ds, hsource, heq⟩ := ih p
      refine ⟨verdict, p', ds, hsource, ?_⟩
      intro log
      rw [noteCycles, if_pos hknown]
      exact heq log
    · by_cases hfatal : p.mode = .fatal
      · refine ⟨.error (.escalate .error "illegal import cycle"),
          { p with cycles := p.cycles ++ [cycle] },
          [(Diagnostic.note analysisName (cycleMessage cycle)).inUnit unit], ?_, ?_⟩
        · intro d hd
          cases List.mem_singleton.mp hd
          rfl
        · intro log
          rw [noteCycles, if_neg hknown]
          dsimp only
          rw [hfatal]
          rfl
      · obtain ⟨verdict, p', ds, hsource, heq⟩ := ih { p with cycles := p.cycles ++ [cycle] }
        refine ⟨verdict, p', cycleWarning unit cycle :: ds, ?_, ?_⟩
        · exact List.forall_mem_cons.mpr ⟨rfl, hsource⟩
        · intro log
          rw [noteCycles, if_neg hknown]
          dsimp only
          split
          · next hmode => exact absurd hmode hfatal
          · exact heq (log.report (cycleWarning unit cycle))

/-- The graph with the edges of a unit. -/
def withEdges (g : PackageGraph) (env : Env) : PackageGraph :=
  (addEdges env.package g (targets env.package env.resolved)).1

/-- A unit adds its edges to the graph that is in the context. What is reported depends on this
graph. -/
theorem exists_afterFlow (p : ImportCycles) (env : Env) (g : PackageGraph) (hmode : p.mode ≠ .off) :
    ∃ (verdict : Except Failure Unit) (p' : ImportCycles) (ds : List Diagnostic),
      (∀ d ∈ ds, d.source = analysisName) ∧
      ∀ s : Session, graphIn s.context = g → p.afterFlow env s =
        (verdict, p',
          { s with
            context := (s.context.put .packageGraph (withEdges g env)).2
            log := s.log.reportAll ds }) := by
  obtain ⟨verdict, p', ds, hsource, heq⟩ := exists_noteCycles env.path p
    (addEdges env.package g (targets env.package env.resolved)).2
  refine ⟨verdict, p', ds, hsource, ?_⟩
  intro s hgraph
  unfold afterFlow
  split
  · next hoff => exact absurd hoff hmode
  · rw [hgraph]
    dsimp only
    rw [heq]
    rfl

/-- The note at the end counts the edges of the graph. -/
theorem exists_finish (p : ImportCycles) (g : PackageGraph) :
    ∃ ds : List Diagnostic, (∀ d ∈ ds, d.source = analysisName) ∧
      ∀ s : Session, graphIn s.context = g → p.finish s =
        (.ok (), p, { s with log := s.log.reportAll ds }) := by
  by_cases hmode : p.mode = .off
  · refine ⟨[], List.forall_mem_nil _, ?_⟩
    intro s _
    unfold finish
    rw [hmode]
    rfl
  · refine ⟨[summaryNote p.cycles.length g.edgeCount], ?_, ?_⟩
    · intro d hd
      cases List.mem_singleton.mp hd
      rfl
    · intro s hgraph
      unfold finish
      split
      · next hoff => exact absurd hoff hmode
      · rw [hgraph]
        rfl

end ImportCycles

/-! ## Effects

The callbacks put together: a call of any analysis but the trace, for whatever it is made. -/

namespace Call

variable {π : Type} [Plugin π]

theorem make_inspect_attribution {env : Env} (h : env.phase = .attribution) (p : π) (s : Session) :
    (inspect env).make p s = Plugin.afterAttribution p env s := by
  show Plugin.afterPhase p env s = _
  rw [Plugin.afterPhase, h]

theorem make_inspect_flow {env : Env} (h : env.phase = .flow) (p : π) (s : Session) :
    (inspect env).make p s = Plugin.afterFlow p env s := by
  show Plugin.afterPhase p env s = _
  rw [Plugin.afterPhase, h]

end Call

namespace Bundled

def isTrace : Bundled → Bool
  | .phaseTrace _ => true
  | _ => false

/-- What a call of an analysis comes to. -/
structure Effect where
  verdict : Except Failure Unit
  analysis : Bundled
  /-- The graph that it puts into the context, if it does. -/
  stored? : Option PackageGraph := none
  reports : List Diagnostic := []

namespace Effect

/-- What becomes of a context. -/
def share (e : Effect) (context : RunContext) : RunContext :=
  match e.stored? with
  | none => context
  | some g => (context.put .packageGraph g).2

def reply (e : Effect) (s : Session) : Reply Bundled Session :=
  (e.verdict, e.analysis,
    { s with context := e.share s.context, log := s.log.reportAll e.reports })

/-- An effect on the context is a graph that is put into it, which no listener hears of. -/
@[simp] theorem listeners_share (e : Effect) (context : RunContext) :
    (e.share context).listeners = context.listeners := by
  unfold share
  cases e.stored? with
  | none => rfl
  | some g => rfl

/-- What is seen of the graph behind an effect: the stored one, if there is one. -/
theorem graphIn_share (e : Effect) (context : RunContext) :
    ImportCycles.graphIn (e.share context) = e.stored?.getD (ImportCycles.graphIn context) := by
  unfold share
  cases e.stored? with
  | none => rfl
  | some g => exact ImportCycles.graphIn_put context g

end Effect

/-- A session shows an analysis some graph. Only the search for cycles looks. -/
def Sees (p : Bundled) (s : Session) (g : PackageGraph) : Prop :=
  Plugin.name p = ImportCycles.analysisName → ImportCycles.graphIn s.context = g

theorem sees_self (p : Bundled) (s : Session) : p.Sees s (ImportCycles.graphIn s.context) :=
  fun _ => rfl

/-- A call of an analysis has an effect on every session that shows it some graph. -/
structure Acts (p : Bundled) (c : Call) (g : PackageGraph) (e : Effect) : Prop where
  make_eq : ∀ s : Session, p.Sees s g → c.make p s = e.reply s
  /-- It stays the analysis that it is. -/
  name : Plugin.name e.analysis = Plugin.name p
  isTrace : e.analysis.isTrace = false
  /-- It reports under its own name. -/
  source : ∀ d ∈ e.reports, d.source = Plugin.name p
  /-- Only the search for cycles stores a graph: the one that is there, with the edges of the unit
  that it looks at. -/
  stored : ∀ g' ∈ e.stored?, Plugin.name p = ImportCycles.analysisName ∧
    ∃ env, c = .inspect env ∧ g' = ImportCycles.withEdges g env

/-- A call that does nothing has the effect of doing nothing. -/
theorem acts_of_idle {p : Bundled} (hp : p.isTrace = false) {c : Call}
    (h : ∀ s, c.make p s = (.ok (), p, s)) (g : PackageGraph) :
    Acts p c g { verdict := .ok (), analysis := p } where
  make_eq s _ := h s
  name := rfl
  isTrace := hp
  source := List.forall_mem_nil _
  stored _ h := nomatch h

/-- The check is called for a unit after its attribution, and when it concludes. -/
theorem exists_acts_strictDeps (p : StrictDeps) (c : Call) (g : PackageGraph) :
    ∃ e, Acts (.strictDeps p) c g e := by
  cases c with
  | prepareContext => exact ⟨_, acts_of_idle rfl (fun _ => rfl) g⟩
  | setUp => exact ⟨_, acts_of_idle rfl (fun _ => rfl) g⟩
  | inspect env =>
    cases hphase : env.phase with
    | attribution =>
      obtain ⟨p', ds, hsource, heq⟩ := p.exists_afterAttribution env
      refine ⟨{ verdict := .ok (), analysis := .strictDeps p', reports := ds },
        ?_, rfl, rfl, hsource, fun _ h => nomatch h⟩
      intro s _
      rw [Call.make_inspect_attribution hphase]
      exact congrArg (Reply.map strictDeps) (heq s)
    | flow =>
      refine ⟨_, acts_of_idle rfl ?_ g⟩
      intro s
      rw [Call.make_inspect_flow hphase]
      rfl
  | finish =>
    obtain ⟨verdict, ds, hsource, heq⟩ := p.exists_finish
    refine ⟨{ verdict, analysis := .strictDeps p, reports := ds }, ?_, rfl, rfl, hsource,
      fun _ h => nomatch h⟩
    intro s _
    exact congrArg (Reply.map strictDeps) (heq s)

theorem exists_acts_naming (p : Naming) (c : Call) (g : PackageGraph) :
    ∃ e, Acts (.naming p) c g e := by
  cases c with
  | prepareContext => exact ⟨_, acts_of_idle rfl (fun _ => rfl) g⟩
  | setUp => exact ⟨_, acts_of_idle rfl (fun _ => rfl) g⟩
  | inspect env =>
    cases hphase : env.phase with
    | attribution =>
      obtain ⟨ds, hsource, heq⟩ := p.exists_afterAttribution env
      refine ⟨{ verdict := .ok (), analysis := .naming p, reports := ds }, ?_, rfl, rfl, hsource,
        fun _ h => nomatch h⟩
      intro s _
      rw [Call.make_inspect_attribution hphase]
      exact congrArg (Reply.map naming) (heq s)
    | flow =>
      refine ⟨_, acts_of_idle rfl ?_ g⟩
      intro s
      rw [Call.make_inspect_flow hphase]
      rfl
  | finish => exact ⟨_, acts_of_idle rfl (fun _ => rfl) g⟩

/-- The search is called for a unit after its flow, and when it concludes. -/
theorem exists_acts_importCycles (p : ImportCycles) (c : Call) (g : PackageGraph) :
    ∃ e, Acts (.importCycles p) c g e := by
  cases c with
  | prepareContext => exact ⟨_, acts_of_idle rfl (fun _ => rfl) g⟩
  | setUp => exact ⟨_, acts_of_idle rfl (fun _ => rfl) g⟩
  | inspect env =>
    cases hphase : env.phase with
    | attribution =>
      refine ⟨_, acts_of_idle rfl ?_ g⟩
      intro s
      rw [Call.make_inspect_attribution hphase]
      rfl
    | flow =>
      by_cases hmode : p.mode = .off
      · refine ⟨_, acts_of_idle rfl ?_ g⟩
        intro s
        rw [Call.make_inspect_flow hphase]
        show Reply.map importCycles (p.afterFlow env s) = _
        rw [ImportCycles.afterFlow, hmode]
        rfl
      · obtain ⟨verdict, p', ds, hsource, heq⟩ := p.exists_afterFlow env g hmode
        refine ⟨⟨verdict, .importCycles p', some (ImportCycles.withEdges g env), ds⟩, ?_, rfl, rfl,
          hsource, ?_⟩
        · intro s hsees
          rw [Call.make_inspect_flow hphase]
          exact congrArg (Reply.map importCycles) (heq s (hsees rfl))
        · rintro _ ⟨⟩
          exact ⟨rfl, env, rfl, rfl⟩
  | finish =>
    obtain ⟨ds, hsource, heq⟩ := p.exists_finish g
    refine ⟨{ verdict := .ok (), analysis := .importCycles p, reports := ds }, ?_, rfl, rfl,
      hsource, fun _ h => nomatch h⟩
    intro s hsees
    exact congrArg (Reply.map importCycles) (heq s (hsees rfl))

/-- **Every call of an analysis other than the trace has an effect**, and what effect it has depends
on nothing in the session but the graph, and on the graph only for the search for cycles. -/
theorem exists_acts {p : Bundled} (hp : p.isTrace = false) (c : Call) (g : PackageGraph) :
    ∃ e, Acts p c g e := by
  cases p with
  | strictDeps p => exact exists_acts_strictDeps p c g
  | importCycles p => exact exists_acts_importCycles p c g
  | naming p => exact exists_acts_naming p c g
  | phaseTrace t => cases hp

/-! ## Any analysis

What is said of effects and of the trace gives statements about all analyses, as each of them leaves
something of the session alone. -/

/-- Among the bundled analyses the trace is called as it would be alone. -/
theorem make_phaseTrace (c : Call) (t : PhaseTrace) (s : Session) :
    c.make (Bundled.phaseTrace t) s = Reply.map .phaseTrace (c.make t s) := by
  cases c with
  | inspect env =>
    show Plugin.afterPhase (Bundled.phaseTrace t) env s =
      Reply.map .phaseTrace (Plugin.afterPhase t env s)
    unfold Plugin.afterPhase
    cases env.phase <;> rfl
  | prepareContext => rfl
  | setUp => rfl
  | finish => rfl

/-- The trace reports nothing, stores nothing, and keeps to its directory. -/
theorem exists_make_phaseTrace (t : PhaseTrace) (c : Call) (s : Session) :
    ∃ verdict t' context files,
      c.make (Bundled.phaseTrace t) s = (verdict, .phaseTrace t', { s with context, files }) ∧
        context.slots = s.context.slots ∧ t'.directory? = t.directory? := by
  cases c with
  | prepareContext =>
    obtain ⟨t', context, hprepare, hdirectory, hslots⟩ := t.prepareContext_passes s.context
    refine ⟨.ok (), t', context, s.files, ?_, hslots, hdirectory⟩
    exact congrArg (fun r : Reply PhaseTrace RunContext =>
      (r.1, Bundled.phaseTrace r.2.1, { s with context := r.2.2 })) hprepare
  | setUp => exact ⟨_, _, s.context, s.files, rfl, rfl, t.directory?_capture _ _ _⟩
  | inspect env =>
    cases hphase : env.phase with
    | attribution =>
      rw [Call.make_inspect_attribution hphase]
      exact ⟨_, _, s.context, s.files, rfl, rfl, t.directory?_capture _ _ _⟩
    | flow =>
      rw [Call.make_inspect_flow hphase]
      exact ⟨_, _, s.context, s.files, rfl, rfl, t.directory?_capture _ _ _⟩
  | finish =>
    rw [make_phaseTrace]
    show ∃ verdict t' context files, Reply.map phaseTrace (t.finish s) = _ ∧ _
    cases hdirectory : t.directory? with
    | none =>
      rw [PhaseTrace.finish_of_none hdirectory]
      exact ⟨_, _, s.context, s.files, rfl, rfl, hdirectory⟩
    | some directory =>
      have hkept := (t.directory?_capture "finish" none s).trans hdirectory
      rcases hwrite : PhaseTrace.writeTrace s.files directory (t.lastTrace s).toJson.render with
        ⟨e | _, files⟩
      · rw [PhaseTrace.finish_of_write_error hdirectory hwrite]
        exact ⟨_, _, s.context, files, rfl, rfl, hkept⟩
      · rw [PhaseTrace.finish_of_written hdirectory hwrite]
        exact ⟨_, _, s.context, files, rfl, rfl, hkept⟩

theorem isTrace_eq_false_or (p : Bundled) : p.isTrace = false ∨ ∃ t, p = .phaseTrace t := by
  cases p with
  | phaseTrace t => exact .inr ⟨t, rfl⟩
  | strictDeps _ => exact .inl rfl
  | importCycles _ => exact .inl rfl
  | naming _ => exact .inl rfl

/-- Every analysis reports under its own name, behind what is there. -/
theorem exists_reports (p : Bundled) (c : Call) (s : Session) :
    ∃ ds : List Diagnostic, (c.make p s).2.2.log = s.log.reportAll ds ∧
      ∀ d ∈ ds, d.source = Plugin.name p := by
  obtain hp | ⟨t, rfl⟩ := p.isTrace_eq_false_or
  · obtain ⟨e, he⟩ := exists_acts hp c (ImportCycles.graphIn s.context)
    rw [he.make_eq s (p.sees_self s)]
    exact ⟨e.reports, rfl, he.source⟩
  · obtain ⟨verdict, t', context, files, hmake, -, -⟩ := exists_make_phaseTrace t c s
    rw [hmake]
    exact ⟨[], rfl, List.forall_mem_nil _⟩

/-- The graph changes only when the search for cycles looks at a unit, whose edges it adds. -/
theorem graphIn_make (p : Bundled) (c : Call) (s : Session) :
    ImportCycles.graphIn (c.make p s).2.2.context = ImportCycles.graphIn s.context ∨
      (Plugin.name p = ImportCycles.analysisName ∧ ∃ env, c = .inspect env ∧
        ImportCycles.graphIn (c.make p s).2.2.context =
          ImportCycles.withEdges (ImportCycles.graphIn s.context) env) := by
  obtain hp | ⟨t, rfl⟩ := p.isTrace_eq_false_or
  · obtain ⟨e, he⟩ := exists_acts hp c (ImportCycles.graphIn s.context)
    rw [he.make_eq s (p.sees_self s)]
    show ImportCycles.graphIn (e.share s.context) = _ ∨
      _ ∧ ∃ env, _ ∧ ImportCycles.graphIn (e.share s.context) = _
    rw [e.graphIn_share]
    cases hstored : e.stored? with
    | none => exact .inl rfl
    | some g =>
      obtain ⟨hname, env, hcall, hg⟩ := he.stored g hstored
      exact .inr ⟨hname, env, hcall, hg⟩
  · obtain ⟨verdict, t', context, files, hmake, hslots, -⟩ := exists_make_phaseTrace t c s
    rw [hmake]
    exact .inl (ImportCycles.graphIn_of_slots hslots)

/-- An analysis stays the one that it is. -/
theorem name_make (p : Bundled) (c : Call) (s : Session) :
    Plugin.name (c.make p s).2.1 = Plugin.name p := by
  obtain hp | ⟨t, rfl⟩ := p.isTrace_eq_false_or
  · obtain ⟨e, he⟩ := exists_acts hp c (ImportCycles.graphIn s.context)
    rw [he.make_eq s (p.sees_self s)]
    exact he.name
  · obtain ⟨verdict, t', context, files, hmake, -, -⟩ := exists_make_phaseTrace t c s
    rw [hmake]
    rfl

/-- The directory that an analysis traces to. -/
def directory? : Bundled → Option String
  | .phaseTrace t => t.directory?
  | _ => none

/-- Whether an analysis is the trace, and where it traces to. -/
def role (p : Bundled) : Bool × Option String := (p.isTrace, p.directory?)

theorem role_of_isTrace {p : Bundled} (hp : p.isTrace = false) : p.role = (false, none) := by
  cases p with
  | phaseTrace t => cases hp
  | _ => rfl

/-- No call turns an analysis into another one or makes it trace elsewhere. -/
theorem role_make (p : Bundled) (c : Call) (s : Session) : (c.make p s).2.1.role = p.role := by
  obtain hp | ⟨t, rfl⟩ := p.isTrace_eq_false_or
  · obtain ⟨e, he⟩ := exists_acts hp c (ImportCycles.graphIn s.context)
    rw [he.make_eq s (p.sees_self s), role_of_isTrace hp]
    exact role_of_isTrace he.isTrace
  · obtain ⟨verdict, t', context, files, hmake, -, hdirectory⟩ := exists_make_phaseTrace t c s
    rw [hmake]
    exact congrArg (true, ·) hdirectory

end Bundled

/-! ## Sweeps

A call goes through the plugins until one of them fails. What each call keeps is kept, however far
it gets. -/

section Sweeps

variable {ε π α β : Type} {call : π → α → Except ε Unit × π × α}

/-- What every call keeps of what is lent is kept by all of them. -/
theorem sweep_keeps {P : α → Prop} {ps : List π}
    (hcall : ∀ p ∈ ps, ∀ lent, P lent → P (call p lent).2.2) {lent : α} (h : P lent) :
    P (sweep call ps lent).lent := by
  induction ps generalizing lent with
  | nil => exact h
  | cons p ps ih =>
    obtain ⟨hp, hrest⟩ := List.forall_mem_cons.mp hcall
    have hnext := hp lent h
    rcases hreply : call p lent with ⟨_ | _, p', lent'⟩
    · rw [sweep_cons_of_error hreply]
      rw [hreply] at hnext
      exact hnext
    · rw [sweep_cons_of_ok hreply]
      rw [hreply] at hnext
      exact ih hrest hnext

/-- What every call keeps of its plugin is kept of each of them, in order. -/
theorem map_plugins_sweep {label : π → β} (hcall : ∀ p lent, label (call p lent).2.1 = label p)
    (ps : List π) (lent : α) : (sweep call ps lent).plugins.map label = ps.map label := by
  induction ps generalizing lent with
  | nil => rfl
  | cons p ps ih =>
    have hp := hcall p lent
    rcases hreply : call p lent with ⟨_ | _, p', lent'⟩
    · rw [sweep_cons_of_error hreply, List.map_cons, List.map_cons]
      rw [hreply] at hp
      rw [← hp]
    · rw [sweep_cons_of_ok hreply, List.map_cons, List.map_cons, ih]
      rw [hreply] at hp
      rw [← hp]

end Sweeps

/-! ## Runs

The same for the tasks of a run. -/

namespace Progress

variable {π β : Type} [Plugin π] {label : π → β}

/-- What every task keeps of a run is kept by all of them, wherever the run stops. -/
theorem performAll_keeps {P : Progress π → Prop} {tasks : List Task}
    (htasks : ∀ task ∈ tasks, ∀ run : Progress π, P run → P (run.perform task).2)
    {run : Progress π} (h : P run) : P (run.performAll tasks).2 := by
  induction tasks generalizing run with
  | nil => exact h
  | cons task tasks ih =>
    obtain ⟨htask, hrest⟩ := List.forall_mem_cons.mp htasks
    have hnext := htask run h
    rcases hperform : run.perform task with ⟨_ | _, next⟩
    · rw [performAll_cons_of_error hperform]
      rw [hperform] at hnext
      exact hnext
    · rw [performAll_cons_of_ok hperform]
      rw [hperform] at hnext
      exact ih hrest hnext

theorem map_plugins_perform
    (hmake : ∀ (c : Call) (p : π) (s : Session), label (c.make p s).2.1 = label p)
    (run : Progress π) (task : Task) :
    (run.perform task).2.plugins.map label = run.plugins.map label := by
  cases task with
  | enter stage =>
    unfold perform
    dsimp only
    split
    · rfl
    · rfl
  | announce event => rfl
  | report findings => rfl
  | unitDone => rfl
  | call c =>
    show (sweep c.makeLayered run.plugins run.session).plugins.map label = _
    apply map_plugins_sweep
    intro p s
    exact hmake c p s

variable {run done : Progress π}

/-- What gets through some tasks gets through the first of them, and then through the rest. -/
theorem performAll_append_eq_ok {front back : List Task}
    (h : run.performAll (front ++ back) = (.ok (), done)) :
    ∃ next, run.performAll front = (.ok (), next) ∧ next.performAll back = (.ok (), done) := by
  rw [performAll_append] at h
  rcases hfront : run.performAll front with ⟨_ | _, next⟩
  · rw [hfront] at h
    cases h
  · rw [hfront] at h
    exact ⟨next, rfl, h⟩

theorem performAll_cons_eq_ok {task : Task} {tasks : List Task}
    (h : run.performAll (task :: tasks) = (.ok (), done)) :
    ∃ next, run.perform task = (.ok (), next) ∧ next.performAll tasks = (.ok (), done) := by
  rcases hnext : run.perform task with ⟨_ | _, next⟩
  · rw [performAll_cons_of_error hnext] at h
    cases h
  · rw [performAll_cons_of_ok hnext] at h
    exact ⟨next, rfl, h⟩

/-- To enter a stage changes the stage and nothing else. -/
theorem eq_of_enter {stage : Lifecycle.Stage} (h : run.perform (.enter stage) = (.ok (), done)) :
    done = { run with lifecycle := ⟨stage⟩ } := by
  rw [perform] at h
  cases hadvance : run.lifecycle.advance stage with
  | error move =>
    rw [hadvance] at h
    cases h
  | ok life =>
    rw [hadvance] at h
    obtain ⟨-, rfl⟩ := Lifecycle.advance_eq_ok_iff.mp hadvance
    cases h
    rfl

end Progress

end AnalysisHost
