import AnalysisHost.Proofs.CallEffects
import AnalysisHost.Proofs.Readback
import AnalysisHost.Proofs.ReportAgreement
import AnalysisHost.Proofs.WrittenFiles

/-!
# What the trace of a compilation says

The trace keeps a mark in a log to which everybody else appends between its own callbacks, and it
counts task events through a listener. `Tracing` says how the two stand at a point of a run, and
every task takes it from one point to the next:

- `Tracing.announce` counts an event;
- `Tracing.call` adds a snapshot: the trace is the last plugin to be called, so the snapshot holds
  all that the others have reported by then (`sweep_front`);
- `Tracing.units`: the units, one behind the other;
- `Tracing.finish`: the file that is written at the end, in which the trace is read back;
- `Bundled.trace_exact`: the trace that a completed compilation has written.
-/

namespace AnalysisHost

/-! ## Stamps -/

/-- All of a snapshot but its diagnostics. -/
structure Snapshot.Stamp where
  callback : String
  phase? : Option Phase := none
  unit? : Option String := none
  taskEvents : Nat
  deriving DecidableEq, Repr

def Snapshot.stamp (s : Snapshot) : Snapshot.Stamp := ⟨s.callback, s.phase?, s.unit?, s.taskEvents⟩

/-- All that has gone into some snapshots. -/
def Snapshot.contents (snapshots : List Snapshot) : List Diagnostic :=
  snapshots.flatMap (·.diagnostics)

namespace PhaseTrace

/-- The stamps of unit number `k`: there are two task events in each phase of each unit. -/
def unitStamps (u : CompilationUnit) (k : Nat) : List Snapshot.Stamp :=
  [⟨"post_attribute", some .attribution, some u.path, 4 * k + 2⟩,
    ⟨"post_flow", some .flow, some u.path, 4 * k + 4⟩]

/-- The stamps of all snapshots of a compilation. -/
def stamps (units : List CompilationUnit) : List Snapshot.Stamp :=
  [⟨"init", none, none, 0⟩] ++ units.zipIdx.flatMap (fun (u, k) => unitStamps u k) ++
    [⟨"finish", none, none, 4 * units.length⟩]

end PhaseTrace

/-! ## What the other analyses leave alone

The trace relies on its mark in the log and on its listener. Every call of another analysis has one
of the effects of `exists_acts`, and all of them keep both. -/

/-- The listeners are as they were, and the log has at most grown. -/
structure Session.Grown (s s' : Session) : Prop where
  listeners : s'.context.listeners = s.context.listeners
  diagnostics : s.log.diagnostics <+: s'.log.diagnostics

namespace Session.Grown

theorem refl (s : Session) : s.Grown s := ⟨rfl, List.prefix_rfl⟩

/-- What two calls keep, both together keep. -/
theorem trans {s s' s'' : Session} (h : s.Grown s') (h' : s'.Grown s'') : s.Grown s'' where
  listeners := h'.listeners.trans h.listeners
  diagnostics := h.diagnostics.trans h'.diagnostics

theorem reportAll (s : Session) (ds : List Diagnostic) :
    s.Grown { s with log := s.log.reportAll ds } where
  listeners := rfl
  diagnostics := by
    rw [Log.diagnostics_reportAll]
    exact List.prefix_append _ _

end Session.Grown

namespace Bundled

/-- Whatever an analysis is called for, it leaves the listeners and what has been reported. -/
theorem grown_of_make {p : Bundled} (hp : p.isTrace = false) (c : Call) (s : Session) :
    (c.make p s).2.1.isTrace = false ∧ s.Grown (c.make p s).2.2 := by
  obtain ⟨e, he⟩ := exists_acts hp c (ImportCycles.graphIn s.context)
  rw [he.make_eq s (p.sees_self s)]
  refine ⟨he.isTrace, e.listeners_share s.context, ?_⟩
  exact (Session.Grown.reportAll s e.reports).diagnostics

/-- A call that goes through reaches the trace last. -/
theorem sweep_front {c : Call} {front : List Bundled} (hfront : ∀ p ∈ front, p.isTrace = false)
    {t : PhaseTrace} {s : Session}
    (h : (sweep c.makeLayered (front ++ [.phaseTrace t]) s).verdict = .ok ()) :
    ∃ front' s' t' s'', (∀ p ∈ front', p.isTrace = false) ∧ s.Grown s' ∧
      c.make t s' = (.ok (), t', s'') ∧
      (sweep c.makeLayered (front ++ [.phaseTrace t]) s).plugins = front' ++ [.phaseTrace t'] ∧
      (sweep c.makeLayered (front ++ [.phaseTrace t]) s).lent = s'' := by
  induction front generalizing s with
  | nil =>
    rw [List.nil_append] at h ⊢
    rcases hmake : c.make t s with ⟨f | _, t', s''⟩
    · have hwide : c.make (Bundled.phaseTrace t) s = (.error f, .phaseTrace t', s'') :=
        (make_phaseTrace c t s).trans (congrArg (Reply.map Bundled.phaseTrace) hmake)
      rw [sweep_cons_of_error (Call.makeLayered_of_error hwide)] at h
      cases h
    · have hwide : c.make (Bundled.phaseTrace t) s = (.ok (), .phaseTrace t', s'') :=
        (make_phaseTrace c t s).trans (congrArg (Reply.map Bundled.phaseTrace) hmake)
      rw [sweep_cons_of_ok (Call.makeLayered_of_ok hwide)]
      exact ⟨[], s, t', s'', List.forall_mem_nil _, Session.Grown.refl s, hmake, rfl, rfl⟩
  | cons p front ih =>
    obtain ⟨hp, hrest⟩ := List.forall_mem_cons.mp hfront
    obtain ⟨hkind, hgrown⟩ := grown_of_make hp c s
    rw [List.cons_append] at h ⊢
    rcases hmake : c.make p s with ⟨_ | _, p', s₁⟩
    · rw [sweep_cons_of_error (Call.makeLayered_of_error hmake)] at h
      cases h
    · rw [sweep_cons_of_ok (Call.makeLayered_of_ok hmake)] at h ⊢
      rw [hmake] at hkind hgrown
      obtain ⟨front', s', t', s'', hfront', hgrown', htrace, hplugins, hlent⟩ := ih hrest h
      refine ⟨p' :: front', s', t', s'', List.forall_mem_cons.mpr ⟨hkind, hfront'⟩,
        hgrown.trans hgrown', htrace, ?_, hlent⟩
      rw [hplugins]
      rfl

end Bundled

/-! ## Snapshots

`Holds` is the invariant of the trace itself: what its snapshots hold, one behind the other, is a
beginning of the log, and the mark stands at its end. -/

namespace PhaseTrace

/-- The trace has taken some snapshots, one behind the other, and nothing is missing or twice in
what they hold of the log. It listens through the first listener. -/
structure Holds (t : PhaseTrace) (directory : String) (stamps : List Snapshot.Stamp)
    (reported : List Diagnostic) : Prop where
  directory? : t.directory? = some directory
  listeners : t.listeners = [0]
  stamps : t.snapshots.map Snapshot.stamp = stamps
  recorded : t.recorded = (Snapshot.contents t.snapshots).length
  contents : Snapshot.contents t.snapshots <+: reported

variable {t : PhaseTrace} {directory : String} {stamps : List Snapshot.Stamp}

/-- What others report comes behind all that the snapshots hold. -/
theorem Holds.grow {reported more : List Diagnostic} (h : t.Holds directory stamps reported)
    (hmore : reported <+: more) : t.Holds directory stamps more :=
  { h with contents := h.contents.trans hmore }

/-- A snapshot holds all that is in the log but not in the snapshots before. -/
theorem Holds.capture {s : Session} (h : t.Holds directory stamps s.log.diagnostics)
    (callback : String) (env? : Option Env) :
    (t.capture callback env? s).Holds directory
        (stamps ++ [⟨callback, env?.map Env.phase, env?.map Env.path, t.taskEvents s.context⟩])
        s.log.diagnostics ∧
      Snapshot.contents (t.capture callback env? s).snapshots = s.log.diagnostics := by
  obtain ⟨rest, hrest⟩ := h.contents
  have hcontents : Snapshot.contents (t.capture callback env? s).snapshots =
      s.log.diagnostics := by
    simp only [PhaseTrace.capture, h.directory?, Snapshot.contents, List.flatMap_append,
      List.flatMap_singleton, Log.since, h.recorded]
    rw [← hrest]
    simp [Snapshot.contents]
  refine ⟨⟨?_, ?_, ?_, ?_, ?_⟩, hcontents⟩
  · rw [directory?_capture, h.directory?]
  · simp only [PhaseTrace.capture, h.directory?, h.listeners]
  · simp only [PhaseTrace.capture, h.directory?, List.map_append, h.stamps]
    rfl
  · rw [hcontents]
    simp only [PhaseTrace.capture, h.directory?]
    rfl
  · rw [hcontents]

end PhaseTrace

/-! ## Points of a run

The invariant of a run that is traced: `Holds`, and the events that its listener has counted. -/

/-- The trace at a point of a run: it stands behind the other analyses, and its listener is the only
one. -/
structure Tracing (directory : String) (events : Nat) (stamps : List Snapshot.Stamp)
    (run : Progress Bundled) : Prop where
  plugins : ∃ front t, run.plugins = front ++ [.phaseTrace t] ∧
    (∀ p ∈ front, p.isTrace = false) ∧ t.Holds directory stamps run.session.log.diagnostics
  listener : ∃ l : Listener, run.session.context.listeners = [l] ∧ l.heard.length = events

/-- How many events the trace has heard whose listener is the only one. -/
theorem PhaseTrace.taskEvents_of_listeners {t : PhaseTrace} {context : RunContext} {l : Listener}
    (ht : t.listeners = [0]) (hl : context.listeners = [l]) :
    t.taskEvents context = l.heard.length := by
  simp [taskEvents, ht, Context.heard, hl]

namespace Tracing

variable {directory : String} {events : Nat} {stamps : List Snapshot.Stamp}
  {run done : Progress Bundled}

/-- An event is counted. -/
theorem announce (h : Tracing directory events stamps run) (event : TaskEvent) :
    Tracing directory (events + 1) stamps (run.announce event) where
  plugins := h.plugins
  listener := by
    obtain ⟨l, hl, hheard⟩ := h.listener
    refine ⟨{ l with heard := l.heard ++ [event] }, ?_, ?_⟩
    · show (run.session.context.notify event).listeners = _
      rw [Context.listeners_notify, hl]
      rfl
    · rw [List.length_append, hheard]
      rfl

theorem report (h : Tracing directory events stamps run) (findings : List Diagnostic) :
    Tracing directory events stamps (run.report findings) where
  plugins := by
    obtain ⟨front, t, hplugins, hfront, ht⟩ := h.plugins
    refine ⟨front, t, hplugins, hfront, ht.grow ?_⟩
    exact (Session.Grown.reportAll run.session findings).diagnostics
  listener := h.listener

/-- A call that goes through reaches the trace behind all others, and finds what it has been lent as
they have left it. -/
theorem exists_make (h : Tracing directory events stamps run) {c : Call}
    (hdone : run.perform (.call c) = (.ok (), done)) :
    ∃ front s t t' l, done.plugins = front ++ [.phaseTrace t'] ∧
      (∀ p ∈ front, p.isTrace = false) ∧ t.Holds directory stamps s.log.diagnostics ∧
      s.context.listeners = [l] ∧ l.heard.length = events ∧
      c.make t s = (.ok (), t', done.session) := by
  obtain ⟨front, t, hplugins, hfront, ht⟩ := h.plugins
  obtain ⟨l, hl, hheard⟩ := h.listener
  have hverdict : (sweep c.makeLayered run.plugins run.session).verdict = .ok () :=
    congrArg (·.1) hdone
  have hdone' : (run.call c).2 = done := congrArg (·.2) hdone
  rw [hplugins] at hverdict
  obtain ⟨front', s, t', s', hfront', hgrown, hmake, hafter, hlent⟩ :=
    Bundled.sweep_front hfront hverdict
  rw [← hplugins] at hafter hlent
  refine ⟨front', s, t, t', l, ?_, hfront', ht.grow hgrown.diagnostics,
    hgrown.listeners.trans hl, hheard, ?_⟩
  · rw [← hdone']
    exact hafter
  · rw [← hdone', hmake, ← hlent]
    rfl

/-- A call in which the trace takes a snapshot. -/
theorem call (h : Tracing directory events stamps run) {c : Call} {callback : String}
    {env? : Option Env}
    (hmake : ∀ (t : PhaseTrace) (s : Session), c.make t s =
      (.ok (), t.capture callback env? s, s))
    (hdone : run.perform (.call c) = (.ok (), done)) :
    Tracing directory events
      (stamps ++ [⟨callback, env?.map Env.phase, env?.map Env.path, events⟩]) done := by
  obtain ⟨front, s, t, t', l, hplugins, hfront, ht, hl, hheard, hcall⟩ := h.exists_make hdone
  rw [hmake, Prod.mk.injEq, Prod.mk.injEq] at hcall
  obtain ⟨-, rfl, rfl⟩ := hcall
  have hcapture := (ht.capture callback env?).1
  rw [PhaseTrace.taskEvents_of_listeners ht.listeners hl, hheard] at hcapture
  exact ⟨⟨front, _, hplugins, hfront, hcapture⟩, l, hl, hheard⟩

/-! ## Units

A unit counts four events and adds two snapshots. -/

/-- A move of the lifecycle is none of the trace's business. -/
theorem enter (h : Tracing directory events stamps run) {stage : Lifecycle.Stage}
    (hdone : run.perform (.enter stage) = (.ok (), done)) :
    Tracing directory events stamps done := by
  rw [Progress.eq_of_enter hdone]
  exact ⟨h.plugins, h.listener⟩

/-- A unit adds four events and two snapshots. -/
theorem unit {k : Nat} (h : Tracing directory (4 * k) stamps run) {u : CompilationUnit}
    {table : SymbolTable} (hdone : run.performAll (u.tasks table) = (.ok (), done)) :
    Tracing directory (4 * (k + 1)) (stamps ++ PhaseTrace.unitStamps u k) done := by
  rw [CompilationUnit.tasks] at hdone
  -- The phases announce and report without fail, so only the two calls are of interest.
  rw [Progress.performAll_cons_of_ok rfl, Progress.performAll_cons_of_ok rfl,
    Progress.performAll_cons_of_ok rfl] at hdone
  have hattributed := ((h.announce (.started .attribution u.path)).report
    (u.importErrors table)).announce (.finished .attribution u.path)
  obtain ⟨checked, hchecked, hdone⟩ := Progress.performAll_cons_eq_ok hdone
  have hfirst := hattributed.call (fun _ _ => rfl) hchecked
  rw [Progress.performAll_cons_of_ok rfl, Progress.performAll_cons_of_ok rfl,
    Progress.performAll_cons_of_ok rfl] at hdone
  have hflowed := ((hfirst.announce (.started .flow u.path)).report
    u.flowErrors).announce (.finished .flow u.path)
  obtain ⟨surveyed, hsurveyed, hdone⟩ := Progress.performAll_cons_eq_ok hdone
  have hsecond := hflowed.call (fun _ _ => rfl) hsurveyed
  cases hdone
  have hstamps : stamps ++ PhaseTrace.unitStamps u k =
      stamps ++ [⟨"post_attribute", some .attribution, some u.path, 4 * k + 2⟩] ++
        [⟨"post_flow", some .flow, some u.path, 4 * k + 4⟩] := by
    rw [List.append_assoc]
    rfl
  rw [hstamps]
  exact ⟨hsecond.plugins, hsecond.listener⟩

/-- **The units**, from number `k` on. -/
theorem units {k : Nat} (h : Tracing directory (4 * k) stamps run) {units : List CompilationUnit}
    {table : SymbolTable}
    (hdone : run.performAll (units.flatMap (·.tasks table)) = (.ok (), done)) :
    Tracing directory (4 * (k + units.length))
      (stamps ++ (units.zipIdx k).flatMap (fun (u, k) => PhaseTrace.unitStamps u k)) done := by
  induction units generalizing run k stamps with
  | nil =>
    cases hdone
    rw [List.zipIdx_nil, List.flatMap_nil, List.append_nil]
    exact h
  | cons u units ih =>
    rw [List.flatMap_cons] at hdone
    obtain ⟨next, hnext, hdone⟩ := Progress.performAll_append_eq_ok hdone
    have hrest := ih (h.unit hnext) hdone
    rw [List.zipIdx_cons, List.flatMap_cons, List.length_cons, Nat.add_comm units.length,
      ← Nat.add_assoc, ← List.append_assoc]
    exact hrest

/-! ## The beginning and the end -/

/-- The trace installs its listener when the context is prepared. -/
theorem of_prepareContext {front : List Bundled} (hfront : ∀ p ∈ front, p.isTrace = false)
    (hplugins : run.plugins = front ++ [.phaseTrace { directory? := some directory }])
    (hlisteners : run.session.context.listeners = [])
    (hdone : run.perform (.call .prepareContext) = (.ok (), done)) :
    Tracing directory 0 [] done := by
  have hverdict : (sweep Call.prepareContext.makeLayered run.plugins run.session).verdict =
      .ok () := congrArg (·.1) hdone
  have hdone' : (run.call .prepareContext).2 = done := congrArg (·.2) hdone
  rw [hplugins] at hverdict
  obtain ⟨front', s, t', s', hfront', hgrown, hmake, hafter, hlent⟩ :=
    Bundled.sweep_front hfront hverdict
  rw [← hplugins] at hafter hlent
  have hnone : s.context.listeners = [] := hgrown.listeners.trans hlisteners
  have htrace : Call.prepareContext.make ({ directory? := some directory } : PhaseTrace) s =
      (.ok (), { directory? := some directory, listeners := [s.context.listeners.length] },
        { s with context := s.context.listen.2 }) := rfl
  rw [htrace, Prod.mk.injEq, Prod.mk.injEq] at hmake
  obtain ⟨-, rfl, rfl⟩ := hmake
  have hsession : done.session = { s with context := s.context.listen.2 } := by
    rw [← hdone']
    exact hlent
  rw [← hdone'] at hsession ⊢
  refine ⟨⟨front', _, hafter, hfront', ?_⟩, {}, ?_, rfl⟩
  · rw [hnone]
    exact ⟨rfl, rfl, rfl, rfl, List.nil_prefix⟩
  · rw [hsession]
    show s.context.listeners ++ [({} : Listener)] = _
    rw [hnone]
    rfl

end Tracing

/-- What has been written to the trace file is there. -/
theorem PhaseTrace.readText?_of_writeTrace {files files' : Files} {directory text : String}
    (h : writeTrace files directory text = (.ok (), files')) :
    files'.readText? (Files.inDirectory directory traceFile) = some text := by
  unfold writeTrace at h
  split at h
  · cases h
  · split at h
    · cases h
    · next hwrite =>
      cases h
      exact Files.readText?_write hwrite

/-- A trace that has been written is in its file, and no other is. -/
theorem PhaseTrace.written_iff_of_writeTrace {files files' : Files} {directory : String}
    {t trace : Trace} (h : writeTrace files directory t.toJson.render = (.ok (), files')) :
    Written files' directory trace ↔ trace = t :=
  written_iff_of_readText? (readText?_of_writeTrace h)

/-- The trace concludes with a last snapshot, and is written. -/
theorem Tracing.finish {directory : String} {events : Nat} {stamps : List Snapshot.Stamp}
    {run done : Progress Bundled} (h : Tracing directory events stamps run)
    (hdone : run.perform (.call .finish) = (.ok (), done)) :
    ∃ trace : Trace,
      (∀ trace', PhaseTrace.Written done.session.files directory trace' ↔ trace' = trace) ∧
      trace.snapshots.map Snapshot.stamp = stamps ++ [⟨"finish", none, none, events⟩] ∧
      Snapshot.contents trace.snapshots = done.session.log.diagnostics ∧
      trace.taskEvents = events := by
  obtain ⟨front, s, t, t', l, -, -, ht, hl, hheard, hmake⟩ := h.exists_make hdone
  obtain ⟨hcapture, hcontents⟩ := ht.capture "finish" none
  have hevents := PhaseTrace.taskEvents_of_listeners ht.listeners hl
  rw [hevents, hheard] at hcapture
  replace hmake : t.finish s = (.ok (), t', done.session) := hmake
  rcases hwritten : PhaseTrace.writeTrace s.files directory (t.lastTrace s).toJson.render with
    ⟨e | _, files⟩
  · rw [PhaseTrace.finish_of_write_error ht.directory? hwritten] at hmake
    cases hmake
  · rw [PhaseTrace.finish_of_written ht.directory? hwritten, Prod.mk.injEq, Prod.mk.injEq] at hmake
    obtain ⟨-, -, hsession⟩ := hmake
    rw [← hsession]
    refine ⟨_, fun _ => PhaseTrace.written_iff_of_writeTrace hwritten, hcapture.stamps, hcontents,
      ?_⟩
    show (t.capture "finish" none s).taskEvents s.context = events
    rw [PhaseTrace.taskEvents_of_listeners hcapture.listeners hl, hheard]

/-! ## Compilations -/

namespace Bundled

/-- **The trace of a compilation is exact.** One trace is read in the file for it. It has a snapshot
for each callback, in order, and each says where it was taken and how many task events had been
heard by then; what the snapshots hold makes up what the compilation has reported. -/
theorem trace_exact {m : Manifest} {flags : List String} {s : Settings} {directory : String}
    (hplugins : (claimFlags all flags).plugins = s.plugins)
    (hdirectory : s.directory? = some directory) {warningsAsErrors : Bool} {files : Files}
    {status : ExitStatus}
    (hcompleted : (Report.compile m flags warningsAsErrors files).report.outcome =
      .completed status) :
    ∃ trace : Trace,
      (∀ trace', PhaseTrace.Written (Report.compile m flags warningsAsErrors files).files
        directory trace' ↔ trace' = trace) ∧
      trace.snapshots.map Snapshot.stamp = PhaseTrace.stamps m.lower ∧
      trace.snapshots.flatMap (·.diagnostics) =
        (Report.compile m flags warningsAsErrors files).report.diagnostics ∧
      trace.taskEvents = 4 * m.lower.length := by
  let c := compilation m warningsAsErrors
  obtain ⟨done, hdone, hrun⟩ := c.performAll_of_completed hcompleted
  have hfront : ∀ p ∈ [Bundled.strictDeps { mode := s.check, direct := s.direct },
      .importCycles { mode := s.cycles }, .naming { enabled := s.naming }],
      p.isTrace = false := by
    simp [isTrace]
  -- The schedule is cut into its parts, and the trace is followed through them.
  rw [Compilation.schedule] at hdone
  obtain ⟨surveyed, hunits, hend⟩ := Progress.performAll_append_eq_ok hdone
  obtain ⟨opened, hopening, hunits⟩ := Progress.performAll_append_eq_ok hunits
  obtain ⟨run₁, h₁, hopening⟩ := Progress.performAll_cons_eq_ok hopening
  obtain ⟨run₂, h₂, hopening⟩ := Progress.performAll_cons_eq_ok hopening
  obtain ⟨run₃, h₃, hopening⟩ := Progress.performAll_cons_eq_ok hopening
  obtain ⟨run₄, h₄, hopening⟩ := Progress.performAll_cons_eq_ok hopening
  obtain ⟨run₅, h₅, hopening⟩ := Progress.performAll_cons_eq_ok hopening
  cases hopening
  obtain ⟨concluded, hfinish, hend⟩ := Progress.performAll_cons_eq_ok hend
  obtain ⟨finished, hfinished, hend⟩ := Progress.performAll_cons_eq_ok hend
  cases hend
  have hall : run₁.plugins =
      [Bundled.strictDeps { mode := s.check, direct := s.direct },
        .importCycles { mode := s.cycles }, .naming { enabled := s.naming }] ++
        [.phaseTrace { directory? := some directory }] := by
    rw [Progress.eq_of_enter h₁, ← hdirectory]
    exact hplugins
  have hnone : run₁.session.context.listeners = [] := by
    rw [Progress.eq_of_enter h₁]
    rfl
  have hprepared := Tracing.of_prepareContext hfront hall hnone h₂
  have hset := hprepared.call (fun _ _ => rfl) h₃
  have hopened : Tracing directory (4 * 0) _ opened := (hset.enter h₄).enter h₅
  obtain ⟨trace, hwritten, hstamps, hcontents, hevents⟩ := (hopened.units hunits).finish hfinish
  rw [Nat.zero_add] at hstamps hevents
  cases Progress.eq_of_enter hfinished
  have hcompile : Report.compile m flags warningsAsErrors files = _ := hrun
  rw [hcompile]
  exact ⟨trace, hwritten, hstamps, hcontents, hevents⟩

/-- A unit with an import that is nowhere. -/
def lostImport : Manifest where
  units := [{ path := "A.java", package := "a", imports := ["b.B"], types := ["A"] }]

/-- One unit leaves four snapshots, and they hold what the run has reported. -/
theorem trace_exact_of_unresolved_import :
    ∃ trace : Trace,
      (∀ trace', PhaseTrace.Written (Report.compile lostImport ["--trace-dir=out"] false {}).files
        "out" trace' ↔ trace' = trace) ∧
      trace.snapshots.map Snapshot.stamp =
        [⟨"init", none, none, 0⟩, ⟨"post_attribute", some .attribution, some "A.java", 2⟩,
          ⟨"post_flow", some .flow, some "A.java", 4⟩, ⟨"finish", none, none, 4⟩] ∧
      trace.snapshots.flatMap (·.diagnostics) =
        (Report.compile lostImport ["--trace-dir=out"] false {}).report.diagnostics ∧
      trace.taskEvents = 4 := by
  have hplugins : (claimFlags all ["--trace-dir=out"]).plugins =
      (Settings.mk .off [] .warn false (some "out")).plugins := by decide +kernel
  have hcompleted : (Report.compile lostImport ["--trace-dir=out"] false {}).report.outcome =
      .completed .error := by decide +kernel
  exact trace_exact hplugins rfl hcompleted

end Bundled

end AnalysisHost
