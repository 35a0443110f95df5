import AnalysisHost.Proofs.BundledCallbacks

/-!
# Runs of the bundled analyses

How far a run of the bundled analyses has come is a `Place`: a stage, and the units that have been
through. `UnderWay` says what the analyses and the session are like at a place, and every task of
the schedule takes a run from one place to the next, or ends it:

- `UnderWay.units_pass` and `UnderWay.units_close`: the units, all of them or up to the first one
  that closes a cycle where cycles are fatal;
- `UnderWay.finish_passes` and its companions: the end;
- `compile_eq`: a compilation is these, after an opening in which nothing is found.
-/

namespace AnalysisHost

/-! ## One call of every plugin

`Passes` says that a list of plugins gets through a call and what it leaves. A failure is then one
plugin behind a part of the list that passes. -/

section Passing

variable {π : Type} [Plugin π]

/-- A call passes through some plugins. -/
inductive Passes (c : Call) : List π → Session → List π → Session → Prop
  | nil (s : Session) : Passes c [] s [] s
  | cons {p p' : π} {ps ps' : List π} {s s' s'' : Session} :
      c.make p s = (.ok (), p', s') → Passes c ps s' ps' s'' → Passes c (p :: ps) s (p' :: ps') s''

variable {c : Call} {ps ps' : List π} {s s' : Session}

/-- A sweep over plugins that pass visits them all. -/
theorem Passes.sweep_eq (h : Passes c ps s ps' s') :
    sweep c.makeLayered ps s = ⟨.ok (), ps', s', ps.length⟩ := by
  induction h with
  | nil => rfl
  | cons hmake _ ih =>
    rw [sweep_cons_of_ok (Call.makeLayered_of_ok hmake), ih]
    rfl

/-- Plugins that pass may be followed by others that do. -/
theorem Passes.append (h : Passes c ps s ps' s') {qs qs' : List π} {s'' : Session}
    (hback : Passes c qs s' qs' s'') : Passes c (ps ++ qs) s (ps' ++ qs') s'' := by
  induction h with
  | nil => exact hback
  | cons hmake _ ih => exact .cons hmake (ih hback)

/-- The task of a call that everybody passes. -/
theorem Passes.perform_eq {run : Progress π} (h : Passes c run.plugins run.session ps' s') :
    ∃ history, run.perform (.call c) =
      (.ok (), { run with plugins := ps', session := s', history }) := by
  show ∃ history, run.call c = _
  unfold Progress.call
  rw [h.sweep_eq]
  exact ⟨_, rfl⟩

/-- A plugin behind some that pass ends the sweep if it fails. The layers around its failure hide no
escalation. -/
theorem Passes.verdict_of_error (h : Passes c ps s ps' s') {p p' : π} {s'' : Session} {f : Failure}
    (hmake : c.make p s' = (.error f, p', s'')) (back : List π) :
    ∃ f', (sweep c.makeLayered (ps ++ p :: back) s).verdict = .error f' ∧
      f'.escalation? = f.escalation? := by
  induction h with
  | nil s =>
    rw [List.nil_append, sweep_cons_of_error (Call.makeLayered_of_error hmake)]
    exact ⟨_, rfl, Failure.escalation?_wrapAll _ _⟩
  | cons hq _ ih =>
    rw [List.cons_append, sweep_cons_of_ok (Call.makeLayered_of_ok hq)]
    exact ih hmake

/-- The task of a call that one plugin fails, behind others that pass. -/
theorem Passes.perform_error {run : Progress π} (h : Passes c ps run.session ps' s') {p p' : π}
    {s'' : Session} {f : Failure} (hmake : c.make p s' = (.error f, p', s'')) {back : List π}
    (hplugins : run.plugins = ps ++ p :: back) :
    ∃ f' run', run.perform (.call c) = (.error f', run') ∧ f'.escalation? = f.escalation? ∧
      run'.unitsCompiled = run.unitsCompiled := by
  obtain ⟨f', hverdict, hescalation⟩ := h.verdict_of_error hmake back
  rw [← hplugins] at hverdict
  exact ⟨f', _, Prod.ext hverdict rfl, hescalation, rfl⟩

end Passing

namespace Bundled

/-! ## Places in a run

The run is followed from place to place. At each the analyses are what they are after the units so
far, so a place determines them, but for the snapshots of the trace. -/

/-- What a run of the bundled analyses depends on. -/
structure Situation where
  settings : Settings
  table : SymbolTable
  warningsAsErrors : Bool
  files : Files

/-- How far a run has come. -/
structure Place where
  stage : Lifecycle.Stage
  unitsCompiled : Nat
  /-- The units whose imports have been checked. -/
  checked : List CompilationUnit
  /-- The units whose edges have been added. -/
  surveyed : List CompilationUnit

/-- The place between two units. -/
def Place.behind (units : List CompilationUnit) : Place := ⟨.phaseLoop, units.length, units, units⟩

/-- The bundled analyses at a place. -/
def pluginsAt (x : Situation) (here : Place) (trace : PhaseTrace) : List Bundled :=
  [.strictDeps (StrictDeps.after x.table x.settings.check x.settings.direct here.checked),
    .importCycles (ImportCycles.after x.table x.settings.cycles here.surveyed),
    .naming { enabled := x.settings.naming }, .phaseTrace trace]

/-- A run is at a place. -/
structure UnderWay (x : Situation) (here : Place) (run : Progress Bundled) : Prop where
  plugins : ∃ trace : PhaseTrace, trace.directory? = x.settings.directory? ∧
    run.plugins = pluginsAt x here trace
  shows : ImportCycles.Shows (ImportCycles.surveyIn x.settings.cycles x.table here.surveyed)
    run.session
  warningsAsErrors : run.session.log.warningsAsErrors = x.warningsAsErrors
  files : run.session.files = x.files
  stage : run.lifecycle = ⟨here.stage⟩
  unitsCompiled : run.unitsCompiled = here.unitsCompiled

namespace UnderWay

variable {x : Situation} {here : Place} {run : Progress Bundled}

/-- A task after which the search has still been through the same units. -/
theorem of_kept (h : UnderWay x here run) {s : Session} (hkept : run.session.Kept s)
    {trace : PhaseTrace} (htrace : trace.directory? = x.settings.directory?)
    (checked : List CompilationUnit) (history : List Occurrence) :
    UnderWay x { here with checked }
      { run with plugins := pluginsAt x { here with checked } trace, session := s, history } where
  plugins := ⟨trace, htrace, rfl⟩
  shows := h.shows.of_kept hkept
  warningsAsErrors := hkept.warningsAsErrors.trans h.warningsAsErrors
  files := hkept.files.trans h.files
  stage := h.stage
  unitsCompiled := h.unitsCompiled

/-! ## Tasks without plugins

Events, findings of the host and moves of the lifecycle keep the analyses. -/

/-- A task event is heard by the trace only. -/
theorem announce (h : UnderWay x here run) (event : TaskEvent) :
    UnderWay x here (run.announce event) where
  plugins := h.plugins
  shows := h.shows.of_kept (Session.Kept.context run.session rfl)
  warningsAsErrors := h.warningsAsErrors
  files := h.files
  stage := h.stage
  unitsCompiled := h.unitsCompiled

/-- What the host reports is not from the search. -/
theorem report (h : UnderWay x here run) {ds : List Diagnostic}
    (hds : ∀ d ∈ ds, d.source ≠ ImportCycles.analysisName) : UnderWay x here (run.report ds) where
  plugins := h.plugins
  shows := h.shows.of_kept (Session.Kept.reportAll run.session hds)
  warningsAsErrors := (Log.warningsAsErrors_reportAll _ _).trans h.warningsAsErrors
  files := h.files
  stage := h.stage
  unitsCompiled := h.unitsCompiled

/-- The run moves on where the lifecycle allows it. -/
theorem enter (h : UnderWay x here run) (next : Lifecycle.Stage)
    (hmove : here.stage.canMoveTo next = true) :
    ∃ run', run.perform (.enter next) = (.ok (), run') ∧
      UnderWay x { here with stage := next } run' := by
  have hadvance : run.lifecycle.advance next = .ok ⟨next⟩ := by
    rw [Lifecycle.advance_eq_ok_iff, h.stage]
    exact ⟨hmove, rfl⟩
  refine ⟨{ run with lifecycle := ⟨next⟩ }, ?_, ?_⟩
  · rw [Progress.perform, hadvance]
  · exact ⟨h.plugins, h.shows, h.warningsAsErrors, h.files, rfl, h.unitsCompiled⟩

/-! ## Calls

Each call moves the analyses from one place to the next. The only one that may close a run before
its end is the one after the flow of a unit. -/

/-- The analyses prepare the context; the trace may begin to listen. -/
theorem prepareContext (h : UnderWay x here run) :
    ∃ run', run.perform (.call .prepareContext) = (.ok (), run') ∧ UnderWay x here run' := by
  obtain ⟨trace, htrace, hplugins⟩ := h.plugins
  obtain ⟨trace', context', hprepare, hdirectory, hslots⟩ :=
    trace.prepareContext_passes run.session.context
  have hmake : Call.prepareContext.make (Bundled.phaseTrace trace) run.session =
      (.ok (), .phaseTrace trace', { run.session with context := context' }) :=
    congrArg (fun r : Reply PhaseTrace RunContext =>
      (r.1, Bundled.phaseTrace r.2.1, { run.session with context := r.2.2 })) hprepare
  have hpasses : Passes .prepareContext run.plugins run.session (pluginsAt x here trace')
      { run.session with context := context' } := by
    rw [hplugins]
    exact .cons rfl (.cons rfl (.cons rfl (.cons hmake (.nil _))))
  obtain ⟨history, hperform⟩ := hpasses.perform_eq
  exact ⟨_, hperform, h.of_kept (Session.Kept.context run.session hslots)
    (hdirectory.trans htrace) here.checked history⟩

theorem setUp (h : UnderWay x here run) :
    ∃ run', run.perform (.call .setUp) = (.ok (), run') ∧ UnderWay x here run' := by
  obtain ⟨trace, htrace, hplugins⟩ := h.plugins
  have hpasses : Passes .setUp run.plugins run.session
      (pluginsAt x here (trace.capture "init" none run.session)) run.session := by
    rw [hplugins]
    exact .cons rfl (.cons rfl (.cons rfl (.cons rfl (.nil _))))
  obtain ⟨history, hperform⟩ := hpasses.perform_eq
  exact ⟨_, hperform, h.of_kept (Session.Kept.refl run.session)
    ((trace.directory?_capture _ _ _).trans htrace) here.checked history⟩

/-- Every analysis looks at a unit after its attribution. -/
theorem afterAttribution (h : UnderWay x here run) (u : CompilationUnit) :
    ∃ run', run.perform (.call (.inspect { tree := u, resolved := u.resolutions x.table })) =
        (.ok (), run') ∧
      UnderWay x { here with checked := here.checked ++ [u] } run' := by
  obtain ⟨trace, htrace, hplugins⟩ := h.plugins
  obtain ⟨s₁, hstrict, hkept₁⟩ := StrictDeps.afterAttribution_after x.table x.settings.check
    x.settings.direct here.checked u run.session
  obtain ⟨s₂, hnaming, hkept₂⟩ := Naming.afterAttribution_passes { enabled := x.settings.naming }
    { tree := u, resolved := u.resolutions x.table } s₁
  have hmake₁ : (Call.inspect { tree := u, resolved := u.resolutions x.table }).make
      (Bundled.strictDeps
        (StrictDeps.after x.table x.settings.check x.settings.direct here.checked)) run.session =
      (.ok (), .strictDeps (StrictDeps.after x.table x.settings.check x.settings.direct
        (here.checked ++ [u])), s₁) :=
    congrArg (Reply.map Bundled.strictDeps) hstrict
  have hmake₂ : (Call.inspect { tree := u, resolved := u.resolutions x.table }).make
      (Bundled.naming { enabled := x.settings.naming }) s₁ =
      (.ok (), .naming { enabled := x.settings.naming }, s₂) :=
    congrArg (Reply.map Bundled.naming) hnaming
  have hpasses : Passes (.inspect { tree := u, resolved := u.resolutions x.table }) run.plugins
      run.session
      (pluginsAt x { here with checked := here.checked ++ [u] }
        (trace.capture "post_attribute"
          (some { tree := u, resolved := u.resolutions x.table }) s₂)) s₂ := by
    rw [hplugins]
    exact .cons hmake₁ (.cons rfl (.cons hmake₂ (.cons rfl (.nil _))))
  obtain ⟨history, hperform⟩ := hpasses.perform_eq
  exact ⟨_, hperform, h.of_kept (hkept₁.trans hkept₂)
    ((trace.directory?_capture _ _ _).trans htrace) (here.checked ++ [u]) history⟩

/-- Every analysis looks at a unit after its flow, unless it closes a cycle that is fatal. -/
theorem afterFlow (h : UnderWay x here run) {u : CompilationUnit}
    (hfatal : x.settings.cycles = .fatal →
      (ImportCycles.survey x.table (here.surveyed ++ [u])).findings = []) :
    ∃ run', run.perform (.call (.inspect (ImportCycles.flowEnv x.table u))) = (.ok (), run') ∧
      UnderWay x { here with surveyed := here.surveyed ++ [u] } run' := by
  obtain ⟨trace, htrace, hplugins⟩ := h.plugins
  obtain ⟨s, hcycles, hshows, hwarnings, hfiles⟩ := ImportCycles.afterFlow_after h.shows hfatal
  have hmake : (Call.inspect (ImportCycles.flowEnv x.table u)).make
      (Bundled.importCycles (ImportCycles.after x.table x.settings.cycles here.surveyed))
      run.session =
      (.ok (), .importCycles (ImportCycles.after x.table x.settings.cycles
        (here.surveyed ++ [u])), s) :=
    congrArg (Reply.map Bundled.importCycles) hcycles
  have hpasses : Passes (.inspect (ImportCycles.flowEnv x.table u)) run.plugins run.session
      (pluginsAt x { here with surveyed := here.surveyed ++ [u] }
        (trace.capture "post_flow" (some (ImportCycles.flowEnv x.table u)) s)) s := by
    rw [hplugins]
    exact .cons rfl (.cons hmake (.cons rfl (.cons rfl (.nil _))))
  obtain ⟨history, hperform⟩ := hpasses.perform_eq
  refine ⟨_, hperform, ⟨_, (trace.directory?_capture _ _ _).trans htrace, rfl⟩, hshows,
    hwarnings.trans h.warningsAsErrors, hfiles.trans h.files, h.stage, h.unitsCompiled⟩

/-- A fatal search ends the run at the first cycle it finds. -/
theorem afterFlow_closes (h : UnderWay x here run) {u : CompilationUnit}
    (hfatal : x.settings.cycles = .fatal)
    (hnone : (ImportCycles.survey x.table here.surveyed).findings = [])
    (hfound : (ImportCycles.survey x.table (here.surveyed ++ [u])).findings ≠ []) :
    ∃ f run', run.perform (.call (.inspect (ImportCycles.flowEnv x.table u))) = (.error f, run') ∧
      f.escalation? = some ⟨.error, "illegal import cycle"⟩ ∧
      run'.unitsCompiled = here.unitsCompiled := by
  obtain ⟨trace, -, hplugins⟩ := h.plugins
  have hshows := h.shows
  unfold pluginsAt at hplugins
  rw [hfatal] at hshows hplugins
  obtain ⟨p', s', hcycles⟩ := ImportCycles.afterFlow_closes hshows hnone hfound
  have hmake : (Call.inspect (ImportCycles.flowEnv x.table u)).make
      (Bundled.importCycles (ImportCycles.after x.table .fatal here.surveyed)) run.session =
      (.error (.escalate .error "illegal import cycle"), .importCycles p', s') :=
    congrArg (Reply.map Bundled.importCycles) hcycles
  have hpasses : Passes (.inspect (ImportCycles.flowEnv x.table u))
      [Bundled.strictDeps
        (StrictDeps.after x.table x.settings.check x.settings.direct here.checked)]
      run.session [_] run.session := .cons rfl (.nil _)
  obtain ⟨f, run', hperform, hescalation, hcount⟩ :=
    hpasses.perform_error hmake hplugins
  exact ⟨f, run', hperform, hescalation, hcount.trans h.unitsCompiled⟩

/-! ## Units

A unit runs through its two phases, and the units one behind the other, up to the first that closes
a fatal cycle. -/

theorem source_importErrors (u : CompilationUnit) (table : SymbolTable) :
    ∀ d ∈ u.importErrors table, d.source ≠ ImportCycles.analysisName := by
  intro d hd
  obtain ⟨r, -, rfl⟩ := List.mem_map.mp hd
  show Phase.attribution.text ≠ _
  decide

theorem source_flowErrors (u : CompilationUnit) :
    ∀ d ∈ u.flowErrors, d.source ≠ ImportCycles.analysisName := by
  intro d hd
  obtain ⟨s, -, rfl⟩ := List.mem_map.mp hd
  show Phase.flow.text ≠ _
  decide

/-- A unit up to the call after its flow, which may end the run. -/
theorem unit_up_to_flow (h : UnderWay x here run) (u : CompilationUnit) :
    ∃ run', run.performAll (u.tasks x.table) =
        run'.performAll [.call (.inspect (ImportCycles.flowEnv x.table u)), .unitDone] ∧
      UnderWay x { here with checked := here.checked ++ [u] } run' := by
  -- Announcements and reports of the phases leave the search alone.
  have hattributed := ((h.announce (.started .attribution u.path)).report
    (source_importErrors u x.table)).announce (.finished .attribution u.path)
  obtain ⟨checked, hperform, hchecked⟩ := hattributed.afterAttribution u
  have hflowed := ((hchecked.announce (.started .flow u.path)).report
    (source_flowErrors u)).announce (.finished .flow u.path)
  refine ⟨_, ?_, hflowed⟩
  rw [CompilationUnit.tasks]
  rw [Progress.performAll_cons_of_ok rfl, Progress.performAll_cons_of_ok rfl,
    Progress.performAll_cons_of_ok rfl]
  rw [Progress.performAll_cons_of_ok hperform]
  rw [Progress.performAll_cons_of_ok rfl, Progress.performAll_cons_of_ok rfl,
    Progress.performAll_cons_of_ok rfl]
  rfl

/-- **A unit** that closes no fatal cycle takes the run to the place behind it. -/
theorem unit_passes {done : List CompilationUnit} (h : UnderWay x (.behind done) run)
    {u : CompilationUnit}
    (hfatal : x.settings.cycles = .fatal →
      (ImportCycles.survey x.table (done ++ [u])).findings = []) :
    ∃ run', run.performAll (u.tasks x.table) = (.ok (), run') ∧
      UnderWay x (.behind (done ++ [u])) run' := by
  obtain ⟨checked, hfront, hchecked⟩ := h.unit_up_to_flow u
  obtain ⟨surveyed, hperform, hsurveyed⟩ := hchecked.afterFlow hfatal
  refine ⟨{ surveyed with unitsCompiled := surveyed.unitsCompiled + 1 }, ?_, ?_⟩
  · rw [hfront, Progress.performAll_cons_of_ok hperform]
    rfl
  · refine ⟨hsurveyed.plugins, hsurveyed.shows, hsurveyed.warningsAsErrors, hsurveyed.files,
      hsurveyed.stage, ?_⟩
    show surveyed.unitsCompiled + 1 = (done ++ [u]).length
    rw [hsurveyed.unitsCompiled, List.length_append]
    rfl

/-- **A unit** that closes one ends the run, and is not counted. -/
theorem unit_closes {done : List CompilationUnit} (h : UnderWay x (.behind done) run)
    {u : CompilationUnit} (hfatal : x.settings.cycles = .fatal)
    (hnone : (ImportCycles.survey x.table done).findings = [])
    (hfound : (ImportCycles.survey x.table (done ++ [u])).findings ≠ []) :
    ∃ f run', run.performAll (u.tasks x.table) = (.error f, run') ∧
      f.escalation? = some ⟨.error, "illegal import cycle"⟩ ∧
      run'.unitsCompiled = done.length := by
  obtain ⟨checked, hfront, hchecked⟩ := h.unit_up_to_flow u
  obtain ⟨f, run', hperform, hescalation, hcount⟩ :=
    hchecked.afterFlow_closes hfatal hnone hfound
  refine ⟨f, run', ?_, hescalation, hcount⟩
  rw [hfront, Progress.performAll_cons_of_error hperform]

/-- **All units**, where no cycle ends the run. -/
theorem units_pass {done : List CompilationUnit} (h : UnderWay x (.behind done) run)
    (units : List CompilationUnit)
    (hfatal : x.settings.cycles = .fatal →
      (ImportCycles.survey x.table (done ++ units)).findings = []) :
    ∃ run', run.performAll (units.flatMap (·.tasks x.table)) = (.ok (), run') ∧
      UnderWay x (.behind (done ++ units)) run' := by
  induction units generalizing done run with
  | nil =>
    rw [List.append_nil]
    exact ⟨run, rfl, h⟩
  | cons u units ih =>
    rw [List.append_cons] at hfatal ⊢
    obtain ⟨run', hperform, h'⟩ := h.unit_passes fun hmode =>
      ImportCycles.findings_eq_nil_of_append (hfatal hmode)
    obtain ⟨run'', hrest, h''⟩ := ih h' hfatal
    refine ⟨run'', ?_, h''⟩
    rw [List.flatMap_cons, Progress.performAll_append, hperform]
    exact hrest

/-- **Units up to a fatal cycle**: the run ends with the first unit that closes one. -/
theorem units_close {done : List CompilationUnit} (h : UnderWay x (.behind done) run)
    (units : List CompilationUnit) (hfatal : x.settings.cycles = .fatal)
    (hnone : (ImportCycles.survey x.table done).findings = [])
    (hfound : (ImportCycles.survey x.table (done ++ units)).findings ≠ []) :
    ∃ k < units.length, (ImportCycles.survey x.table (done ++ units.take k)).findings = [] ∧
      (ImportCycles.survey x.table (done ++ units.take (k + 1))).findings ≠ [] ∧
      ∃ f run', run.performAll (units.flatMap (·.tasks x.table)) = (.error f, run') ∧
        f.escalation? = some ⟨.error, "illegal import cycle"⟩ ∧
        run'.unitsCompiled = done.length + k := by
  induction units generalizing done run with
  | nil =>
    rw [List.append_nil] at hfound
    exact absurd hnone hfound
  | cons u units ih =>
    -- Either this is the unit that closes the first cycle, or it passes and the others go on.
    by_cases hu : (ImportCycles.survey x.table (done ++ [u])).findings = []
    · obtain ⟨run', hperform, h'⟩ := h.unit_passes fun _ => hu
      rw [List.append_cons] at hfound
      obtain ⟨k, hk, hbefore, hafter, f, run'', hrest, hescalation, hcount⟩ := ih h' hu hfound
      refine ⟨k + 1, Nat.succ_lt_succ hk, ?_, ?_, f, run'', ?_, hescalation, ?_⟩
      · rw [List.take_succ_cons, List.append_cons]
        exact hbefore
      · rw [List.take_succ_cons, List.append_cons]
        exact hafter
      · rw [List.flatMap_cons, Progress.performAll_append, hperform]
        exact hrest
      · rw [hcount, List.length_append, List.length_singleton]
        omega
    · obtain ⟨f, run', hperform, hescalation, hcount⟩ := h.unit_closes hfatal hnone hu
      refine ⟨0, Nat.succ_pos _, ?_, hu, f, run', ?_, hescalation, hcount⟩
      · rw [List.take_zero, List.append_nil]
        exact hnone
      · rw [List.flatMap_cons, Progress.performAll_append, hperform]

end UnderWay

/-! ## The end

The check concludes first, then the search, and the trace at the last. So undeclared packages come
before a trace that cannot be written. -/

/-- The undeclared packages that the check has come upon. -/
def Situation.missing (x : Situation) (units : List CompilationUnit) : List String :=
  (StrictDeps.after x.table x.settings.check x.settings.direct units).missing

/-- What the search has found. -/
def Situation.found (x : Situation) (units : List CompilationUnit) : ImportCycles.Survey :=
  ImportCycles.surveyIn x.settings.cycles x.table units

/-- The trace can be written, if there is to be one. -/
def Situation.Writable (x : Situation) : Prop :=
  ∀ directory, x.settings.directory? = some directory →
    ¬ PhaseTrace.Unwritable x.files directory

/-- Every analysis has concluded. -/
structure Concluded (x : Situation) (units : List CompilationUnit) (run : Progress Bundled) :
    Prop where
  stage : run.lifecycle = ⟨.phaseLoop⟩
  warningsAsErrors : run.session.log.warningsAsErrors = x.warningsAsErrors
  graph : ImportCycles.graphIn run.session.context = (x.found units).graph
  reported : x.settings.cycles ≠ .off →
    run.session.log.fromSource ImportCycles.analysisName =
      ((x.found units).findings.map fun f =>
        run.session.log.recorded (ImportCycles.cycleWarning f.1.path f.2)) ++
      [run.session.log.recorded (ImportCycles.summaryNote (x.found units).findings.length
        (x.found units).graph.edgeCount)]

namespace UnderWay

variable {x : Situation} {units : List CompilationUnit} {run : Progress Bundled}

/-- The run ends with the undeclared packages where the check is strict. -/
theorem finish_missing (h : UnderWay x (.behind units) run) (hstrict : x.settings.check = .strict)
    (hmissing : x.missing units ≠ []) :
    ∃ f run', run.perform (.call .finish) = (.error f, run') ∧
      f.escalation? = some ⟨.error, StrictDeps.missingMessage (x.missing units)⟩ := by
  obtain ⟨trace, -, hplugins⟩ := h.plugins
  obtain ⟨p', s', hfinish⟩ := StrictDeps.finish_of_missing
    (p := StrictDeps.after x.table x.settings.check x.settings.direct units) hstrict hmissing
    run.session
  have hmake : Call.finish.make
      (Bundled.strictDeps (StrictDeps.after x.table x.settings.check x.settings.direct units))
      run.session =
      (.error (.escalate .error (StrictDeps.missingMessage (x.missing units))),
        .strictDeps p', s') :=
    congrArg (Reply.map Bundled.strictDeps) hfinish
  obtain ⟨f, run', hperform, hescalation, -⟩ :=
    (Passes.nil run.session).perform_error hmake hplugins
  exact ⟨f, run', hperform, hescalation⟩

/-- The first three analyses conclude where the check has nothing against it. -/
theorem exists_passes_finish (h : UnderWay x (.behind units) run)
    (hpass : ¬ (x.settings.check = .strict ∧ x.missing units ≠ [])) {trace : PhaseTrace}
    (hplugins : run.plugins = pluginsAt x (.behind units) trace) :
    ∃ front s, run.plugins = front ++ [.phaseTrace trace] ∧
      Passes .finish front run.session front s ∧ s.files = x.files ∧
      Concluded x units { run with session := s } := by
  obtain ⟨s₁, hstrict, hkept⟩ := StrictDeps.finish_passes
    (p := StrictDeps.after x.table x.settings.check x.settings.direct units) hpass run.session
  obtain ⟨s₂, hcycles, hcontext, hfiles, hwarnings, hlog⟩ := ImportCycles.finish_passes
    (ImportCycles.after x.table x.settings.cycles units) s₁
  have hmake₁ : Call.finish.make
      (Bundled.strictDeps (StrictDeps.after x.table x.settings.check x.settings.direct units))
      run.session =
      (.ok (), .strictDeps (StrictDeps.after x.table x.settings.check x.settings.direct units),
        s₁) :=
    congrArg (Reply.map Bundled.strictDeps) hstrict
  have hmake₂ : Call.finish.make
      (Bundled.importCycles (ImportCycles.after x.table x.settings.cycles units)) s₁ =
      (.ok (), .importCycles (ImportCycles.after x.table x.settings.cycles units), s₂) :=
    congrArg (Reply.map Bundled.importCycles) hcycles
  -- The check reports before the search does, so the search still finds its own reports last.
  have hshows := h.shows.of_kept hkept
  refine ⟨[_, _, _], s₂, hplugins, .cons hmake₁ (.cons hmake₂ (.cons rfl (.nil _))),
    hfiles.trans (hkept.files.trans h.files), h.stage, ?_, ?_, ?_⟩
  · exact hwarnings.trans (hkept.warningsAsErrors.trans h.warningsAsErrors)
  · exact (congrArg ImportCycles.graphIn hcontext).trans hshows.graph
  · intro hmode
    have hlength : (ImportCycles.after x.table x.settings.cycles units).cycles.length =
        (x.found units).findings.length := List.length_map _
    show s₂.log.fromSource _ = (_ : List _).map (fun f => s₂.log.recorded _) ++
      [s₂.log.recorded _]
    have hsource : (ImportCycles.summaryNote (x.found units).findings.length
        (x.found units).graph.edgeCount).source = ImportCycles.analysisName := rfl
    have hgraph : ImportCycles.graphIn s₁.context = (x.found units).graph := hshows.graph
    rw [hlog hmode, hgraph, hlength, Log.fromSource_report _ hsource, hshows.reported]
    rfl

/-- The run ends with the trace that cannot be written. -/
theorem finish_unwritable (h : UnderWay x (.behind units) run)
    (hpass : ¬ (x.settings.check = .strict ∧ x.missing units ≠ [])) (htrace : ¬ x.Writable) :
    ∃ f run' message, run.perform (.call .finish) = (.error f, run') ∧
      f.escalation? = some ⟨.sysErr, message⟩ := by
  obtain ⟨trace, hdirectory, hplugins⟩ := h.plugins
  obtain ⟨front, s, hfront, hpasses, hfiles, -⟩ := h.exists_passes_finish hpass hplugins
  unfold Situation.Writable at htrace
  push Not at htrace
  obtain ⟨directory, hset, hunwritable⟩ := htrace
  rw [← hfiles] at hunwritable
  rw [← hdirectory] at hset
  obtain ⟨message, p', s', hfinish⟩ := PhaseTrace.finish_of_unwritable hset hunwritable
  have hmake : Call.finish.make (Bundled.phaseTrace trace) s =
      (.error (.escalate .sysErr message), .phaseTrace p', s') :=
    congrArg (Reply.map Bundled.phaseTrace) hfinish
  obtain ⟨f, run', hperform, hescalation, -⟩ := hpasses.perform_error hmake hfront
  exact ⟨f, run', message, hperform, hescalation⟩

/-- Otherwise every analysis concludes. -/
theorem finish_passes (h : UnderWay x (.behind units) run)
    (hpass : ¬ (x.settings.check = .strict ∧ x.missing units ≠ [])) (htrace : x.Writable) :
    ∃ run', run.perform (.call .finish) = (.ok (), run') ∧ Concluded x units run' := by
  obtain ⟨trace, hdirectory, hplugins⟩ := h.plugins
  obtain ⟨front, s, hfront, hpasses, hfiles, hconcluded⟩ := h.exists_passes_finish hpass hplugins
  have hwritable : ∀ directory, trace.directory? = some directory →
      ¬ PhaseTrace.Unwritable s.files directory := by
    rw [hdirectory, hfiles]
    exact htrace
  obtain ⟨p', s', hfinish, hcontext, hlog⟩ := PhaseTrace.finish_passes hwritable
  have hmake : Call.finish.make (Bundled.phaseTrace trace) s = (.ok (), .phaseTrace p', s') :=
    congrArg (Reply.map Bundled.phaseTrace) hfinish
  have hall : Passes .finish run.plugins run.session (front ++ [.phaseTrace p']) s' := by
    rw [hfront]
    apply hpasses.append
    exact .cons hmake (.nil _)
  obtain ⟨history, hperform⟩ := hall.perform_eq
  refine ⟨_, hperform, hconcluded.stage, ?_, ?_, ?_⟩
  · show s'.log.warningsAsErrors = _
    rw [hlog]
    exact hconcluded.warningsAsErrors
  · show ImportCycles.graphIn s'.context = _
    rw [hcontext]
    exact hconcluded.graph
  · show _ → s'.log.fromSource _ = (_ : List _).map (fun f => s'.log.recorded _) ++
      [s'.log.recorded _]
    rw [hlog]
    exact hconcluded.reported

end UnderWay

/-! ## Compilations

From the command line to the outcome: `compile_eq` brings the run in front of its first unit, and
`compile_ending` takes it to one of four ends. -/

/-- Before the first unit nothing has been found. -/
theorem surveyIn_nil (mode : CycleMode) (table : SymbolTable) :
    ImportCycles.surveyIn mode table [] = {} := ite_self _

/-- A compilation of a manifest with some of the bundled analyses. -/
def compilationWith (m : Manifest) (plugins : List Bundled) (warningsAsErrors : Bool) :
    Compilation Bundled :=
  { (Compilation.ofManifest m : Compilation Bundled) with plugins, warningsAsErrors }

/-- A compilation of a manifest with all of them. -/
def compilation (m : Manifest) (warningsAsErrors : Bool) : Compilation Bundled :=
  compilationWith m all warningsAsErrors

/-- What the analyses are after they have claimed their flags is what they are over no units. -/
theorem underWay_start {m : Manifest} {flags : List String} {s : Settings}
    (hplugins : (claimFlags all flags).plugins = s.plugins) (warningsAsErrors : Bool)
    (files : Files) :
    UnderWay ⟨s, m.table, warningsAsErrors, files⟩ ⟨.notStarted, 0, [], []⟩
      ((compilation m warningsAsErrors).start (claimFlags all flags) files) := by
  refine ⟨⟨{ directory? := s.directory? }, rfl, ?_⟩, ⟨?_, ?_⟩, rfl, rfl, rfl, rfl⟩
  · refine hplugins.trans ?_
    unfold Settings.plugins pluginsAt StrictDeps.after ImportCycles.after
    rw [surveyIn_nil]
    simp only [StrictDeps.undeclaredUses, List.flatMap_nil, List.eraseDups_nil, ite_self]
    rfl
  · rw [surveyIn_nil]
    rfl
  · rw [surveyIn_nil]
    rfl

/-- **A compilation** is what its units and the end make of a run in which nothing has been seen. -/
theorem compile_eq {m : Manifest} {flags : List String} {s : Settings}
    (hflags : (claimFlags all flags).verdict = .ok ())
    (hplugins : (claimFlags all flags).plugins = s.plugins) (warningsAsErrors : Bool)
    (files : Files) :
    ∃ run, UnderWay ⟨s, m.table, warningsAsErrors, files⟩ (.behind []) run ∧
      Report.compile m flags warningsAsErrors files =
        let (verdict, done) := run.performAll
          (m.lower.flatMap (·.tasks m.table) ++ [.call .finish, .enter .finished])
        Compilation.concluded verdict done := by
  let c := compilation m warningsAsErrors
  have hstart : UnderWay ⟨s, m.table, warningsAsErrors, files⟩ ⟨.notStarted, 0, [], []⟩
      (c.start (claimFlags all flags) files) := underWay_start hplugins warningsAsErrors files
  obtain ⟨run₁, h₁, hrun₁⟩ := hstart.enter .argsProcessed rfl
  obtain ⟨run₂, h₂, hrun₂⟩ := hrun₁.prepareContext
  obtain ⟨run₃, h₃, hrun₃⟩ := hrun₂.setUp
  obtain ⟨run₄, h₄, hrun₄⟩ := hrun₃.enter .initialized rfl
  obtain ⟨run₅, h₅, hrun₅⟩ := hrun₄.enter .phaseLoop rfl
  refine ⟨run₅, hrun₅, ?_⟩
  have hopening : (c.start (claimFlags all flags) files).performAll c.schedule =
      run₅.performAll
        (m.lower.flatMap (·.tasks m.table) ++ [.call .finish, .enter .finished]) := by
    unfold Compilation.schedule
    rw [List.append_assoc]
    show (c.start (claimFlags all flags) files).performAll (.enter .argsProcessed ::
      .call .prepareContext :: .call .setUp :: .enter .initialized :: .enter .phaseLoop :: _) = _
    rw [Progress.performAll_cons_of_ok h₁, Progress.performAll_cons_of_ok h₂,
      Progress.performAll_cons_of_ok h₃, Progress.performAll_cons_of_ok h₄,
      Progress.performAll_cons_of_ok h₅]
    rfl
  show c.run flags files = _
  unfold Compilation.run
  have hverdict : (claimFlags c.plugins flags).verdict = .ok () := hflags
  dsimp only
  rw [hverdict]
  dsimp only
  rw [← hopening]
  rfl

/-- How a run of the bundled analyses ends. -/
inductive Ending (x : Situation) (units : List CompilationUnit) (run : Run Bundled) : Prop
  /-- A unit closes a cycle, and cycles are fatal. -/
  | cyclic (k : Nat) (fatal : x.settings.cycles = .fatal)
      (before : (ImportCycles.survey x.table (units.take k)).findings = [])
      (after : (ImportCycles.survey x.table (units.take (k + 1))).findings ≠ [])
      (outcome : run.report.outcome = .aborted ⟨.error, "illegal import cycle"⟩)
      (unitsCompiled : run.report.unitsCompiled = k)
  /-- There are undeclared packages, and the check is strict. -/
  | missing
      (acyclic : x.settings.cycles = .fatal → (ImportCycles.survey x.table units).findings = [])
      (strict : x.settings.check = .strict) (some : x.missing units ≠ [])
      (outcome : run.report.outcome =
        .aborted ⟨.error, StrictDeps.missingMessage (x.missing units)⟩)
  /-- The trace cannot be written. -/
  | unwritable (message : String)
      (acyclic : x.settings.cycles = .fatal → (ImportCycles.survey x.table units).findings = [])
      (declared : ¬ (x.settings.check = .strict ∧ x.missing units ≠ [])) (trace : ¬ x.Writable)
      (outcome : run.report.outcome = .aborted ⟨.sysErr, message⟩)
  | completed (done : Progress Bundled)
      (acyclic : x.settings.cycles = .fatal → (ImportCycles.survey x.table units).findings = [])
      (declared : ¬ (x.settings.check = .strict ∧ x.missing units ≠ [])) (trace : x.Writable)
      (concluded : Concluded x units done)
      (eq : run = Compilation.concluded (.ok ()) { done with lifecycle := ⟨.finished⟩ })

theorem outcome_concluded_of_escalation {f : Failure} {e : Escalation}
    (h : f.escalation? = some e) (done : Progress Bundled) :
    (Compilation.concluded (.error f) done).report.outcome = .aborted e := by
  show Outcome.ofFailure f = _
  rw [Outcome.ofFailure, h]

/-- **Every compilation ends in one of these ways.** -/
theorem compile_ending {m : Manifest} {flags : List String} {s : Settings}
    (hflags : (claimFlags all flags).verdict = .ok ())
    (hplugins : (claimFlags all flags).plugins = s.plugins) (warningsAsErrors : Bool)
    (files : Files) :
    Ending ⟨s, m.table, warningsAsErrors, files⟩ m.lower
      (Report.compile m flags warningsAsErrors files) := by
  obtain ⟨run, hrun, heq⟩ := compile_eq (m := m) hflags hplugins warningsAsErrors files
  rw [heq]
  by_cases hcyclic : s.cycles = .fatal ∧ (ImportCycles.survey m.table m.lower).findings ≠ []
  · obtain ⟨hfatal, hfound⟩ := hcyclic
    obtain ⟨k, -, hbefore, hafter, f, run', hperform, hescalation, hcount⟩ :=
      hrun.units_close m.lower hfatal rfl hfound
    have hall : run.performAll
        (m.lower.flatMap (·.tasks m.table) ++ [.call .finish, .enter .finished]) =
        (.error f, run') := by
      rw [Progress.performAll_append, hperform]
    rw [hall]
    refine .cyclic k hfatal hbefore hafter (outcome_concluded_of_escalation hescalation run') ?_
    exact hcount.trans (Nat.zero_add k)
  · have hacyclic : s.cycles = .fatal → (ImportCycles.survey m.table m.lower).findings = [] :=
      fun hfatal => not_not.mp fun hfound => hcyclic ⟨hfatal, hfound⟩
    obtain ⟨run', hperform, hrun'⟩ := hrun.units_pass m.lower hacyclic
    have hall : run.performAll
        (m.lower.flatMap (·.tasks m.table) ++ [.call .finish, .enter .finished]) =
        run'.performAll [.call .finish, .enter .finished] := by
      rw [Progress.performAll_append, hperform]
    rw [hall]
    by_cases hmissing :
        s.check = .strict ∧ Situation.missing ⟨s, m.table, warningsAsErrors, files⟩ m.lower ≠ []
    · obtain ⟨f, done, hfinish, hescalation⟩ := hrun'.finish_missing hmissing.1 hmissing.2
      rw [Progress.performAll_cons_of_error hfinish]
      exact .missing hacyclic hmissing.1 hmissing.2
        (outcome_concluded_of_escalation hescalation done)
    · by_cases htrace : Situation.Writable ⟨s, m.table, warningsAsErrors, files⟩
      · obtain ⟨done, hfinish, hconcluded⟩ := hrun'.finish_passes hmissing htrace
        have hfinished : done.perform (.enter .finished) =
            (.ok (), { done with lifecycle := ⟨.finished⟩ }) := by
          have hadvance : done.lifecycle.advance .finished = .ok ⟨.finished⟩ := by
            rw [Lifecycle.advance_eq_ok_iff, hconcluded.stage]
            exact ⟨rfl, rfl⟩
          rw [Progress.perform, hadvance]
        rw [Progress.performAll_cons_of_ok hfinish, Progress.performAll_cons_of_ok hfinished]
        exact .completed done hacyclic hmissing htrace hconcluded rfl
      · obtain ⟨f, done, message, hfinish, hescalation⟩ := hrun'.finish_unwritable hmissing htrace
        rw [Progress.performAll_cons_of_error hfinish]
        exact .unwritable message hacyclic hmissing htrace
          (outcome_concluded_of_escalation hescalation done)

end Bundled

end AnalysisHost
