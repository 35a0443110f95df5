import AnalysisHost.Proofs.BundledFlags
import AnalysisHost.Proofs.Undeclared

/-!
# What the callbacks of the bundled analyses do

Of all that the host lends, the bundled analyses touch little: only the search for cycles stores a
graph, only the trace writes files, and each reports under its own name. `Session.Kept` says of a
callback that it left alone what the search for cycles works on.

The callbacks are taken one by one here: each passes, or fails with an escalation. In
`Proofs.BundledRun` they are put together.
-/

namespace AnalysisHost

/-! ## Logs

What one analysis has reported is read off the log by the source. The log may turn warnings into
errors as they are recorded, but it keeps their sources. -/

namespace Log

theorem reportAll_append (log : Log) (ds es : List Diagnostic) :
    log.reportAll (ds ++ es) = (log.reportAll ds).reportAll es :=
  List.foldl_append

/-- Recording a warning as an error does not change who speaks. -/
theorem source_recorded (log : Log) (d : Diagnostic) : (log.recorded d).source = d.source := by
  unfold recorded
  split <;> rfl

/-- What has been recorded from some sources. -/
def fromSources (log : Log) (sources : List String) : List Diagnostic :=
  log.diagnostics.filter fun d => decide (d.source ∈ sources)

theorem fromSource_eq (log : Log) (source : String) :
    log.fromSource source = log.fromSources [source] := by
  simp [fromSource, fromSources]

/-- Of some reports, those from the sources are added, as they are recorded. -/
theorem fromSources_reportAll (log : Log) (ds : List Diagnostic) (sources : List String) :
    (log.reportAll ds).fromSources sources =
      log.fromSources sources ++
        (ds.filter fun d => decide (d.source ∈ sources)).map log.recorded := by
  have hfilter : (fun d => decide (Diagnostic.source d ∈ sources)) ∘ log.recorded =
      fun d => decide (d.source ∈ sources) := by
    funext d
    show decide ((log.recorded d).source ∈ sources) = _
    rw [source_recorded]
  rw [fromSources, diagnostics_reportAll, List.filter_append, List.filter_map, hfilter]
  rfl

/-- Reports from elsewhere are not seen. -/
theorem fromSources_reportAll_of_not_mem (log : Log) {ds : List Diagnostic} {sources : List String}
    (h : ∀ d ∈ ds, d.source ∉ sources) :
    (log.reportAll ds).fromSources sources = log.fromSources sources := by
  have hnone : (ds.filter fun d => decide (d.source ∈ sources)) = [] := by
    simpa using h
  rw [fromSources_reportAll, hnone, List.map_nil, List.append_nil]

theorem fromSource_reportAll (log : Log) (ds : List Diagnostic) (source : String) :
    (log.reportAll ds).fromSource source =
      log.fromSource source ++
        (ds.filter fun d => decide (d.source = source)).map log.recorded := by
  simpa [fromSource_eq] using log.fromSources_reportAll ds [source]

/-- A report is seen under its own source. -/
theorem fromSource_report (log : Log) {d : Diagnostic} {source : String} (h : d.source = source) :
    (log.report d).fromSource source = log.fromSource source ++ [log.recorded d] := by
  have hrecorded : (log.recorded d).source = source := (log.source_recorded d).trans h
  rw [fromSource, diagnostics_report, List.filter_append]
  simp only [List.filter_cons, hrecorded, decide_true, if_true, List.filter_nil]
  rfl

end Log

/-! ## What is left alone

Between two calls of the search for cycles the other analyses are called. `Session.Kept` is what the
search needs of them, and it goes along with doing one thing after another. -/

/-- The graph is in the slots of the context, so listeners do not matter to it. -/
theorem ImportCycles.graphIn_of_slots {context context' : RunContext}
    (h : context'.slots = context.slots) : graphIn context' = graphIn context := by
  unfold graphIn Context.get?
  rw [h]

/-- What the search for cycles works on is as it was. -/
structure Session.Kept (s s' : Session) : Prop where
  graph : ImportCycles.graphIn s'.context = ImportCycles.graphIn s.context
  reported :
    s'.log.fromSource ImportCycles.analysisName = s.log.fromSource ImportCycles.analysisName
  warningsAsErrors : s'.log.warningsAsErrors = s.log.warningsAsErrors
  files : s'.files = s.files

namespace Session.Kept

theorem refl (s : Session) : s.Kept s := ⟨rfl, rfl, rfl, rfl⟩

theorem trans {s s' s'' : Session} (h : s.Kept s') (h' : s'.Kept s'') : s.Kept s'' where
  graph := h'.graph.trans h.graph
  reported := h'.reported.trans h.reported
  warningsAsErrors := h'.warningsAsErrors.trans h.warningsAsErrors
  files := h'.files.trans h.files

/-- Who reports under another name leaves the search alone. -/
theorem reportAll (s : Session) {ds : List Diagnostic}
    (h : ∀ d ∈ ds, d.source ≠ ImportCycles.analysisName) :
    s.Kept { s with log := s.log.reportAll ds } where
  graph := rfl
  reported := by
    rw [Log.fromSource_eq, Log.fromSource_eq, Log.fromSources_reportAll_of_not_mem]
    simpa using h
  warningsAsErrors := Log.warningsAsErrors_reportAll _ _
  files := rfl

theorem context (s : Session) {context : RunContext} (h : context.slots = s.context.slots) :
    s.Kept { s with context } where
  graph := ImportCycles.graphIn_of_slots h
  reported := rfl
  warningsAsErrors := rfl
  files := rfl

end Session.Kept

/-! ## Strict dependencies

The check collects while units are looked at, and speaks its verdict when it concludes. -/

namespace StrictDeps

/-- The check after it has looked at some units. -/
def after (table : SymbolTable) (mode : CheckMode) (direct : List String)
    (units : List CompilationUnit) : StrictDeps where
  mode := mode
  direct := direct
  uses := if mode = .off then [] else (undeclaredUses table direct units).eraseDups

theorem source_undeclaredImport (p : StrictDeps) (unit : String) (i : Import) :
    (p.undeclaredImport unit i).source = analysisName := by
  unfold undeclaredImport
  dsimp only
  split <;> rfl

/-- Where the check is on, it notes every undeclared import of the unit and reports it. -/
theorem afterAttribution_of_ne_off {p : StrictDeps} (h : p.mode ≠ .off) (env : Env) (s : Session) :
    p.afterAttribution env s =
      (.ok (),
        (env.resolved.filter p.isUndeclared).foldl
          (fun p r => p.addUse ⟨r.imported.package, env.path⟩) p,
        { s with
          log := s.log.reportAll
            ((env.resolved.filter p.isUndeclared).map fun r =>
              p.undeclaredImport env.path r.imported) }) := by
  unfold afterAttribution
  split
  · next hoff => exact absurd hoff h
  · rfl

/-- The uses of undeclared packages that the check finds in one unit. -/
def usesIn (direct : List String) (env : Env) : List UndeclaredUse :=
  (env.resolved.filter ({ direct } : StrictDeps).isUndeclared).map fun r =>
    ⟨r.imported.package, env.path⟩

/-- Looking at one more unit notes its uses behind the others. -/
theorem afterAttribution_of_noted {p : StrictDeps} {noted : List UndeclaredUse}
    (hmode : p.mode ≠ .off) (hnoted : p.uses = noted.eraseDups) (env : Env) (s : Session) :
    p.afterAttribution env s =
      (.ok (), { p with uses := (noted ++ usesIn p.direct env).eraseDups },
        { s with
          log := s.log.reportAll
            ((env.resolved.filter p.isUndeclared).map fun r =>
              p.undeclaredImport env.path r.imported) }) := by
  -- What is undeclared does not depend on the uses noted so far.
  have huses : usesIn p.direct env = (env.resolved.filter p.isUndeclared).map fun r =>
      ⟨r.imported.package, env.path⟩ := rfl
  rw [afterAttribution_of_ne_off hmode, ← foldl_addUse hnoted, huses, List.foldl_map]

/-- From unit to unit the check stays the one that has looked at all units so far. -/
theorem afterAttribution_after (table : SymbolTable) (mode : CheckMode) (direct : List String)
    (units : List CompilationUnit) (u : CompilationUnit) (s : Session) :
    ∃ s', (after table mode direct units).afterAttribution
        { tree := u, resolved := u.resolutions table } s =
        (.ok (), after table mode direct (units ++ [u]), s') ∧ s.Kept s' := by
  by_cases hmode : mode = .off
  · subst hmode
    exact ⟨s, rfl, Session.Kept.refl s⟩
  · have huses : ∀ units, (after table mode direct units).uses =
        (undeclaredUses table direct units).eraseDups := fun _ => if_neg hmode
    have hafter : after table mode direct (units ++ [u]) =
        { after table mode direct units with
          uses := (undeclaredUses table direct units ++
            usesIn direct { tree := u, resolved := u.resolutions table }).eraseDups } := by
      unfold after
      rw [if_neg hmode, undeclaredUses, List.flatMap_append, List.flatMap_singleton]
      rfl
    rw [afterAttribution_of_noted hmode (huses units), hafter]
    refine ⟨_, rfl, Session.Kept.reportAll s ?_⟩
    intro d hd
    obtain ⟨r, -, rfl⟩ := List.mem_map.mp hd
    rw [source_undeclaredImport]
    decide

/-- The message when a run is aborted for the sake of some packages. -/
def missingMessage (packages : List String) : String :=
  "missing direct dependencies: " ++ ", ".intercalate packages

/-- How a check concludes if some packages are missing. -/
def verdict (mode : CheckMode) (missing : List String) : Except Failure Unit :=
  if mode = .strict ∧ missing ≠ [] then .error (.escalate .error (missingMessage missing))
  else .ok ()

/-- The check concludes with a note on each missing package, and fails at this point only. -/
theorem finish_eq (p : StrictDeps) (s : Session) :
    p.finish s = (verdict p.mode p.missing, p,
      { s with log := s.log.reportAll (p.missing.map p.missingNote) }) := by
  unfold finish verdict
  dsimp only
  split
  · next first rest hmode hmissing =>
    rw [hmode, hmissing, if_pos ⟨rfl, List.cons_ne_nil _ _⟩]
    rfl
  · next hother =>
    have hpass : ¬ (p.mode = .strict ∧ p.missing ≠ []) := by
      rintro ⟨hmode, hmissing⟩
      obtain ⟨first, rest, hlist⟩ := List.exists_cons_of_ne_nil hmissing
      exact hother first rest hmode hlist
    rw [if_neg hpass]

/-- A strict check that misses a package fails with the list of all that it misses. -/
theorem finish_of_missing {p : StrictDeps} (hmode : p.mode = .strict) (hmissing : p.missing ≠ [])
    (s : Session) :
    ∃ p' s', p.finish s = (.error (.escalate .error (missingMessage p.missing)), p', s') := by
  rw [finish_eq, verdict, if_pos ⟨hmode, hmissing⟩]
  exact ⟨_, _, rfl⟩

/-- In any other case it passes, and leaves the search for cycles alone. -/
theorem finish_passes {p : StrictDeps} (h : ¬ (p.mode = .strict ∧ p.missing ≠ [])) (s : Session) :
    ∃ s', p.finish s = (.ok (), p, s') ∧ s.Kept s' := by
  rw [finish_eq, verdict, if_neg h]
  refine ⟨_, rfl, Session.Kept.reportAll s ?_⟩
  intro d hd
  obtain ⟨package, -, rfl⟩ := List.mem_map.mp hd
  show analysisName ≠ _
  decide

end StrictDeps

/-! ## Naming conventions -/

/-- The conventions never fail, whatever they report. -/
theorem Naming.afterAttribution_passes (p : Naming) (env : Env) (s : Session) :
    ∃ s', p.afterAttribution env s = (.ok (), p, s') ∧ s.Kept s' := by
  unfold afterAttribution
  split
  · refine ⟨_, rfl, Session.Kept.reportAll s ?_⟩
    intro d hd
    have hsource : d.source = analysisName := by
      rcases List.mem_append.mp hd with hpackage | htype
      · split at hpackage
        · cases hpackage
        · cases List.mem_singleton.mp hpackage
          rfl
      · obtain ⟨type, -, rfl⟩ := List.mem_map.mp htype
        rfl
    rw [hsource]
    decide
  · exact ⟨s, rfl, Session.Kept.refl s⟩

/-! ## Import cycles

The state of the search is what it has found over the units so far, `after`. A unit is either
passed, and then the state goes on to be what has been found with it, or it closes a fatal cycle. -/

namespace ImportCycles

/-- What a search in some mode has found over some units. Switched off, it finds nothing. -/
def surveyIn (mode : CycleMode) (table : SymbolTable) (units : List CompilationUnit) : Survey :=
  if mode = .off then {} else survey table units

/-- The search after it has looked at some units. -/
def after (table : SymbolTable) (mode : CycleMode) (units : List CompilationUnit) :
    ImportCycles where
  mode := mode
  cycles := (surveyIn mode table units).cycles

/-- A session holds the graph that has been found, and its log the warnings. -/
structure Shows (found : Survey) (s : Session) : Prop where
  graph : graphIn s.context = found.graph
  reported : s.log.fromSource analysisName =
    found.findings.map fun f => s.log.recorded (cycleWarning f.1.path f.2)

/-- What leaves the search alone leaves it in sight. -/
theorem Shows.of_kept {found : Survey} {s s' : Session} (h : Shows found s) (hkept : s.Kept s') :
    Shows found s' where
  graph := hkept.graph.trans h.graph
  reported := by
    rw [hkept.reported, h.reported, Log.recorded_congr hkept.warningsAsErrors]

theorem graphIn_put (context : RunContext) (g : PackageGraph) :
    graphIn (context.put .packageGraph g).2 = g := by
  have hget := Slots.get?_put_self context.slots .packageGraph g
  exact congrArg (fun v => v.getD PackageGraph.empty) hget

/-- Notes pass where cycles are not fatal, or there are none. -/
theorem noteCycles_passes {p : ImportCycles} {found : List (List String)}
    (h : p.mode = .fatal → found = []) (unit : String) (log : Log) :
    noteCycles unit p log found =
      (.ok (), { p with cycles := p.cycles ++ fresh p.cycles found },
        log.reportAll ((fresh p.cycles found).map (cycleWarning unit))) := by
  by_cases hmode : p.mode = .fatal
  · rw [h hmode, fresh_nil, List.append_nil]
    rfl
  · exact noteCycles_of_ne_fatal hmode unit log found

/-- A session with a new graph and some more reports. -/
def store (s : Session) (g : PackageGraph) (reports : List Diagnostic) : Session :=
  { s with context := (s.context.put .packageGraph g).2, log := s.log.reportAll reports }

/-- As long as no fatal cycle is closed, a unit adds its edges and its new cycles are reported. -/
theorem afterFlow_passes {p : ImportCycles} (env : Env) {s : Session} {g : PackageGraph}
    {found : List (List String)} (hmode : p.mode ≠ .off)
    (hadded : addEdges env.package (graphIn s.context) (targets env.package env.resolved) =
      (g, found)) (hfatal : p.mode = .fatal → found = []) :
    p.afterFlow env s =
      (.ok (), { p with cycles := p.cycles ++ fresh p.cycles found },
        store s g ((fresh p.cycles found).map (cycleWarning env.path))) := by
  unfold afterFlow
  split
  · next hoff => exact absurd hoff hmode
  · rw [hadded]
    dsimp only
    rw [noteCycles_passes hfatal]
    rfl

/-- The first cycle that is closed where cycles are fatal makes the call fail. -/
theorem afterFlow_fails {p : ImportCycles} (env : Env) {s : Session} {g : PackageGraph}
    {cycle : List String} {found : List (List String)} (hmode : p.mode = .fatal)
    (hnone : p.cycles = [])
    (hadded : addEdges env.package (graphIn s.context) (targets env.package env.resolved) =
      (g, cycle :: found)) :
    ∃ p' s', p.afterFlow env s =
      (.error (.escalate .error "illegal import cycle"), p', s') := by
  unfold afterFlow
  split
  · next hoff => rw [hmode] at hoff; cases hoff
  · rw [hadded]
    dsimp only
    rw [noteCycles_of_fatal hmode hnone]
    exact ⟨_, _, rfl⟩

/-- The tree of a unit with what is known about it after its flow. -/
def flowEnv (table : SymbolTable) (u : CompilationUnit) : Env :=
  { tree := u, resolved := u.resolutions table, flow? := some u.flowFacts }

variable {table : SymbolTable} {units : List CompilationUnit} {u : CompilationUnit} {s : Session}

/-- All that the search reports is found in the log under its name. -/
theorem reported_store {found : Survey} (hshows : Shows found s) (u : CompilationUnit)
    (cycles : List (List String)) (g : PackageGraph) :
    (store s g (cycles.map (cycleWarning u.path))).log.fromSource analysisName =
      (found.findings ++ cycles.map (u, ·)).map fun f =>
        (store s g (cycles.map (cycleWarning u.path))).log.recorded
          (cycleWarning f.1.path f.2) := by
  have hrecorded :
      (store s g (cycles.map (cycleWarning u.path))).log.recorded = s.log.recorded :=
    Log.recorded_congr (Log.warningsAsErrors_reportAll _ _)
  rw [hrecorded, List.map_append, ← hshows.reported]
  show (s.log.reportAll _).fromSource _ = _
  rw [Log.fromSource_reportAll, List.filter_eq_self.mpr, List.map_map, List.map_map]
  · rfl
  · intro d hd
    obtain ⟨cycle, -, rfl⟩ := List.mem_map.mp hd
    rfl

/-- The search goes on, unless cycles are fatal and the unit closes one. -/
theorem afterFlow_after {mode : CycleMode} (hshows : Shows (surveyIn mode table units) s)
    (hfatal : mode = .fatal → (survey table (units ++ [u])).findings = []) :
    ∃ s', (after table mode units).afterFlow (flowEnv table u) s =
        (.ok (), after table mode (units ++ [u]), s') ∧
      Shows (surveyIn mode table (units ++ [u])) s' ∧
      s'.log.warningsAsErrors = s.log.warningsAsErrors ∧ s'.files = s.files := by
  by_cases hmode : mode = .off
  · subst hmode
    exact ⟨s, rfl, hshows, rfl, rfl⟩
  · have hsurvey : ∀ units, surveyIn mode table units = survey table units :=
      fun _ => if_neg hmode
    have hnotes : (after table mode units).mode = .fatal →
        (addEdges u.package (survey table units).graph (unitTargets table u)).2 = [] :=
      fun h => ((findings_survey_concat_eq_nil_iff u).mp (hfatal h)).2
    have hcycles : (after table mode units).cycles = (survey table units).cycles :=
      congrArg Survey.cycles (hsurvey units)
    rw [hsurvey] at hshows
    -- The graph in the context is that of the units so far, so the call adds the edges of the next.
    have hadded : addEdges u.package (graphIn s.context) (unitTargets table u) =
        ((survey table (units ++ [u])).graph,
          (addEdges u.package (survey table units).graph (unitTargets table u)).2) := by
      rw [hshows.graph, survey_concat]
      rfl
    have hpass := afterFlow_passes (flowEnv table u) hmode hadded hnotes
    rw [hcycles] at hpass
    have hafter : after table mode (units ++ [u]) =
        { after table mode units with
          cycles := (survey table units).cycles ++ (survey table units).new table u } := by
      unfold after
      rw [hsurvey, cycles_survey_concat]
    rw [hafter, hsurvey]
    refine ⟨store s (survey table (units ++ [u])).graph
      (((survey table units).new table u).map (cycleWarning u.path)), hpass, ⟨?_, ?_⟩, ?_, rfl⟩
    · exact graphIn_put _ _
    · rw [survey_concat]
      exact reported_store hshows _ _ _
    · exact Log.warningsAsErrors_reportAll _ _

/-- Where cycles are fatal, the first unit that closes one ends the run. -/
theorem afterFlow_closes (hshows : Shows (survey table units) s)
    (hnone : (survey table units).findings = [])
    (hfound : (survey table (units ++ [u])).findings ≠ []) :
    ∃ p' s', (after table .fatal units).afterFlow (flowEnv table u) s =
      (.error (.escalate .error "illegal import cycle"), p', s') := by
  cases hadded : addEdges u.package (graphIn s.context) (unitTargets table u) with
  | mk g found =>
    cases found with
    | nil =>
      -- Had nothing been closed, nothing would have been found.
      rw [hshows.graph] at hadded
      refine absurd ((findings_survey_concat_eq_nil_iff u).mpr ⟨hnone, ?_⟩) hfound
      rw [hadded]
    | cons cycle found =>
      have hcycles : (after table .fatal units).cycles = [] := by
        show (survey table units).findings.map _ = []
        rw [hnone]
        rfl
      exact afterFlow_fails (flowEnv table u) rfl hcycles hadded

/-- What the search says at the end. -/
def summaryNote (cycles edges : Nat) : Diagnostic where
  severity := .note
  source := "import-cycles"
  message := s!"{cycles} import cycle(s) across {edges} package edge(s)"

/-- The search concludes with its note and never fails. -/
theorem finish_passes (p : ImportCycles) (s : Session) :
    ∃ s', p.finish s = (.ok (), p, s') ∧ s'.context = s.context ∧ s'.files = s.files ∧
      s'.log.warningsAsErrors = s.log.warningsAsErrors ∧
      (p.mode ≠ .off →
        s'.log = s.log.report (summaryNote p.cycles.length (graphIn s.context).edgeCount)) := by
  unfold finish
  split
  · next hoff => exact ⟨s, rfl, rfl, rfl, rfl, fun h => absurd hoff h⟩
  · exact ⟨_, rfl, rfl, rfl, rfl, fun _ => rfl⟩

end ImportCycles

/-! ## Tracing callbacks

The trace never fails before it concludes, and then only if its file cannot be written. -/

namespace PhaseTrace

/-- A trace keeps to its directory. -/
theorem directory?_capture (p : PhaseTrace) (callback : String) (env? : Option Env) (s : Session) :
    (p.capture callback env? s).directory? = p.directory? := by
  unfold capture
  split
  · rfl
  · rfl

theorem prepareContext_passes (p : PhaseTrace) (context : RunContext) :
    ∃ p' context', p.prepareContext context = (.ok (), p', context') ∧
      p'.directory? = p.directory? ∧ context'.slots = context.slots := by
  unfold prepareContext
  split
  · exact ⟨p, context, rfl, rfl, rfl⟩
  · exact ⟨_, _, rfl, rfl, rfl⟩

/-- A trace cannot be written to a directory: making it fails, or writing the file. -/
def Unwritable (files : Files) (directory : String) : Prop :=
  ∀ text, ∃ e, (writeTrace files directory text).1 = .error e

end PhaseTrace

/-- Whether a file can be written does not depend on the text. -/
theorem Files.write_error {files : Files} {path text : String} {e : FileError}
    (h : files.write path text = .error e) (text' : String) :
    files.write path text' = .error e := by
  unfold write at h ⊢
  cases hpath : checkPath path with
  | error e' => rw [hpath] at h; exact h
  | ok checked =>
    rw [hpath] at h
    simp only [bind, Except.bind] at h ⊢
    cases hlast : checked.components.getLast? with
    | none => rw [hlast] at h; exact h
    | some name =>
      rw [hlast] at h
      dsimp only at h ⊢
      cases hwalk : files.walk checked.absolute checked.components.dropLast with
      | error e' => rw [hwalk] at h; exact h
      | ok location =>
        rw [hwalk] at h
        dsimp only at h ⊢
        split
        · next hslash => rw [if_pos hslash] at h; exact h
        · next hslash =>
          rw [if_neg hslash] at h
          split
          · next hlong => rw [if_pos hlong] at h; exact h
          · next hlong =>
            rw [if_neg hlong] at h
            split at h
            · exact h
            · cases h

namespace PhaseTrace

/-- Nor does what is left of the files if the trace cannot be written. -/
theorem writeTrace_error {files files' : Files} {directory text : String} {e : FileError}
    (h : writeTrace files directory text = (.error e, files')) (text' : String) :
    writeTrace files directory text' = (.error e, files') := by
  unfold writeTrace at h ⊢
  cases hmade : files.createDirectories directory with
  | mk verdict made =>
    rw [hmade] at h
    cases verdict with
    | error e' => exact h
    | ok _ =>
      dsimp only at h ⊢
      cases hwrite : made.write (Files.inDirectory directory traceFile) text with
      | error e' =>
        rw [hwrite] at h
        rw [Files.write_error hwrite text']
        exact h
      | ok written => rw [hwrite] at h; cases h

/-- Whether the file can be written does not depend on the text, so trying one text is enough. -/
theorem unwritable_iff {files : Files} {directory : String} (text : String) :
    Unwritable files directory ↔ ∃ e, (writeTrace files directory text).1 = .error e := by
  constructor
  · intro h
    exact h text
  · rintro ⟨e, h⟩ text'
    exact ⟨e, congrArg (·.1) (writeTrace_error (Prod.ext h rfl) text')⟩

/-- What the trace writes when it concludes. -/
def lastTrace (p : PhaseTrace) (s : Session) : Trace := (p.capture "finish" none s).trace s

section Finish

variable {p : PhaseTrace} {directory : String} {s : Session} {files : Files}

theorem finish_of_none (hdirectory : p.directory? = none) (s : Session) :
    p.finish s = (.ok (), p, s) := by
  unfold finish
  rw [hdirectory]

/-- A trace that has been written leaves only its file behind. -/
theorem finish_of_written (hdirectory : p.directory? = some directory)
    (h : writeTrace s.files directory (p.lastTrace s).toJson.render = (.ok (), files)) :
    p.finish s = (.ok (), p.capture "finish" none s, { s with files }) := by
  unfold lastTrace at h
  unfold finish
  rw [hdirectory]
  dsimp only
  rw [h]

/-- A trace that cannot be written fails the run, whatever it holds. -/
theorem finish_of_write_error (hdirectory : p.directory? = some directory) {e : FileError}
    (h : writeTrace s.files directory (p.lastTrace s).toJson.render = (.error e, files)) :
    p.finish s =
      (.error (.escalate .sysErr
        s!"cannot write trace to '{Files.inDirectory directory traceFile}': {e.message}"),
        p.capture "finish" none s, { s with files }) := by
  unfold lastTrace at h
  unfold finish
  rw [hdirectory]
  dsimp only
  rw [h]

/-- A trace that cannot be written makes its conclusion fail as an error of the system. -/
theorem finish_of_unwritable (hdirectory : p.directory? = some directory)
    (h : Unwritable s.files directory) :
    ∃ message p' s', p.finish s = (.error (.escalate .sysErr message), p', s') := by
  obtain ⟨e, he⟩ := h (p.lastTrace s).toJson.render
  exact ⟨_, _, _, finish_of_write_error hdirectory (Prod.ext he rfl)⟩

end Finish

/-- Otherwise the trace concludes, and neither the context nor the log is changed. -/
theorem finish_passes {p : PhaseTrace} {s : Session}
    (h : ∀ directory, p.directory? = some directory → ¬ Unwritable s.files directory) :
    ∃ p' s', p.finish s = (.ok (), p', s') ∧ s'.context = s.context ∧ s'.log = s.log := by
  unfold finish
  cases hdirectory : p.directory? with
  | none => exact ⟨p, s, rfl, rfl, rfl⟩
  | some directory =>
    dsimp only
    have hwritable := h directory hdirectory
    rw [unwritable_iff ((p.capture "finish" none s).trace s).toJson.render] at hwritable
    cases hwritten : (writeTrace s.files directory
        ((p.capture "finish" none s).trace s).toJson.render).1 with
    | error e => exact absurd ⟨e, hwritten⟩ hwritable
    | ok _ => exact ⟨_, _, rfl, rfl, rfl⟩

end PhaseTrace

end AnalysisHost
