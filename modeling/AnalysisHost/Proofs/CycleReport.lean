import AnalysisHost.Proofs.CompileOutcome

/-!
# What is reported of import cycles

Where import cycles are warnings, a completed compilation has a graph with the imports of the whole
manifest, a warning for each cycle that was new when a unit closed it, and a note that counts both:
`Bundled.reportsCycles_of_completed`.
-/

namespace AnalysisHost

/-- A finding is closed by a unit of the manifest. -/
theorem Manifest.Valid.closes_of_mem_survey {m : Manifest} (hvalid : m.Valid)
    {finding : CompilationUnit × List String}
    (h : finding ∈ (ImportCycles.survey m.table m.lower).findings) :
    ∃ (k : Nat) (u : UnitEntry), m.units[k]? = some u ∧ u.path = finding.1.path ∧
      Cycle.Closes (m.ImportsFrom (m.units.take k)) (m.ImportsFrom (m.units.take (k + 1)))
        u.package finding.2 := by
  obtain ⟨k, hk, hcloses⟩ := ImportCycles.closes_of_mem_survey h
  rw [Manifest.lower, List.getElem?_map] at hk
  obtain ⟨u, hu, hlower⟩ := Option.map_eq_some_iff.mp hk
  refine ⟨k, u, hu, congrArg CompilationUnit.path hlower, ?_⟩
  rw [Manifest.lower, ← List.map_take, ← List.map_take, ← hlower] at hcloses
  refine hcloses.mono ?_ ?_
  · intro a b
    exact (hvalid.adj_survey_iff (List.take_subset _ _)).mpr
  · intro a b
    exact (hvalid.adj_survey_iff (List.take_subset _ _)).mp

namespace Bundled

/-- What a compilation reports of the import cycles of a manifest: a list of findings, each a cycle
and the path of the unit that closed it. -/
structure ReportsCycles (m : Manifest) (findings : List (String × List String))
    (run : Run Bundled) : Prop where
  /-- The graph has the imports between packages. -/
  edges : ∀ a b, (ImportCycles.graphIn run.context).Adj a b ↔ m.ImportsFrom m.units a b
  /-- There is a warning for each finding, and a note with the numbers of findings and edges. -/
  diagnostics : (run.report.diagnostics.filter fun d => decide (d.source = "import-cycles")) =
    findings.map (fun f => ImportCycles.cycleWarning f.1 f.2) ++
      [ImportCycles.summaryNote findings.length (ImportCycles.graphIn run.context).edgeCount]
  cycles : ∀ f ∈ findings, (ImportCycles.graphIn run.context).IsCycle f.2
  /-- The unit of a finding closes its cycle, which begins with its smallest package. -/
  closed : ∀ f ∈ findings, ∃ (k : Nat) (u : UnitEntry), m.units[k]? = some u ∧ u.path = f.1 ∧
    Cycle.Closes (m.ImportsFrom (m.units.take k)) (m.ImportsFrom (m.units.take (k + 1)))
      u.package f.2
  distinct : findings.Pairwise fun f f' => ¬ Cycle.IsRotation f.2 f'.2
  complete : findings ≠ [] ↔ ∃ cycle, (ImportCycles.graphIn run.context).IsCycle cycle

/-- What a compilation that goes through says of cycles is what the search has found over its units,
where cycles are warnings and warnings stay warnings. -/
theorem reported_of_completed {m : Manifest} {flags : List String} {files : Files} {s : Settings}
    (hplugins : (claimFlags all flags).plugins = s.plugins) (hwarn : s.cycles = .warn)
    {status : ExitStatus}
    (hcompleted : (Report.compile m flags false files).report.outcome = .completed status) :
    let run := Report.compile m flags false files
    let found := ImportCycles.survey m.table m.lower
    ImportCycles.graphIn run.context = found.graph ∧
      (run.report.diagnostics.filter fun d => decide (d.source = "import-cycles")) =
        found.findings.map (fun f => ImportCycles.cycleWarning f.1.path f.2) ++
          [ImportCycles.summaryNote found.findings.length found.graph.edgeCount] := by
  intro run found
  have hflags : (claimFlags all flags).verdict = .ok () := by
    by_contra hverdict
    obtain ⟨e, he⟩ := (rejected_compile_iff m flags false files).mpr hverdict
    rw [hcompleted] at he
    cases he
  -- Of the four endings, the other three abort the run.
  cases compile_ending (m := m) hflags hplugins false files with
  | cyclic k hfatal _ _ _ _ =>
    rw [hwarn] at hfatal
    cases hfatal
  | missing _ _ _ houtcome =>
    rw [hcompleted] at houtcome
    cases houtcome
  | unwritable _ _ _ _ houtcome =>
    rw [hcompleted] at houtcome
    cases houtcome
  | completed done _ _ _ hconcluded heq =>
    have hne : s.cycles ≠ .off := by
      rw [hwarn]
      decide
    have hfound : Situation.found ⟨s, m.table, false, files⟩ m.lower = found := if_neg hne
    have hreported := hconcluded.reported hne
    have hgraph := hconcluded.graph
    rw [hfound] at hreported hgraph
    -- Warnings are kept as warnings, so what is in the log is what was reported.
    have hrecorded : ∀ d, done.session.log.recorded d = d := by
      intro d
      unfold Log.recorded
      rw [hconcluded.warningsAsErrors]
      rfl
    have hrun : run = _ := heq
    rw [hrun]
    refine ⟨hgraph, ?_⟩
    show done.session.log.fromSource ImportCycles.analysisName = _
    rw [hreported]
    simp only [hrecorded]

/-- **The report on import cycles** of a compilation that goes through, where they are warnings and
warnings stay warnings. -/
theorem reportsCycles_of_completed {m : Manifest} (hvalid : m.Valid) {flags : List String}
    {files : Files} {s : Settings} (hplugins : (claimFlags all flags).plugins = s.plugins)
    (hwarn : s.cycles = .warn) {status : ExitStatus}
    (hcompleted : (Report.compile m flags false files).report.outcome = .completed status) :
    ∃ findings, ReportsCycles m findings (Report.compile m flags false files) := by
  obtain ⟨hgraph, hreported⟩ := reported_of_completed hplugins hwarn hcompleted
  refine ⟨(ImportCycles.survey m.table m.lower).findings.map fun f => (f.1.path, f.2),
    ?_, ?_, ?_, ?_, ?_, ?_⟩
  · intro a b
    rw [hgraph]
    apply hvalid.adj_survey_iff
    exact List.Subset.refl _
  · rw [hreported, hgraph, List.map_map, List.length_map]
    rfl
  · intro f hf
    obtain ⟨finding, hfinding, rfl⟩ := List.mem_map.mp hf
    rw [hgraph, PackageGraph.isCycle_iff]
    exact ImportCycles.isElementary_of_mem_survey hfinding
  · intro f hf
    obtain ⟨finding, hfinding, rfl⟩ := List.mem_map.mp hf
    exact hvalid.closes_of_mem_survey hfinding
  · rw [List.pairwise_map]
    exact List.pairwise_map.mp ImportCycles.pairwise_survey
  · rw [hgraph, Ne, List.map_eq_nil_iff, ImportCycles.findings_eq_nil_iff,
      ← PackageGraph.exists_isElementary_iff]
    simp only [PackageGraph.isCycle_iff]

/-- A compilation of two packages that import from each other, where cycles are warnings. -/
theorem completed_mutualImports :
    (Report.compile mutualImports ["--import-cycles=warn"] false {}).report.outcome =
      .completed .ok := by
  decide +kernel

/-- The flag sets the search to warnings and nothing else. -/
theorem plugins_warn :
    (claimFlags all ["--import-cycles=warn"]).plugins =
      (Settings.mk .off [] .warn false none).plugins := by
  decide +kernel

/-- Two units that import each other are one cycle, which is reported once. -/
theorem reportsCycles_of_mutual_imports :
    ∃ findings, ReportsCycles mutualImports findings
      (Report.compile mutualImports ["--import-cycles=warn"] false {}) :=
  reportsCycles_of_completed valid_mutualImports plugins_warn rfl completed_mutualImports

end Bundled

end AnalysisHost
