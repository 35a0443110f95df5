import AnalysisHost.Proofs.BundledRun

/-!
# How a compilation ends

A compilation with the bundled analyses ends in one of four ways, and which one it is can be read
off the manifest, the flags and the files: `Bundled.compile_outcome`. The first unit that closes a
fatal cycle comes before undeclared packages, which come before a trace that cannot be written,
because that is the order in which the callbacks are made.
-/

namespace AnalysisHost

namespace Manifest

/-- The imports of some units make a cycle of packages. -/
def HasCycle (m : Manifest) (importers : List UnitEntry) : Prop :=
  ∃ a, Relation.TransGen (m.ImportsFrom importers) a a

/-- More units have the same cycles and perhaps others. -/
theorem HasCycle.mono {m : Manifest} {some all : List UnitEntry} (h : m.HasCycle some)
    (hsub : some ⊆ all) : m.HasCycle all := by
  obtain ⟨a, ha⟩ := h
  have hle : m.ImportsFrom some ≤ m.ImportsFrom all := by
    rintro b c ⟨hne, u, hu, hrest⟩
    exact ⟨hne, u, hsub hu, hrest⟩
  exact ⟨a, Relation.TransGen.mono hle a a ha⟩

/-- The search finds something exactly if the imports make a cycle. -/
theorem Valid.findings_eq_nil_iff {m : Manifest} (hvalid : m.Valid) {importers : List UnitEntry}
    (hsub : importers ⊆ m.units) :
    (ImportCycles.survey m.table (importers.map UnitEntry.lower)).findings = [] ↔
      ¬ m.HasCycle importers := by
  have hadj : (ImportCycles.survey m.table (importers.map UnitEntry.lower)).graph.Adj =
      m.ImportsFrom importers := by
    funext a b
    exact propext (hvalid.adj_survey_iff hsub)
  rw [ImportCycles.findings_eq_nil_iff, hadj]
  unfold Cycle.Acyclic HasCycle
  push Not
  exact Iff.rfl

end Manifest

namespace Bundled

/-! ## What ends a compilation early -/

/-- The imports make a cycle, and cycles are fatal. -/
def ClosesFatalCycle (m : Manifest) (s : Settings) : Prop :=
  s.cycles = .fatal ∧ m.HasCycle m.units

/-- There are undeclared packages, and the check is strict. -/
def LacksDependencies (m : Manifest) (s : Settings) : Prop :=
  s.check = .strict ∧ m.undeclared s.direct ≠ []

/-- The trace goes to a directory that it cannot be written to. -/
def CannotTrace (s : Settings) (files : Files) : Prop :=
  ∃ directory, s.directory? = some directory ∧ PhaseTrace.Unwritable files directory

/-- A report says how the compilation of a manifest must end, given what the flags and the files
are. -/
structure EndsInOrder (m : Manifest) (s : Settings) (files : Files) (report : RunReport) :
    Prop where
  /-- The units before the first that closes a cycle have been compiled. -/
  cycle : ClosesFatalCycle m s →
    report.outcome = .aborted ⟨.error, "illegal import cycle"⟩ ∧
      m.HasCycle (m.units.take (report.unitsCompiled + 1)) ∧
      ∀ k < report.unitsCompiled, ¬ m.HasCycle (m.units.take (k + 1))
  /-- What is listed as undeclared is used by a unit and is not declared. -/
  undeclared : ∀ package, package ∈ m.undeclared s.direct ↔ m.IsUndeclared s.direct package
  dependencies : ¬ ClosesFatalCycle m s → LacksDependencies m s →
    report.outcome = .aborted
      ⟨.error, "missing direct dependencies: " ++ ", ".intercalate (m.undeclared s.direct)⟩
  trace : ¬ ClosesFatalCycle m s → ¬ LacksDependencies m s → CannotTrace s files →
    ∃ message, report.outcome = .aborted ⟨.sysErr, message⟩
  completed : ¬ ClosesFatalCycle m s → ¬ LacksDependencies m s → ¬ CannotTrace s files →
    ∃ status, report.outcome = .completed status
  not_crashed : ∀ message, report.outcome ≠ .crashed message

/-- What a strict check is missing is what the manifest leaves undeclared. -/
theorem missing_eq {m : Manifest} {s : Settings} (hstrict : s.check = .strict)
    (warningsAsErrors : Bool) (files : Files) :
    Situation.missing ⟨s, m.table, warningsAsErrors, files⟩ m.lower = m.undeclared s.direct := by
  apply Manifest.missing_eq_undeclared
  show (if s.check = .off then [] else _) = _
  rw [hstrict]
  rfl

/-- The run and the manifest agree on undeclared packages. -/
theorem lacksDependencies_iff {m : Manifest} {s : Settings} {warningsAsErrors : Bool}
    {files : Files} :
    (s.check = .strict ∧ Situation.missing ⟨s, m.table, warningsAsErrors, files⟩ m.lower ≠ []) ↔
      LacksDependencies m s := by
  constructor
  · rintro ⟨hstrict, hmissing⟩
    rw [missing_eq hstrict] at hmissing
    exact ⟨hstrict, hmissing⟩
  · rintro ⟨hstrict, hmissing⟩
    refine ⟨hstrict, ?_⟩
    rw [missing_eq hstrict]
    exact hmissing

/-- They agree on whether the trace can be written. -/
theorem cannotTrace_iff {s : Settings} {table : SymbolTable} {warningsAsErrors : Bool}
    {files : Files} :
    ¬ Situation.Writable ⟨s, table, warningsAsErrors, files⟩ ↔ CannotTrace s files := by
  unfold Situation.Writable CannotTrace
  push Not
  exact Iff.rfl

/-- **How a compilation ends**: with the first unit that closes a fatal cycle, or at its end with
the undeclared packages, or with a trace that cannot be written, or else it is completed. -/
theorem compile_outcome {m : Manifest} (hvalid : m.Valid) {flags : List String}
    (hflags : (claimFlags all flags).verdict = .ok ()) (warningsAsErrors : Bool) (files : Files) :
    ∃ s : Settings, (claimFlags all flags).plugins = s.plugins ∧
      EndsInOrder m s files (Report.compile m flags warningsAsErrors files).report := by
  obtain ⟨-, s, hplugins, -⟩ := accepted_claimFlags hflags
  refine ⟨s, hplugins, ?_⟩
  -- What the search finds over the first units says whether their imports make a cycle.
  have hfindings : ∀ k, (ImportCycles.survey m.table (m.lower.take k)).findings = [] ↔
      ¬ m.HasCycle (m.units.take k) := by
    intro k
    have hlower : m.lower.take k = (m.units.take k).map UnitEntry.lower := List.map_take.symm
    rw [hlower]
    apply hvalid.findings_eq_nil_iff
    exact List.take_subset _ _
  have hall : (ImportCycles.survey m.table m.lower).findings = [] ↔ ¬ m.HasCycle m.units :=
    hvalid.findings_eq_nil_iff (List.Subset.refl _)
  have hacyclic_iff : (s.cycles = .fatal → (ImportCycles.survey m.table m.lower).findings = []) ↔
      ¬ ClosesFatalCycle m s := by
    rw [hall]
    exact not_and.symm
  have hundeclared : ∀ package,
      package ∈ m.undeclared s.direct ↔ m.IsUndeclared s.direct package :=
    fun _ => hvalid.mem_undeclared_iff
  cases compile_ending (m := m) hflags hplugins warningsAsErrors files with
  | cyclic k hfatal hbefore hafter houtcome hcount =>
    rw [hfindings] at hbefore
    rw [Ne, hfindings, not_not] at hafter
    have hcycle : ClosesFatalCycle m s := ⟨hfatal, hafter.mono (List.take_subset _ _)⟩
    refine ⟨fun _ => ⟨houtcome, ?_, ?_⟩, hundeclared, fun h => absurd hcycle h,
      fun h => absurd hcycle h, fun h => absurd hcycle h, ?_⟩
    · rw [hcount]
      exact hafter
    · -- A cycle over fewer units would have been there before the last of them.
      intro j hj hcyclic
      rw [hcount] at hj
      apply hbefore
      exact hcyclic.mono (List.take_subset_take_left _ hj)
    · intro message h
      rw [houtcome] at h
      cases h
  | missing hacyclic hstrict hmissing houtcome =>
    have hcycle := hacyclic_iff.mp hacyclic
    have hlacks := lacksDependencies_iff.mp ⟨hstrict, hmissing⟩
    rw [missing_eq hstrict] at houtcome
    refine ⟨fun h => absurd h hcycle, hundeclared, fun _ _ => houtcome,
      fun _ h => absurd hlacks h, fun _ h => absurd hlacks h, ?_⟩
    intro message h
    rw [houtcome] at h
    cases h
  | unwritable message hacyclic hdeclared htrace houtcome =>
    have hcycle := hacyclic_iff.mp hacyclic
    have hlacks := mt lacksDependencies_iff.mpr hdeclared
    have hcannot := cannotTrace_iff.mp htrace
    refine ⟨fun h => absurd h hcycle, hundeclared, fun _ h => absurd h hlacks,
      fun _ _ _ => ⟨message, houtcome⟩, fun _ _ h => absurd hcannot h, ?_⟩
    intro message' h
    rw [houtcome] at h
    cases h
  | completed done hacyclic hdeclared htrace hconcluded heq =>
    have hcycle := hacyclic_iff.mp hacyclic
    have hlacks := mt lacksDependencies_iff.mpr hdeclared
    have hcan : ¬ CannotTrace s files := fun h => cannotTrace_iff.mpr h htrace
    rw [heq]
    refine ⟨fun h => absurd h hcycle, hundeclared, fun _ h => absurd h hlacks,
      fun _ _ h => absurd h hcan, fun _ _ _ => ⟨_, rfl⟩, ?_⟩
    intro message h
    cases h

/-- Two packages that import from each other. -/
def mutualImports : Manifest where
  units :=
    [{ path := "A.java", package := "a", imports := ["b.B"], types := ["A"] },
      { path := "B.java", package := "b", imports := ["a.A"], types := ["B"] }]

theorem valid_mutualImports : mutualImports.Valid := by
  show Manifest.check _ = _
  decide +kernel

/-- Where cycles are fatal, the second unit ends the run. -/
theorem compile_outcome_of_mutual_imports :
    ∃ s : Settings,
      (claimFlags all ["--import-cycles=fatal"]).plugins = s.plugins ∧
        EndsInOrder mutualImports s {}
          (Report.compile mutualImports ["--import-cycles=fatal"] false {}).report := by
  apply compile_outcome valid_mutualImports
  decide +kernel

end Bundled

end AnalysisHost
