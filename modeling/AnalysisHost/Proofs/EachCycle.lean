import AnalysisHost.Proofs.CycleReport
import AnalysisHost.Proofs.EdgeByEdge

/-!
# When every cycle is reported

One warning per distinct cycle is more than a search for one way back per edge can give: an import
may close two cycles at once, and then only one of them is found. This is the only way to lose one.
Where import cycles are warnings, each elementary cycle of the final graph has exactly one warning
that names it exactly if no import of the manifest makes two of them appear:
`Bundled.reportsEachCycle_iff`.

A warning shows a cycle as a line of text. Packages have no blanks in them, so the line tells which
cycle it is (`Cycle.render_injective`).
-/

namespace AnalysisHost

/-! ## Lines that show a cycle -/

namespace Text

/-- A text is cut at its first separator in one way only. -/
theorem append_cons_injective {sep : Char} {a b x y : List Char}
    (h : a ++ sep :: x = b ++ sep :: y) (ha : sep ∉ a) (hb : sep ∉ b) : a = b ∧ x = y := by
  rcases List.append_eq_append_iff.mp h with ⟨rest, hrest, hx⟩ | ⟨rest, hrest, hy⟩
  · cases rest with
    | nil =>
      cases hx
      exact ⟨(hrest.trans (List.append_nil a)).symm, rfl⟩
    | cons c rest =>
      cases hx
      exact absurd (by rw [hrest]; simp) hb
  · cases rest with
    | nil =>
      cases hy
      exact ⟨hrest.trans (List.append_nil b), rfl⟩
    | cons c rest =>
      cases hy
      exact absurd (by rw [hrest]; simp) ha

end Text

namespace Cycle

/-- Nothing in a list has a blank in it. -/
def Plain (packages : List String) : Prop := ∀ package ∈ packages, ' ' ∉ package.toList

instance (packages : List String) : Decidable (Plain packages) :=
  inferInstanceAs (Decidable (∀ package ∈ packages, ' ' ∉ package.toList))

theorem toList_arrow (package : String) (packages : List String) (next : String) :
    (" -> ".intercalate (package :: next :: packages)).toList =
      package.toList ++
        ' ' :: ("-> ".toList ++ (" -> ".intercalate (next :: packages)).toList) := by
  rw [String.intercalate_cons_cons, String.toList_append, String.toList_append, List.append_assoc]
  rfl

theorem intercalate_injective {c d : List String} (hc : Plain c) (hd : Plain d) (hcne : c ≠ [])
    (hdne : d ≠ []) (h : " -> ".intercalate c = " -> ".intercalate d) : c = d := by
  induction c generalizing d with
  | nil => exact absurd rfl hcne
  | cons a as ih =>
    obtain ⟨b, bs, rfl⟩ := List.exists_cons_of_ne_nil hdne
    obtain ⟨ha, has⟩ := List.forall_mem_cons.mp hc
    obtain ⟨hb, hbs⟩ := List.forall_mem_cons.mp hd
    -- A list goes on exactly if there is a blank behind its first member.
    cases as with
    | nil =>
      cases bs with
      | nil =>
        rw [String.intercalate_singleton, String.intercalate_singleton] at h
        rw [h]
      | cons b' bs =>
        rw [String.intercalate_singleton] at h
        refine absurd ?_ ha
        rw [h, toList_arrow]
        simp
    | cons a' as =>
      cases bs with
      | nil =>
        rw [String.intercalate_singleton] at h
        refine absurd ?_ hb
        rw [← h, toList_arrow]
        simp
      | cons b' bs =>
        have hlist := congrArg String.toList h
        rw [toList_arrow, toList_arrow] at hlist
        obtain ⟨hfirst, hrest⟩ := Text.append_cons_injective hlist ha hb
        have hnext := String.toList_inj.mp (List.append_cancel_left hrest)
        rw [String.toList_inj.mp hfirst,
          ih has hbs (List.cons_ne_nil _ _) (List.cons_ne_nil _ _) hnext]

/-- **A line tells which cycle it shows.** -/
theorem render_injective {c d : List String} (hc : Plain c) (hd : Plain d) (hcne : c ≠ [])
    (hdne : d ≠ []) (h : render c = render d) : c = d := by
  obtain ⟨a, as, rfl⟩ := List.exists_cons_of_ne_nil hcne
  obtain ⟨b, bs, rfl⟩ := List.exists_cons_of_ne_nil hdne
  have hplain : ∀ {p : String} {ps : List String}, Plain (p :: ps) →
      Plain (p :: ps ++ [p]) := by
    intro p ps hps package hmem
    rcases List.mem_append.mp hmem with hmem | hmem
    · exact hps package hmem
    · cases List.mem_singleton.mp hmem
      exact hps p List.mem_cons_self
  have hclosed : a :: as ++ [a] = b :: bs ++ [b] :=
    intercalate_injective (hplain hc) (hplain hd) (by simp) (by simp) h
  exact List.append_inj_left' hclosed rfl

end Cycle

/-- The text of a warning tells which cycle it is about. -/
theorem ImportCycles.cycleText_injective {c d : List String} (hc : Cycle.Plain c)
    (hd : Cycle.Plain d) (hcne : c ≠ []) (hdne : d ≠ [])
    (h : cycleText c = cycleText d) : c = d := by
  apply Cycle.render_injective hc hd hcne hdne
  exact (String.append_right_inj "import cycle: ").mp h

/-! ## The imports of a manifest, one by one -/

namespace Manifest

/-- The imports of a manifest in order, each with the package in which it stands. -/
def imports (m : Manifest) : List (String × String) :=
  m.units.flatMap fun u => u.imports.map (u.package, ·)

/-- A package imports from another one by one of some imports. -/
def ImportsBy (m : Manifest) (imports : List (String × String)) (a b : String) : Prop :=
  a ≠ b ∧ ∃ v ∈ m.units, v.package = b ∧ ∃ type ∈ v.types, (a, qualify b type) ∈ imports

/-- No import closes two cycles at once: any two that appear with it are the same, begun somewhere
else. -/
def ClosesOneByOne (m : Manifest) : Prop :=
  ∀ front i back, m.imports = front ++ i :: back → ∀ c d,
    Cycle.Appears (m.ImportsBy front) (m.ImportsBy (front ++ [i])) c →
      Cycle.Appears (m.ImportsBy front) (m.ImportsBy (front ++ [i])) d → Cycle.IsRotation c d

theorem importsBy_imports {m : Manifest} {a b : String} :
    m.ImportsBy m.imports a b ↔ m.ImportsFrom m.units a b := by
  unfold ImportsBy ImportsFrom imports
  simp only [List.mem_flatMap, List.mem_map, Prod.mk.injEq]
  grind

/-- The edge that an import adds, if a unit of another package declares what it names. -/
def edge? (table : SymbolTable) (i : String × String) : Option (String × String) :=
  match table.resolve (Import.ofText i.2) with
  | .source _ =>
    if (Import.ofText i.2).package ≠ i.1 then some (i.1, (Import.ofText i.2).package) else none
  | _ => none

theorem edge?_eq_some_iff {table : SymbolTable} {i : String × String} {a b : String} :
    edge? table i = some (a, b) ↔
      i.1 = a ∧ a ≠ b ∧ (∃ unit, table.resolve (Import.ofText i.2) = .source unit) ∧
        (Import.ofText i.2).package = b := by
  unfold edge?
  cases table.resolve (Import.ofText i.2) with
  | source unit =>
    simp only [Option.ite_none_right_eq_some, Option.some.injEq, Prod.mk.injEq]
    grind
  | classpath => simp
  | unresolved => simp

theorem map_unitTargets_lower (table : SymbolTable) (u : UnitEntry) :
    (ImportCycles.unitTargets table u.lower).map (u.package, ·) =
      (u.imports.map (u.package, ·)).filterMap (edge? table) := by
  have htexts : ∀ texts : List String,
      (ImportCycles.targets u.package (texts.map fun text =>
        ⟨Import.ofText text, table.resolve (Import.ofText text)⟩)).map (u.package, ·) =
      (texts.map (u.package, ·)).filterMap (edge? table) := by
    intro texts
    induction texts with
    | nil => rfl
    | cons text texts ih =>
      rw [List.map_cons, List.map_cons, List.filterMap_cons, ← ih]
      unfold ImportCycles.targets edge?
      cases horigin : table.resolve (Import.ofText text) with
      | source unit =>
        by_cases hpackage : (Import.ofText text).package = u.package
        · simp [hpackage]
        · simp [hpackage]
      | classpath => simp
      | unresolved => simp
  rw [← htexts, ImportCycles.unitTargets, CompilationUnit.resolutions]
  show (ImportCycles.targets u.package ((u.imports.map Import.ofText).map _)).map _ = _
  rw [List.map_map]
  rfl

/-- The edges of a manifest are those of its imports, one by one. -/
theorem edges_lower (m : Manifest) :
    ImportCycles.edges m.table m.lower = m.imports.filterMap (edge? m.table) := by
  rw [ImportCycles.edges, lower, List.flatMap_map, imports, List.filterMap_flatMap]
  exact congrArg (m.units.flatMap ·) (funext fun u => map_unitTargets_lower m.table u)

theorem Valid.importFault?_of_mem_imports {m : Manifest} (hvalid : m.Valid) {i : String × String}
    (hi : i ∈ m.imports) : importFault? i.2.toList = none := by
  obtain ⟨u, hu, hi⟩ := List.mem_flatMap.mp hi
  obtain ⟨text, htext, rfl⟩ := List.mem_map.mp hi
  exact (hvalid.unit hu).imports text htext

/-- Along the edges of some imports, packages import from each other by these imports. -/
theorem Valid.among_filterMap {m : Manifest} (hvalid : m.Valid) {imports : List (String × String)}
    (hsub : imports ⊆ m.imports) :
    Among (imports.filterMap (edge? m.table)) = m.ImportsBy imports := by
  funext a b
  apply propext
  rw [Among, List.mem_filterMap, ImportsBy]
  constructor
  · rintro ⟨i, hi, hedge⟩
    obtain ⟨rfl, hne, hresolved⟩ := edge?_eq_some_iff.mp hedge
    obtain ⟨v, hv, hpackage, type, htype, heq⟩ :=
      (hvalid.resolve_import_iff (hvalid.importFault?_of_mem_imports (hsub hi))).mp hresolved
    refine ⟨hne, v, hv, hpackage, type, htype, ?_⟩
    rw [heq]
    exact hi
  · rintro ⟨hne, v, hv, hpackage, type, htype, hi⟩
    refine ⟨_, hi, edge?_eq_some_iff.mpr ⟨rfl, hne, ?_⟩⟩
    exact (hvalid.resolve_import_iff (hvalid.importFault?_of_mem_imports (hsub hi))).mpr
      ⟨v, hv, hpackage, type, htype, rfl⟩

theorem subset_of_split {m : Manifest} {front back : List (String × String)} {i : String × String}
    (h : m.imports = front ++ i :: back) : front ⊆ m.imports ∧ front ++ [i] ⊆ m.imports := by
  have hwith := List.subset_append_left (front ++ [i]) back
  rw [← List.append_cons, ← h] at hwith
  exact ⟨List.Subset.trans (List.subset_append_left front [i]) hwith, hwith⟩

/-- Imports that add no edge make no cycle appear, so it is enough to look at the edges. -/
theorem Valid.closesOneByOne_iff {m : Manifest} (hvalid : m.Valid) :
    m.ClosesOneByOne ↔
      ∀ front e back, ImportCycles.edges m.table m.lower = front ++ e :: back → ∀ c d,
        Cycle.Appears (Among front) (Among (front ++ [e])) c →
          Cycle.Appears (Among front) (Among (front ++ [e])) d → Cycle.IsRotation c d := by
  rw [edges_lower]
  constructor
  · intro h front e back hedges c d
    obtain ⟨before, rest, himports, hbefore, hrest⟩ := List.filterMap_eq_append_iff.mp hedges
    obtain ⟨skipped, i, behind, rfl, hskipped, hedge, -⟩ := List.filterMap_eq_cons_iff.mp hrest
    have hnone : skipped.filterMap (edge? m.table) = [] :=
      List.filterMap_eq_nil_iff.mpr hskipped
    have hfront : (before ++ skipped).filterMap (edge? m.table) = front := by
      rw [List.filterMap_append, hbefore, hnone, List.append_nil]
    have hwith : (before ++ skipped ++ [i]).filterMap (edge? m.table) = front ++ [e] := by
      rw [List.filterMap_append, hfront, List.filterMap_cons_some hedge]
      rfl
    rw [← List.append_assoc] at himports
    obtain ⟨hsub, hsub'⟩ := subset_of_split himports
    rw [← hwith, ← hfront, hvalid.among_filterMap hsub, hvalid.among_filterMap hsub']
    exact h (before ++ skipped) i behind himports c d
  · intro h front i back himports c d
    obtain ⟨hsub, hsub'⟩ := subset_of_split himports
    rw [← hvalid.among_filterMap hsub, ← hvalid.among_filterMap hsub', List.filterMap_append]
    cases hedge : edge? m.table i with
    | none =>
      rw [List.filterMap_cons_none hedge, List.filterMap_nil, List.append_nil]
      intro hc
      exact absurd hc.1 hc.2
    | some e =>
      rw [List.filterMap_cons_some hedge, List.filterMap_nil]
      refine h _ e (back.filterMap (edge? m.table)) ?_ c d
      rw [himports, List.filterMap_append, List.filterMap_cons_some hedge]

/-- In a valid manifest, no package on a cycle has a blank in it. -/
theorem Valid.plain_of_isElementary {m : Manifest} (hvalid : m.Valid) {cycle : List String}
    (h : Cycle.IsElementary (m.ImportsFrom m.units) cycle) : Cycle.Plain cycle := by
  intro package hpackage
  obtain ⟨next, -, u, hu, rfl, -⟩ := h.exists_next hpackage
  exact blank_not_mem_of_qualifiedFault? (hvalid.unit hu).package

end Manifest

namespace Bundled

/-! ## Warnings -/

/-- A diagnostic is a warning that names a cycle, begun anywhere. -/
def Names (cycle : List String) (d : Diagnostic) : Prop :=
  d.severity = .warning ∧ d.source = "import-cycles" ∧
    ∃ c, Cycle.IsRotation c cycle ∧ d.message = ImportCycles.cycleText c

/-- Exactly one diagnostic names a cycle. -/
def NamedOnce (cycle : List String) (ds : List Diagnostic) : Prop :=
  (∃ d ∈ ds, Names cycle d) ∧ ds.Pairwise fun d d' => ¬ (Names cycle d ∧ Names cycle d')

/-- Each elementary cycle of the graph that a compilation leaves is named by exactly one warning. -/
def ReportsEachCycle (run : Run Bundled) : Prop :=
  ∀ cycle, (ImportCycles.graphIn run.context).IsCycle cycle →
    NamedOnce cycle run.report.diagnostics

/-- A warning about a cycle names this cycle and no other. -/
theorem names_cycleWarning_iff {unit : String} {c cycle : List String} (hc : Cycle.Plain c)
    (hcne : c ≠ []) (hcycle : Cycle.Plain cycle) (hne : cycle ≠ []) :
    Names cycle (ImportCycles.cycleWarning unit c) ↔ Cycle.IsRotation c cycle := by
  constructor
  · rintro ⟨-, -, d, hrotation, hmessage⟩
    have hrotated := Cycle.isRotation_iff.mp hrotation
    have hd : Cycle.Plain d := fun package hpackage =>
      hcycle package (hrotated.mem_iff.mp hpackage)
    have hdne : d ≠ [] := by
      rintro rfl
      exact hne (List.isRotated_nil_iff'.mp hrotated).symm
    rw [ImportCycles.cycleText_injective hc hd hcne hdne hmessage]
    exact hrotation
  · intro hrotation
    exact ⟨rfl, rfl, c, hrotation, rfl⟩

/-- Of some findings that are no rotations of each other, exactly one is named, if any is. -/
theorem namedOnce_iff {cycle : List String} {findings : List (CompilationUnit × List String)}
    {ds : List Diagnostic} {cycles edges : Nat}
    (hds : (ds.filter fun d => decide (d.source = "import-cycles")) =
      findings.map (fun f => ImportCycles.cycleWarning f.1.path f.2) ++
        [ImportCycles.summaryNote cycles edges])
    (hfindings : ∀ f ∈ findings, Cycle.Plain f.2 ∧ f.2 ≠ [])
    (hdistinct : findings.Pairwise fun f f' => ¬ Cycle.IsRotation f.2 f'.2)
    (hcycle : Cycle.Plain cycle) (hne : cycle ≠ []) :
    NamedOnce cycle ds ↔ ∃ f ∈ findings, Cycle.IsRotation f.2 cycle := by
  have hnames : ∀ f ∈ findings, Names cycle (ImportCycles.cycleWarning f.1.path f.2) ↔
      Cycle.IsRotation f.2 cycle := fun f hf =>
    names_cycleWarning_iff (hfindings f hf).1 (hfindings f hf).2 hcycle hne
  have hnote : ¬ Names cycle (ImportCycles.summaryNote cycles edges) := by
    rintro ⟨hseverity, -⟩
    cases hseverity
  constructor
  · rintro ⟨⟨d, hd, hnamed⟩, -⟩
    have hmem : d ∈ ds.filter fun d => decide (d.source = "import-cycles") :=
      List.mem_filter.mpr ⟨hd, decide_eq_true hnamed.2.1⟩
    rw [hds] at hmem
    rcases List.mem_append.mp hmem with hmem | hmem
    · obtain ⟨f, hf, rfl⟩ := List.mem_map.mp hmem
      exact ⟨f, hf, (hnames f hf).mp hnamed⟩
    · cases List.mem_singleton.mp hmem
      exact absurd hnamed hnote
  · rintro ⟨f, hf, hrotation⟩
    constructor
    · refine ⟨_, ?_, (hnames f hf).mpr hrotation⟩
      have hmem : ImportCycles.cycleWarning f.1.path f.2 ∈
          ds.filter fun d => decide (d.source = "import-cycles") := by
        rw [hds]
        exact List.mem_append_left _ (List.mem_map_of_mem hf)
      exact (List.mem_filter.mp hmem).1
    · -- Only what the search reports can name a cycle, and it reports none twice.
      have hreported : (ds.filter fun d => decide (d.source = "import-cycles")).Pairwise
          fun d d' => ¬ (Names cycle d ∧ Names cycle d') := by
        rw [hds, List.pairwise_append]
        refine ⟨?_, List.pairwise_singleton _ _, ?_⟩
        · rw [List.pairwise_map]
          refine hdistinct.imp_of_mem fun {g g'} hg hg' hapart hboth => hapart ?_
          have hfirst := Cycle.isRotation_iff.mp ((hnames g hg).mp hboth.1)
          have hsecond := Cycle.isRotation_iff.mp ((hnames g' hg').mp hboth.2)
          exact Cycle.isRotation_iff.mpr (hfirst.trans hsecond.symm)
        · rintro d - d' hd' ⟨-, hnamed⟩
          cases List.mem_singleton.mp hd'
          exact hnote hnamed
      refine (List.pairwise_filter.mp hreported).imp fun {d d'} happly hboth => ?_
      exact happly (decide_eq_true hboth.1.2.1) (decide_eq_true hboth.2.2.1) hboth

/-- **When every cycle is reported**: no import closes two cycles at once. -/
theorem reportsEachCycle_iff {m : Manifest} (hvalid : m.Valid) {flags : List String}
    {files : Files} {s : Settings} (hplugins : (claimFlags all flags).plugins = s.plugins)
    (hwarn : s.cycles = .warn) {status : ExitStatus}
    (hcompleted : (Report.compile m flags false files).report.outcome = .completed status) :
    ReportsEachCycle (Report.compile m flags false files) ↔ m.ClosesOneByOne := by
  let found := ImportCycles.survey m.table m.lower
  obtain ⟨hgraph, hreported⟩ := reported_of_completed hplugins hwarn hcompleted
  have hadj : found.graph.Adj = Among (ImportCycles.edges m.table m.lower) := by
    funext a b
    rw [ImportCycles.graph_survey, PackageGraph.adj_addAll_empty]
  have himports : found.graph.Adj = m.ImportsFrom m.units := by
    rw [hadj, Manifest.edges_lower, hvalid.among_filterMap (List.Subset.refl _)]
    funext a b
    exact propext Manifest.importsBy_imports
  have hplain : ∀ cycle, Cycle.IsElementary found.graph.Adj cycle → Cycle.Plain cycle := by
    rw [himports]
    exact fun cycle => hvalid.plain_of_isElementary
  have hfindings : ∀ f ∈ found.findings, Cycle.Plain f.2 ∧ f.2 ≠ [] := by
    intro f hf
    have hcycle := ImportCycles.isElementary_of_mem_survey hf
    exact ⟨hplain f.2 hcycle, hcycle.ne_nil⟩
  rw [hvalid.closesOneByOne_iff, ← ImportCycles.finds_each_iff, ← hadj]
  refine forall_congr' fun cycle => ?_
  rw [hgraph, PackageGraph.isCycle_iff]
  refine imp_congr_right fun hcycle => ?_
  rw [namedOnce_iff hreported hfindings (List.pairwise_map.mp ImportCycles.pairwise_survey)
    (hplain cycle hcycle) hcycle.ne_nil]
  simp only [← ImportCycles.mem_cycles_survey_iff, ImportCycles.Survey.cycles, List.mem_map]
  grind

/-- Of two packages that import from each other, the second import closes the only cycle. -/
theorem reportsEachCycle_iff_of_mutual_imports :
    ReportsEachCycle (Report.compile mutualImports ["--import-cycles=warn"] false {}) ↔
      mutualImports.ClosesOneByOne :=
  reportsEachCycle_iff valid_mutualImports plugins_warn rfl completed_mutualImports

/-- The last import closes two cycles, one of `a` and `b` and one of `a`, `c` and `b`. The second of
them is not reported. -/
theorem cycle_over_third_package_not_reported :
    let m : Manifest :=
      { units :=
          [{ path := "A.java", package := "a", imports := ["b.B", "c.C"], types := ["A"] },
            { path := "C.java", package := "c", imports := ["b.B"], types := ["C"] },
            { path := "B.java", package := "b", imports := ["a.A"], types := ["B"] }] }
    m.Valid ∧
      (claimFlags all []).plugins = (Settings.mk .off [] .warn false none).plugins ∧
      (Report.compile m [] false {}).report.outcome = .completed .ok ∧
      ¬ ReportsEachCycle (Report.compile m [] false {}) := by
  intro m
  refine ⟨?_, by decide +kernel, by decide +kernel, ?_⟩
  · show Manifest.check _ = _
    decide +kernel
  · intro h
    have hcycle : (ImportCycles.graphIn (Report.compile m [] false {}).context).IsCycle
        ["a", "c", "b"] := by
      refine ⟨by decide, "a", "b", rfl, rfl, ?_, by decide +kernel⟩
      exact .cons (by decide +kernel) (.cons (by decide +kernel) (.single "b"))
    have hdiagnostics : (Report.compile m [] false {}).report.diagnostics =
        [ImportCycles.cycleWarning "B.java" ["a", "b"], ImportCycles.summaryNote 1 4] := by
      decide +kernel
    obtain ⟨⟨d, hd, hseverity, -, c, hrotation, hmessage⟩, -⟩ := h _ hcycle
    have hrotated := Cycle.isRotation_iff.mp hrotation
    have hplain : Cycle.Plain ["a", "c", "b"] := by decide
    have hc : Cycle.Plain c := fun package hpackage =>
      hplain package (hrotated.mem_iff.mp hpackage)
    have hlength : c.length = 3 := hrotated.perm.length_eq
    rw [hdiagnostics] at hd
    rcases List.mem_cons.mp hd with rfl | hd
    · -- The warning shows two packages, and the cycle has three.
      have hcne : c ≠ [] := List.ne_nil_of_length_pos (by omega)
      have heq : ["a", "b"] = c := ImportCycles.cycleText_injective
        (by decide) hc (List.cons_ne_nil _ _) hcne hmessage
      rw [← heq] at hlength
      cases hlength
    · cases List.mem_singleton.mp hd
      cases hseverity

end Bundled

end AnalysisHost
