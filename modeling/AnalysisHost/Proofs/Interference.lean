import AnalysisHost.Proofs.CallEffects
import AnalysisHost.Proofs.LeftoverFlags
import AnalysisHost.Proofs.ReportAgreement

/-!
# Analyses do not interfere

Two runs over the same manifest, with different collections of analyses. Whoever watches some
sources only, the host's or an analysis's, cannot tell the two runs apart by their diagnostics if
the analyses behind these sources are the same: `Session.Agree` says that two sessions look the same
to such a watcher.

A call of any other analysis keeps a session as it looks (`Session.agree_make`), and calls of one
analysis in two sessions that look the same make them look the same again (`Bundled.Twins.make`).
`Bundled.Woven` lines up the calls of two collections accordingly, in any orders of registration.
-/

namespace AnalysisHost

/-! ## What a watcher sees -/

/-- Two sessions look the same to whoever watches some sources. The graph is seen through the search
for cycles. -/
structure Session.Agree (sources : List String) (s t : Session) : Prop where
  warningsAsErrors : s.log.warningsAsErrors = t.log.warningsAsErrors
  reported : s.log.fromSources sources = t.log.fromSources sources
  graph : ImportCycles.analysisName ∈ sources →
    ImportCycles.graphIn s.context = ImportCycles.graphIn t.context

namespace Session

variable {sources : List String} {s t u : Session}

theorem Agree.symm (h : Agree sources s t) : Agree sources t s where
  warningsAsErrors := h.warningsAsErrors.symm
  reported := h.reported.symm
  graph hmem := (h.graph hmem).symm

theorem Agree.trans (h : Agree sources s t) (h' : Agree sources t u) : Agree sources s u where
  warningsAsErrors := h.warningsAsErrors.trans h'.warningsAsErrors
  reported := h.reported.trans h'.reported
  graph hmem := (h.graph hmem).trans (h'.graph hmem)

/-- Two sessions that look the same do so after the same reports. -/
theorem Agree.reportAll (h : Agree sources s t) (ds : List Diagnostic)
    {context context' : RunContext}
    (hgraph : ImportCycles.analysisName ∈ sources →
      ImportCycles.graphIn context = ImportCycles.graphIn context') :
    Agree sources { s with context, log := s.log.reportAll ds }
      { t with context := context', log := t.log.reportAll ds } where
  warningsAsErrors := by
    rw [Log.warningsAsErrors_reportAll, Log.warningsAsErrors_reportAll]
    exact h.warningsAsErrors
  reported := by
    rw [Log.fromSources_reportAll, Log.fromSources_reportAll, h.reported,
      Log.recorded_congr h.warningsAsErrors]
  graph := hgraph

/-- An analysis that is not watched leaves a session as it looks. -/
theorem agree_make {p : Bundled} (hp : Plugin.name p ∉ sources) (c : Call) (s : Session) :
    Agree sources s (c.make p s).2.2 := by
  obtain ⟨ds, hlog, hsource⟩ := p.exists_reports c s
  refine ⟨?_, ?_, ?_⟩
  · rw [hlog, Log.warningsAsErrors_reportAll]
  · rw [hlog, Log.fromSources_reportAll_of_not_mem]
    intro d hd
    rw [hsource d hd]
    exact hp
  · intro hmem
    rcases p.graphIn_make c s with hgraph | ⟨hname, -⟩
    · exact hgraph.symm
    · rw [hname] at hp
      exact absurd hmem hp

end Session

/-- In a sweep that goes through, every plugin is called with what the one before it left. -/
theorem Call.sweep_cons_of_passed {π : Type} [Plugin π] {c : Call} {p : π} {ps : List π}
    {s : Session} (h : (sweep c.makeLayered (p :: ps) s).verdict = .ok ()) :
    (sweep c.makeLayered ps (c.make p s).2.2).verdict = .ok () ∧
      (sweep c.makeLayered (p :: ps) s).plugins =
        (c.make p s).2.1 :: (sweep c.makeLayered ps (c.make p s).2.2).plugins ∧
      (sweep c.makeLayered (p :: ps) s).lent =
        (sweep c.makeLayered ps (c.make p s).2.2).lent := by
  obtain ⟨p', s', hmake, hrest, hplugins, hlent⟩ := sweep_cons_eq_ok h
  have hplugin : (c.make p s).2.1 = p' := congrArg (·.2.1) hmake
  have hsession : (c.make p s).2.2 = s' := congrArg (·.2.2) hmake
  rw [hplugin, hsession]
  exact ⟨hrest, hplugins, hlent⟩

/-! ## The same analysis in two runs -/

namespace Bundled

variable {sources : List String}

/-- An analysis and itself in another run. Traces remember what others have reported, so they may
differ. -/
inductive Twins : Bundled → Bundled → Prop
  | same (p : Bundled) : p.isTrace = false → Twins p p
  | traces (t t' : PhaseTrace) : Twins (.phaseTrace t) (.phaseTrace t')

theorem Twins.refl (p : Bundled) : Twins p p := by
  obtain hp | ⟨t, rfl⟩ := p.isTrace_eq_false_or
  · exact .same p hp
  · exact .traces t t

/-- The calls of an analysis make two sessions look the same again. -/
theorem Twins.make {p q : Bundled} (h : Twins p q) (hp : Plugin.name p ∈ sources) (c : Call)
    {s t : Session} (hagree : Session.Agree sources s t) :
    Twins (c.make p s).2.1 (c.make q t).2.1 ∧
      Session.Agree sources (c.make p s).2.2 (c.make q t).2.2 := by
  cases h with
  | same _ hkind =>
    obtain ⟨e, he⟩ := exists_acts hkind c (ImportCycles.graphIn s.context)
    have hsees : p.Sees t (ImportCycles.graphIn s.context) := by
      intro hname
      rw [hname] at hp
      exact (hagree.graph hp).symm
    rw [he.make_eq s (p.sees_self s), he.make_eq t hsees]
    refine ⟨.same e.analysis he.isTrace, hagree.reportAll e.reports ?_⟩
    intro hmem
    rw [e.graphIn_share, e.graphIn_share, hagree.graph hmem]
  | traces t₁ t₂ =>
    obtain ⟨v₁, t₁', context₁, files₁, hmake₁, hslots₁, -⟩ := exists_make_phaseTrace t₁ c s
    obtain ⟨v₂, t₂', context₂, files₂, hmake₂, hslots₂, -⟩ := exists_make_phaseTrace t₂ c t
    rw [hmake₁, hmake₂]
    refine ⟨.traces t₁' t₂', hagree.warningsAsErrors, hagree.reported, ?_⟩
    intro hmem
    show ImportCycles.graphIn context₁ = ImportCycles.graphIn context₂
    rw [ImportCycles.graphIn_of_slots hslots₁, ImportCycles.graphIn_of_slots hslots₂]
    exact hagree.graph hmem

/-- Two collections of analyses of which those that are watched are the same, in the same order. -/
inductive Woven (sources : List String) : List Bundled → List Bundled → Prop
  | nil : Woven sources [] []
  | left {p : Bundled} {ps qs : List Bundled} :
      Plugin.name p ∉ sources → Woven sources ps qs → Woven sources (p :: ps) qs
  | right {q : Bundled} {ps qs : List Bundled} :
      Plugin.name q ∉ sources → Woven sources ps qs → Woven sources ps (q :: qs)
  | both {p q : Bundled} {ps qs : List Bundled} :
      Twins p q → Plugin.name p ∈ sources → Woven sources ps qs → Woven sources (p :: ps) (q :: qs)

namespace Woven

variable {ps qs : List Bundled}

/-- Wherever the others stand. -/
theorem append_left (h : Woven sources ps qs) {front : List Bundled}
    (hfront : ∀ p ∈ front, Plugin.name p ∉ sources) : Woven sources (front ++ ps) qs := by
  induction front with
  | nil => exact h
  | cons p front ih =>
    obtain ⟨hp, hrest⟩ := List.forall_mem_cons.mp hfront
    exact .left hp (ih hrest)

theorem append_right (h : Woven sources ps qs) {front : List Bundled}
    (hfront : ∀ q ∈ front, Plugin.name q ∉ sources) : Woven sources ps (front ++ qs) := by
  induction front with
  | nil => exact h
  | cons q front ih =>
    obtain ⟨hq, hrest⟩ := List.forall_mem_cons.mp hfront
    exact .right hq (ih hrest)

theorem of_not_mem (hps : ∀ p ∈ ps, Plugin.name p ∉ sources)
    (hqs : ∀ q ∈ qs, Plugin.name q ∉ sources) : Woven sources ps qs := by
  have h := (Woven.nil.append_left hps).append_right hqs
  rw [List.append_nil, List.append_nil] at h
  exact h

/-- Two sweeps that go through make two sessions look the same again. -/
theorem sweep (h : Woven sources ps qs) {c : Call} {s t : Session}
    (hagree : Session.Agree sources s t)
    (hps : (AnalysisHost.sweep c.makeLayered ps s).verdict = .ok ())
    (hqs : (AnalysisHost.sweep c.makeLayered qs t).verdict = .ok ()) :
    Woven sources (AnalysisHost.sweep c.makeLayered ps s).plugins
        (AnalysisHost.sweep c.makeLayered qs t).plugins ∧
      Session.Agree sources (AnalysisHost.sweep c.makeLayered ps s).lent
        (AnalysisHost.sweep c.makeLayered qs t).lent := by
  induction h generalizing s t with
  | nil => exact ⟨.nil, hagree⟩
  | @left p ps qs hp _ ih =>
    obtain ⟨hrest, hplugins, hlent⟩ := Call.sweep_cons_of_passed hps
    have hnext := (Session.agree_make hp c s).symm.trans hagree
    obtain ⟨hwoven, hagree'⟩ := ih hnext hrest hqs
    rw [← p.name_make c s] at hp
    rw [hplugins, hlent]
    exact ⟨.left hp hwoven, hagree'⟩
  | @right q ps qs hq _ ih =>
    obtain ⟨hrest, hplugins, hlent⟩ := Call.sweep_cons_of_passed hqs
    have hnext := hagree.trans (Session.agree_make hq c t)
    obtain ⟨hwoven, hagree'⟩ := ih hnext hps hrest
    rw [← q.name_make c t] at hq
    rw [hplugins, hlent]
    exact ⟨.right hq hwoven, hagree'⟩
  | @both p q ps qs htwins hp _ ih =>
    obtain ⟨hrest₁, hplugins₁, hlent₁⟩ := Call.sweep_cons_of_passed hps
    obtain ⟨hrest₂, hplugins₂, hlent₂⟩ := Call.sweep_cons_of_passed hqs
    obtain ⟨htwins', hnext⟩ := htwins.make hp c hagree
    obtain ⟨hwoven, hagree'⟩ := ih hnext hrest₁ hrest₂
    rw [← p.name_make c s] at hp
    rw [hplugins₁, hplugins₂, hlent₁, hlent₂]
    exact ⟨.both htwins' hp hwoven, hagree'⟩

end Woven

end Bundled

/-! ## Two runs -/

/-- Two runs under way look the same to whoever watches some sources. -/
structure Progress.Agree (sources : List String) (run run' : Progress Bundled) : Prop where
  plugins : Bundled.Woven sources run.plugins run'.plugins
  session : Session.Agree sources run.session run'.session

namespace Progress

variable {sources : List String} {run run' done done' : Progress Bundled}

theorem Agree.perform (h : Agree sources run run') {task : Task}
    (hdone : run.perform task = (.ok (), done)) (hdone' : run'.perform task = (.ok (), done')) :
    Agree sources done done' := by
  cases task with
  | enter stage =>
    rw [eq_of_enter hdone, eq_of_enter hdone']
    exact ⟨h.plugins, h.session⟩
  | announce event =>
    cases hdone
    cases hdone'
    exact ⟨h.plugins, h.session.warningsAsErrors, h.session.reported, h.session.graph⟩
  | report findings =>
    cases hdone
    cases hdone'
    exact ⟨h.plugins, h.session.reportAll findings h.session.graph⟩
  | unitDone =>
    cases hdone
    cases hdone'
    exact ⟨h.plugins, h.session⟩
  | call c =>
    obtain ⟨hplugins, hsession⟩ :=
      h.plugins.sweep h.session (congrArg (·.1) hdone) (congrArg (·.1) hdone')
    have hnext : (run.call c).2 = done := congrArg (·.2) hdone
    have hnext' : (run'.call c).2 = done' := congrArg (·.2) hdone'
    rw [← hnext, ← hnext']
    exact ⟨hplugins, hsession⟩

theorem Agree.performAll (h : Agree sources run run') {tasks : List Task}
    (hdone : run.performAll tasks = (.ok (), done))
    (hdone' : run'.performAll tasks = (.ok (), done')) : Agree sources done done' := by
  induction tasks generalizing run run' with
  | nil =>
    cases hdone
    cases hdone'
    exact h
  | cons task tasks ih =>
    obtain ⟨next, hnext, hrest⟩ := performAll_cons_eq_ok hdone
    obtain ⟨next', hnext', hrest'⟩ := performAll_cons_eq_ok hdone'
    exact ih (h.perform hnext hnext') hrest hrest'

end Progress

namespace Compilation

variable {π : Type} [Plugin π]

/-- Plugins are registered if no two of them have one name, behind those that are there. -/
theorem registerAll_eq_ok {c c' : Compilation π} {ps : List π} (h : c.registerAll ps = .ok c')
    (hc : c.pluginNames.Nodup) :
    c' = { c with plugins := c.plugins ++ ps } ∧ c'.pluginNames.Nodup := by
  induction ps generalizing c with
  | nil =>
    cases h
    rw [List.append_nil]
    exact ⟨rfl, hc⟩
  | cons p ps ih =>
    rw [registerAll, register] at h
    by_cases hname : Plugin.name p ∈ c.pluginNames
    · simp [hname] at h
    · simp only [hname, if_false] at h
      have hnext : ({ c with plugins := c.plugins ++ [p] } : Compilation π).pluginNames.Nodup := by
        rw [pluginNames, List.map_append, List.map_singleton, List.nodup_append]
        refine ⟨hc, List.nodup_singleton _, ?_⟩
        rintro name hmem _ hlast rfl
        rw [List.mem_singleton.mp hlast] at hmem
        exact hname hmem
      obtain ⟨rfl, hnodup⟩ := ih h hnext
      refine ⟨?_, hnodup⟩
      rw [List.append_assoc]
      rfl

end Compilation

namespace Bundled

/-- Without flags, every analysis stays as it was built. -/
theorem claimFlags_nil (ps : List Bundled) : claimFlags ps [] = ⟨.ok (), ps, [], ps.length⟩ :=
  claimFlags_of_foreign fun _ _ _ _ => List.forall_mem_nil _

/-- In two collections without a name twice, an analysis that is in both is woven in. -/
theorem Woven.of_mem {ps qs : List Bundled} (hps : (ps.map Plugin.name).Nodup)
    (hqs : (qs.map Plugin.name).Nodup) {p : Bundled} (hp : p ∈ ps) (hq : p ∈ qs) :
    Woven [Plugin.name p] ps qs := by
  have hothers {ps : List Bundled} (hnodup : (ps.map Plugin.name).Nodup) (hp : p ∈ ps) :
      ∃ front back, ps = front ++ p :: back ∧
        (∀ q ∈ front, Plugin.name q ∉ [Plugin.name p]) ∧
        ∀ q ∈ back, Plugin.name q ∉ [Plugin.name p] := by
    obtain ⟨front, back, rfl⟩ := List.append_of_mem hp
    rw [List.map_append, List.map_cons, List.nodup_append, List.nodup_cons] at hnodup
    obtain ⟨-, ⟨hback, -⟩, hfront⟩ := hnodup
    refine ⟨front, back, rfl, ?_, ?_⟩
    · intro q hq hname
      exact hfront _ (List.mem_map_of_mem hq) _ List.mem_cons_self (List.mem_singleton.mp hname)
    · intro q hq hname
      apply hback
      rw [← List.mem_singleton.mp hname]
      exact List.mem_map_of_mem hq
  obtain ⟨front, back, rfl, hfront, hback⟩ := hothers hps hp
  obtain ⟨front', back', rfl, hfront', hback'⟩ := hothers hqs hq
  have hboth : Woven [Plugin.name p] (p :: back) (p :: back') :=
    .both (Twins.refl p) (List.mem_singleton_self _) (Woven.of_not_mem hback hback')
  exact (hboth.append_left hfront).append_right hfront'

end Bundled

/-! ## Reports -/

/-- What a report has from some sources. -/
def RunReport.fromSources (r : RunReport) (sources : List String) : List Diagnostic :=
  r.diagnostics.filter fun d => decide (d.source ∈ sources)

namespace Bundled

/-- What the host reports in its phases. -/
def hostSources : List String := Phase.all.map Phase.text

theorem name_not_mem_hostSources (p : Bundled) : Plugin.name p ∉ hostSources := by
  have hnames : ∀ name ∈ all.map Plugin.name, name ∉ hostSources := by decide
  cases p with
  | strictDeps p => exact hnames StrictDeps.analysisName (by decide)
  | importCycles p => exact hnames ImportCycles.analysisName (by decide)
  | naming p => exact hnames Naming.analysisName (by decide)
  | phaseTrace p => exact hnames PhaseTrace.analysisName (by decide)

/-- Two completed runs look the same to whoever watches sources that stand for the same. -/
theorem fromSources_run {m : Manifest} {ps qs : List Bundled} {sources : List String}
    (hwoven : Woven sources ps qs) (warningsAsErrors : Bool) {files files' : Files}
    {status status' : ExitStatus}
    (hps : ((compilationWith m ps warningsAsErrors).run [] files).report.outcome =
      .completed status)
    (hqs : ((compilationWith m qs warningsAsErrors).run [] files').report.outcome =
      .completed status') :
    ((compilationWith m ps warningsAsErrors).run [] files).report.fromSources sources =
      ((compilationWith m qs warningsAsErrors).run [] files').report.fromSources sources := by
  obtain ⟨done, hdone, hrun⟩ := Compilation.performAll_of_completed hps
  obtain ⟨done', hdone', hrun'⟩ := Compilation.performAll_of_completed hqs
  have hstart : Progress.Agree sources
      ((compilationWith m ps warningsAsErrors).start (claimFlags ps []) files)
      ((compilationWith m qs warningsAsErrors).start (claimFlags qs []) files') := by
    rw [claimFlags_nil, claimFlags_nil]
    exact ⟨hwoven, rfl, rfl, fun _ => rfl⟩
  have hagree := hstart.performAll hdone hdone'
  rw [hrun, hrun']
  exact hagree.session.reported

/-- **The analyses do not interfere.** In two completed runs without flags over the same manifest,
with any two collections of analyses in any order, the host reports the same, and so does each
analysis that takes part in both. -/
theorem run_noninterference {m : Manifest} {ps qs : List Bundled} {c d : Compilation Bundled}
    (hc : (Compilation.ofManifest m).registerAll ps = .ok c)
    (hd : (Compilation.ofManifest m).registerAll qs = .ok d) (warningsAsErrors : Bool)
    {files files' : Files} {status status' : ExitStatus}
    (hps : (Compilation.run { c with warningsAsErrors } [] files).report.outcome =
      .completed status)
    (hqs : (Compilation.run { d with warningsAsErrors } [] files').report.outcome =
      .completed status') :
    (Compilation.run { c with warningsAsErrors } [] files).report.fromSources hostSources =
        (Compilation.run { d with warningsAsErrors } [] files').report.fromSources hostSources ∧
      ∀ p ∈ ps, p ∈ qs →
        (Compilation.run { c with warningsAsErrors } [] files).report.fromSources
            [Plugin.name p] =
          (Compilation.run { d with warningsAsErrors } [] files').report.fromSources
            [Plugin.name p] := by
  obtain ⟨rfl, hnamesPs⟩ := Compilation.registerAll_eq_ok hc List.nodup_nil
  obtain ⟨rfl, hnamesQs⟩ := Compilation.registerAll_eq_ok hd List.nodup_nil
  constructor
  · apply fromSources_run _ warningsAsErrors hps hqs
    apply Woven.of_not_mem
    · intro p _
      exact p.name_not_mem_hostSources
    · intro q _
      exact q.name_not_mem_hostSources
  · intro p hp hq
    exact fromSources_run (Woven.of_mem hnamesPs hnamesQs hp hq) warningsAsErrors hps hqs

/-- A unit with a type in lower case, and an import that is nowhere. -/
def lowerCase : Manifest where
  units := [{ path := "A.java", package := "a", imports := ["b.B"], types := ["util"] }]

/-- The naming check behind others, and on its own. -/
theorem run_noninterference_of_naming :
    let c := compilationWith lowerCase
      [.importCycles {}, .phaseTrace {}, .naming { enabled := true }] false
    let d := compilationWith lowerCase [.naming { enabled := true }] false
    (c.run [] {}).report.outcome = .completed .error ∧
      (d.run [] {}).report.outcome = .completed .error ∧
      (c.run [] {}).report.fromSources hostSources =
        (d.run [] {}).report.fromSources hostSources ∧
      (c.run [] {}).report.fromSources [Naming.analysisName] =
        (d.run [] {}).report.fromSources [Naming.analysisName] := by
  intro c d
  have hc : (Compilation.ofManifest lowerCase).registerAll c.plugins = .ok c := rfl
  have hd : (Compilation.ofManifest lowerCase).registerAll d.plugins = .ok d := rfl
  have hps : (c.run [] {}).report.outcome = .completed .error := by decide +kernel
  have hqs : (d.run [] {}).report.outcome = .completed .error := by decide +kernel
  have hnaming : .naming { enabled := true } ∈ c.plugins := by decide
  obtain ⟨hhost, hsame⟩ := run_noninterference hc hd false hps hqs
  refine ⟨hps, hqs, hhost, ?_⟩
  exact hsame (.naming { enabled := true }) hnaming (List.mem_singleton_self _)

end Bundled

end AnalysisHost
