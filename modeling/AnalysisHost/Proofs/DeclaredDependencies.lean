import AnalysisHost.Proofs.DependencyFlags
import AnalysisHost.Proofs.Interference
import AnalysisHost.Proofs.Origins

/-!
# Every package declared

A strict dependency check to which every package of the classpath has been declared has nothing to
do: an import that resolves to the classpath comes from one of these packages (`Covers`), so the
check reports nothing, notes nothing and stops nothing, whichever call is made to it
(`StrictDeps.make_of_covers`). What is declared on a command line, in any order and in either form,
reaches the check also behind other analyses (`play_claims_of_declares`).

`Manifest.Valid.strict_check_satisfied` puts the two together, for any of the bundled analyses in
any order of registration.
-/

namespace AnalysisHost

/-! ## The check at rest

Where everything is declared, the check has nothing to note. `Covers` is the invariant, and every
call keeps it. -/

/-- Every package of the classpath is declared, and no use of an undeclared one has been noted. -/
structure StrictDeps.Covers (p : StrictDeps) (m : Manifest) : Prop where
  uses : p.uses = []
  declared : ∀ entry ∈ m.classpath, entry.package ∈ p.direct

/-- A call that looks at nothing but what the imports of a manifest resolve to. -/
def Call.LooksAt (m : Manifest) : Call → Prop
  | .inspect env => env.tree ∈ m.lower ∧ env.resolved = env.tree.resolutions m.table
  | .prepareContext | .setUp | .finish => True

namespace StrictDeps

variable {m : Manifest} {p : StrictDeps}

/-- What an import resolves to on the classpath is in a package that is declared. -/
theorem Covers.not_isUndeclared (h : p.Covers m) (hvalid : m.Valid) {u : CompilationUnit}
    (hu : u ∈ m.lower) : ∀ r ∈ u.resolutions m.table, p.isUndeclared r = false := by
  intro r hr
  obtain ⟨unit, hunit, rfl⟩ := List.mem_map.mp hu
  obtain ⟨i, hi, rfl⟩ := List.mem_map.mp hr
  obtain ⟨text, htext, rfl⟩ := List.mem_map.mp hi
  have hright := hvalid.bearsOut ((hvalid.unit hunit).imports text htext)
  rw [Bool.eq_false_iff]
  intro hundeclared
  obtain ⟨horigin, hnone⟩ := isUndeclared_iff.mp hundeclared
  have hclasspath : m.table.resolve (Import.ofText text) = .classpath := horigin
  rw [hclasspath] at hright
  obtain ⟨⟨entry, hentry, hpackage, -⟩, -⟩ := hright
  apply hnone entry.package (h.declared entry hentry)
  left
  exact hpackage.symm

/-- **A check that covers a manifest does nothing at all.** -/
theorem make_of_covers (h : p.Covers m) (hvalid : m.Valid) {c : Call} (hc : c.LooksAt m)
    (s : Session) : c.make (Bundled.strictDeps p) s = (.ok (), .strictDeps p, s) := by
  cases c with
  | prepareContext => rfl
  | setUp => rfl
  | finish =>
    show Reply.map Bundled.strictDeps (p.finish s) = _
    have hmissing : p.missing = [] := by simp [missing, h.uses]
    unfold finish
    rw [hmissing]
    cases p.mode <;> rfl
  | inspect env =>
    cases hphase : env.phase with
    | flow =>
      rw [Call.make_inspect_flow hphase]
      rfl
    | attribution =>
      obtain ⟨htree, hresolved⟩ := hc
      rw [Call.make_inspect_attribution hphase]
      show Reply.map Bundled.strictDeps (p.afterAttribution env s) = _
      have hnone : env.resolved.filter p.isUndeclared = [] := by
        rw [hresolved, List.filter_eq_nil_iff]
        intro r hr
        simp [h.not_isUndeclared hvalid htree r hr]
      by_cases hoff : p.mode = .off
      · rw [afterAttribution, hoff]
        rfl
      · rw [afterAttribution_of_ne_off hoff, hnone]
        rfl

end StrictDeps

/-! ## What is declared -/

/-- Arguments declare all packages of a classpath, and ask for a strict check. -/
structure Manifest.DeclaredBy (m : Manifest) (arguments : List Argument) : Prop where
  strict : .strict ∈ arguments
  packages : ∀ package, package ∈ arguments.filterMap Argument.package? ↔
    ∃ entry ∈ m.classpath, entry.package = package
  /-- The other tokens have none of the flags of the check. -/
  foreign : ∀ token, .other token ∈ arguments →
    Flag.read StrictDeps.checkFlag token = .other ∧
      Flag.read StrictDeps.directDepFlag token = .other

namespace Manifest.DeclaredBy

variable {m : Manifest} {arguments left : List Argument}

theorem isQualified (h : m.DeclaredBy arguments) (hvalid : m.Valid) {a : Argument}
    (ha : a ∈ arguments) {package : String} (hpackage : a.package? = some package) :
    IsQualified package.toList := by
  obtain ⟨entry, hentry, rfl⟩ := (h.packages package).mp (List.mem_filterMap.mpr ⟨a, ha, hpackage⟩)
  exact (valid_iff.mp hvalid).classpathPackages entry hentry

theorem sound (h : m.DeclaredBy arguments) (hvalid : m.Valid) : ∀ a ∈ arguments, a.Sound := by
  intro a ha
  cases a with
  | strict => trivial
  | attached package => exact h.isQualified hvalid ha rfl
  | separate package => exact h.isQualified hvalid ha rfl
  | other token => exact h.foreign token ha

/-- What another analysis leaves declares as much. -/
theorem of_remains (h : m.DeclaredBy arguments) (hleft : Argument.Remains arguments left) :
    m.DeclaredBy left where
  strict := hleft.own _ h.strict rfl
  packages := by
    intro package
    rw [← h.packages, List.mem_filterMap, List.mem_filterMap]
    constructor
    · rintro ⟨a, ha, hpackage⟩
      exact ⟨a, hleft.sublist.subset ha, hpackage⟩
    · rintro ⟨a, ha, hpackage⟩
      refine ⟨a, hleft.own a ha ?_, hpackage⟩
      cases a <;> cases hpackage <;> rfl
  foreign token htoken := h.foreign token (hleft.sublist.subset htoken)

end Manifest.DeclaredBy

/-! ## The claims -/

/-- A plugin that goes by some name is called. -/
def Frame.Calls {π : Type} [Plugin π] (f : Frame π) (name : String) : Prop :=
  ∃ i callback p, f.moment = .called i callback ∧ f.before.plugins[i]? = some p ∧
    Plugin.name p = name

theorem Bundled.exists_strictDeps {p : Bundled} (h : Plugin.name p = StrictDeps.analysisName) :
    ∃ q, p = .strictDeps q := by
  cases p with
  | strictDeps q => exact ⟨q, rfl⟩
  | importCycles q =>
    exact absurd h (by decide : ImportCycles.analysisName ≠ StrictDeps.analysisName)
  | naming q => exact absurd h (by decide : Naming.analysisName ≠ StrictDeps.analysisName)
  | phaseTrace q => exact absurd h (by decide : PhaseTrace.analysisName ≠ StrictDeps.analysisName)

namespace Scene

/-- The frame of a call shows the plugin that the step calls. -/
theorem getElem?_of_calls {π : Type} [Plugin π] {s : Scene π} {step : Step} {f : Frame π}
    {name : String} (hf : s.frame? step = some f) (h : f.Calls name) :
    ∃ i p, s.plugins[i]? = some p ∧ Plugin.name p = name ∧
      (step = .claim i ∨ ∃ c, step = .call i c) := by
  obtain ⟨moment, hmoment, rfl⟩ := Option.map_eq_some_iff.mp hf
  obtain ⟨i, callback, p, hcalled, hp, hname⟩ := h
  cases step with
  | claim j =>
    cases hmoment
    cases hcalled
    exact ⟨i, p, hp, hname, .inl rfl⟩
  | call j c =>
    cases hmoment
    cases hcalled
    exact ⟨i, p, hp, hname, .inr ⟨c, rfl⟩⟩
  | handOver => cases hmoment
  | announce event =>
    cases hmoment
    cases hcalled
  | report findings => cases hmoment

end Scene

section Claims

variable {m : Manifest}

/-- The check accepts what is declared, and then covers the manifest. -/
theorem StrictDeps.exists_covers {q : StrictDeps} (huses : q.uses = []) (hvalid : m.Valid)
    {arguments : List Argument} (h : m.DeclaredBy arguments) :
    ∃ q', Plugin.processArgs (Bundled.strictDeps q) (arguments.flatMap Argument.tokens) =
      (.ok (arguments.filterMap Argument.token?), Bundled.strictDeps q') ∧ q'.Covers m := by
  have hclaim := q.processArgs_arguments (h.sound hvalid) h.strict
  refine ⟨(q.processArgs (arguments.flatMap Argument.tokens)).2, ?_, ?_⟩
  · show ((q.processArgs _).1, Bundled.strictDeps (q.processArgs _).2) = _
    rw [hclaim]
  · rw [hclaim]
    constructor
    · exact huses
    · intro entry hentry
      apply List.mem_append_right
      exact (h.packages entry.package).mpr ⟨entry, hentry, rfl⟩

/-- What the plugins that wait find on the command line: if the check is among them, everything is
declared. -/
def Awaits (m : Manifest) (waiting : List Bundled) (args : List String) : Prop :=
  ∀ q, .strictDeps q ∈ waiting → q.uses = [] ∧
    ∃ arguments, args = arguments.flatMap Argument.tokens ∧ m.DeclaredBy arguments

/-- One plugin claims its flags. -/
theorem Awaits.claim (hvalid : m.Valid) {p p' : Bundled} {waiting : List Bundled}
    {args rest : List String} (h : Awaits m (p :: waiting) args)
    (hnames : ((p :: waiting).map Plugin.name).Nodup)
    (hclaim : Plugin.processArgs p args = (.ok rest, p')) :
    Awaits m waiting rest ∧ ∀ q, p' = .strictDeps q → q.Covers m := by
  have hp := (List.nodup_cons.mp hnames).1
  by_cases hname : Plugin.name p = StrictDeps.analysisName
  · -- Nobody behind the check has its name.
    obtain ⟨q, rfl⟩ := Bundled.exists_strictDeps hname
    obtain ⟨huses, arguments, rfl, hdeclared⟩ := h q List.mem_cons_self
    obtain ⟨q', hclaim', hcovers⟩ := StrictDeps.exists_covers huses hvalid hdeclared
    rw [hclaim] at hclaim'
    cases hclaim'
    constructor
    · intro r hr
      exact absurd (List.mem_map_of_mem hr) hp
    · rintro _ ⟨⟩
      exact hcovers
  · constructor
    · intro q hq
      obtain ⟨huses, arguments, rfl, hdeclared⟩ := h q (List.mem_cons_of_mem p hq)
      obtain ⟨left, rfl, hleft⟩ :=
        Argument.exists_remains hname (hdeclared.sound hvalid) hclaim
      exact ⟨huses, left, rfl, hdeclared.of_remains hleft⟩
    · rintro q rfl
      exact absurd (Bundled.name_processArgs hclaim).symm hname

/-- The check claims what is declared, wherever it stands among the plugins. Of these, some have
claimed their flags already and some are waiting. -/
theorem play_claims_of_awaits (hvalid : m.Valid) (called waiting : List Bundled)
    {args : List String} (session : Session) (hcalled : ∀ q, .strictDeps q ∈ called → q.Covers m)
    (h : Awaits m waiting args) (hnames : (waiting.map Plugin.name).Nodup) :
    let t := (Scene.mk (called ++ waiting) args session).play
      ((List.range' called.length waiting.length).map .claim)
    (∀ f ∈ t.frames, f.Calls StrictDeps.analysisName → f.succeeded = true) ∧
      (t.succeeded = true → ∀ q, .strictDeps q ∈ t.scene.plugins → q.Covers m) := by
  intro t
  induction waiting generalizing called args with
  | nil =>
    constructor
    · intro f hf
      cases hf
    · intro _ q hq
      apply hcalled q
      simpa [t, Scene.play] using hq
  | cons p waiting ih =>
    have hperform := Scene.perform_claim called p waiting args session
    simp only [t, List.length_cons, List.range'_succ, List.map_cons]
    rcases hclaim : Plugin.processArgs p args with ⟨e | rest, p'⟩
    · rw [hclaim] at hperform
      rw [Scene.play_cons_of_failed (by rw [hperform])]
      refine ⟨?_, by rintro ⟨⟩⟩
      intro f hf hcalls
      -- A plugin that refuses its flags is not the check.
      have hframe : (Scene.mk (called ++ p :: waiting) args session).frame? (.claim called.length) =
          some f := Option.mem_toList.mp hf
      obtain ⟨i, p₁, hp₁, hname, hstep⟩ := Scene.getElem?_of_calls hframe hcalls
      obtain rfl : called.length = i := by simpa using hstep
      obtain rfl : p = p₁ := by simpa using hp₁
      obtain ⟨q, rfl⟩ := Bundled.exists_strictDeps hname
      obtain ⟨huses, arguments, rfl, hdeclared⟩ := h q List.mem_cons_self
      obtain ⟨q', haccepted, -⟩ := StrictDeps.exists_covers huses hvalid hdeclared
      rw [hclaim] at haccepted
      cases haccepted
    · rw [hclaim] at hperform
      rw [Scene.play_cons_of_succeeded (by rw [hperform])]
      obtain ⟨hrest, hcovers⟩ := h.claim hvalid hnames hclaim
      have hcalled' : ∀ q, .strictDeps q ∈ called ++ [p'] → q.Covers m := by
        intro q hq
        rcases List.mem_append.mp hq with hq | hq
        · exact hcalled q hq
        · exact hcovers q (List.mem_singleton.mp hq).symm
      have hnext := ih (called ++ [p']) hcalled' hrest (List.nodup_cons.mp hnames).2
      simp only [List.append_assoc, List.singleton_append, List.length_append,
        List.length_singleton] at hnext
      rw [hperform]
      refine ⟨?_, hnext.2⟩
      intro f hf hcalls
      rcases List.mem_append.mp hf with hf | hf
      · rw [Scene.succeeded_of_mem_frame? hf, hperform]
      · exact hnext.1 f hf hcalls

end Claims

/-! ## The schedule -/

/-- A step behind the claims: a call looks at the manifest, and what is reported is the host's. -/
def Step.UnderWay (m : Manifest) : Step → Prop
  | .claim _ => False
  | .call _ c => c.LooksAt m
  | .report findings => ∀ d ∈ findings, d.source ∈ Bundled.hostSources
  | .handOver | .announce _ => True

namespace Compilation

/-- What the host reports in a run is what its phases find. -/
theorem source_of_mem_schedule {π : Type} {c : Compilation π} {findings : List Diagnostic}
    (h : .report findings ∈ c.schedule) : ∀ d ∈ findings, d.source ∈ Bundled.hostSources := by
  simp only [schedule, CompilationUnit.tasks, List.mem_append, List.mem_flatMap, List.mem_cons,
    List.not_mem_nil, or_false, reduceCtorEq, false_or, Task.report.injEq] at h
  obtain ⟨u, -, rfl | rfl⟩ := h
  · intro d hd
    obtain ⟨r, -, rfl⟩ := List.mem_map.mp hd
    show Phase.attribution.text ∈ _
    decide
  · intro d hd
    obtain ⟨s, -, rfl⟩ := List.mem_map.mp hd
    show Phase.flow.text ∈ _
    decide

theorem underWay_of_mem_steps {π : Type} {m : Manifest} {c : Compilation π}
    (hunits : c.units = m.lower) (htable : c.table = m.table) {n : Nat} :
    ∀ step ∈ c.schedule.flatMap (Task.steps n), step.UnderWay m := by
  intro step hstep
  obtain ⟨task, htask, hmem⟩ := List.mem_flatMap.mp hstep
  cases task with
  | enter stage => cases hmem
  | unitDone => cases hmem
  | announce event =>
    cases List.mem_singleton.mp hmem
    trivial
  | report findings =>
    cases List.mem_singleton.mp hmem
    exact source_of_mem_schedule htask
  | call call =>
    obtain ⟨i, -, rfl⟩ := List.mem_map.mp hmem
    cases call with
    | inspect env =>
      obtain ⟨htree, hresolved⟩ := of_mem_schedule htask
      rw [hunits] at htree
      rw [htable] at hresolved
      exact ⟨htree, hresolved⟩
    | prepareContext => trivial
    | setUp => trivial
    | finish => trivial

end Compilation

/-- The check covers a manifest, and has reported nothing. -/
structure AtRest (m : Manifest) (s : Scene Bundled) : Prop where
  covers : ∀ q, .strictDeps q ∈ s.plugins → q.Covers m
  silent : s.session.log.fromSources [StrictDeps.analysisName] = []

namespace AtRest

variable {m : Manifest} {s : Scene Bundled}

theorem call (h : AtRest m s) (hvalid : m.Valid) {i : Nat} {c : Call} (hc : c.LooksAt m) :
    AtRest m (s.perform (.call i c)).2 := by
  cases hp : s.plugins[i]? with
  | none =>
    simp only [Scene.perform, hp]
    exact h
  | some p =>
    simp only [Scene.perform, hp]
    by_cases hname : Plugin.name p = StrictDeps.analysisName
    · obtain ⟨q, rfl⟩ := Bundled.exists_strictDeps hname
      have hq := h.covers q (List.mem_of_getElem? hp)
      rw [StrictDeps.make_of_covers hq hvalid hc]
      constructor
      · intro r hr
        rcases List.mem_or_eq_of_mem_set hr with hr | hr
        · exact h.covers r hr
        · cases hr
          exact hq
      · exact h.silent
    · constructor
      · intro r hr
        rcases List.mem_or_eq_of_mem_set hr with hr | hr
        · exact h.covers r hr
        · have hkept := Bundled.name_make p c s.session
          rw [← hr] at hkept
          exact absurd hkept.symm hname
      · obtain ⟨ds, hlog, hsource⟩ := Bundled.exists_reports p c s.session
        show (c.make p s.session).2.2.log.fromSources [StrictDeps.analysisName] = []
        rw [hlog, Log.fromSources_reportAll_of_not_mem]
        · exact h.silent
        · intro d hd hmem
          rw [hsource d hd] at hmem
          exact hname (List.mem_singleton.mp hmem)

theorem source_ne (h : AtRest m s) :
    ∀ d ∈ s.session.log.diagnostics, d.source ≠ StrictDeps.analysisName := by
  intro d hd hsource
  have hmem : d ∈ s.session.log.fromSources [StrictDeps.analysisName] :=
    List.mem_filter.mpr ⟨hd, by simp [hsource]⟩
  rw [h.silent] at hmem
  cases hmem

/-- **No step behind the claims disturbs the check.** -/
theorem perform (h : AtRest m s) (hvalid : m.Valid) {step : Step} (hstep : step.UnderWay m) :
    AtRest m (s.perform step).2 := by
  cases step with
  | claim i => cases hstep
  | call i c => exact h.call hvalid hstep
  | handOver => exact ⟨h.covers, h.silent⟩
  | announce event => exact ⟨h.covers, h.silent⟩
  | report findings =>
    refine ⟨h.covers, ?_⟩
    show (s.session.log.reportAll findings).fromSources _ = []
    rw [Log.fromSources_reportAll_of_not_mem]
    · exact h.silent
    · intro d hd hmem
      have hhost := hstep d hd
      rw [List.mem_singleton.mp hmem] at hhost
      exact absurd hhost (by decide)

/-- The check, when it is called, does not stop a run. -/
theorem succeeded (h : AtRest m s) (hvalid : m.Valid) {step : Step} (hstep : step.UnderWay m)
    {f : Frame Bundled} (hf : s.frame? step = some f) (hcalls : f.Calls StrictDeps.analysisName) :
    f.succeeded = true := by
  obtain ⟨i, p, hp, hname, rfl | ⟨c, rfl⟩⟩ := Scene.getElem?_of_calls hf hcalls
  · cases hstep
  · obtain ⟨q, rfl⟩ := Bundled.exists_strictDeps hname
    have hq := h.covers q (List.mem_of_getElem? hp)
    rw [Scene.succeeded_of_mem_frame? (Option.mem_toList.mpr hf), Scene.perform]
    simp only [hp, StrictDeps.make_of_covers hq hvalid hstep]
    rfl

end AtRest

/-! ## Runs -/

/-- What the claims of a run come to, if everything is declared. -/
theorem Compilation.claims_of_declares {m : Manifest} (hvalid : m.Valid)
    {arguments : List Argument} (h : m.DeclaredBy arguments) {c : Compilation Bundled}
    (hfresh : ∀ q, .strictDeps q ∈ c.plugins → q.uses = []) (hnames : c.pluginNames.Nodup)
    (files : Files) :
    let args := arguments.flatMap Argument.tokens
    (∀ f ∈ ((c.opening args files).play ((List.range c.plugins.length).map .claim)).frames,
        f.Calls StrictDeps.analysisName → f.succeeded = true) ∧
      ((claimFlags c.plugins args).verdict = .ok () → AtRest m (c.claimed args files)) := by
  intro args
  have hawaits : Awaits m c.plugins args :=
    fun q hq => ⟨hfresh q hq, arguments, rfl, h⟩
  obtain ⟨hframes, hcovers⟩ := play_claims_of_awaits hvalid [] c.plugins
    (c.openSession [] files) (by rintro q ⟨⟩) hawaits hnames
  obtain ⟨hok, hscene, -⟩ := play_claims c.plugins args (c.openSession [] files)
  rw [List.range_eq_range'] at hok hscene ⊢
  refine ⟨hframes, ?_⟩
  intro hverdict
  rw [hverdict] at hok
  refine ⟨?_, rfl⟩
  intro q hq
  apply hcovers hok q
  rw [List.nil_append]
  exact hscene ▸ hq

/-- **Declaring every package of the classpath satisfies the strict check.** It claims all of its
arguments, wherever they stand on the command line; and in a run it does not fail in any call that
is made to it, and reports nothing. -/
theorem Manifest.Valid.strict_check_satisfied {m : Manifest} (hvalid : m.Valid)
    {arguments : List Argument} (h : m.DeclaredBy arguments) {plugins : List Bundled}
    (hfresh : ∀ q, .strictDeps q ∈ plugins → q.uses = []) {c : Compilation Bundled}
    (hc : (Compilation.ofManifest m).registerAll plugins = .ok c) (warningsAsErrors : Bool)
    (files : Files) :
    let args := arguments.flatMap Argument.tokens
    let d : Compilation Bundled := { c with warningsAsErrors }
    (∀ p : StrictDeps, p.processArgs args =
      (.ok (arguments.filterMap Argument.token?),
        { p with
          mode := .strict
          direct := p.direct ++ arguments.filterMap Argument.package? })) ∧
      (∀ f ∈ d.frames args files, f.Calls StrictDeps.analysisName → f.succeeded = true) ∧
      ∀ e ∈ (d.run args files).report.diagnostics, e.source ≠ StrictDeps.analysisName := by
  intro args d
  obtain ⟨rfl, hnames⟩ := Compilation.registerAll_eq_ok hc List.nodup_nil
  obtain ⟨hclaims, hclaimed⟩ :=
    Compilation.claims_of_declares hvalid h (c := d) hfresh hnames files
  refine ⟨fun p => p.processArgs_arguments (h.sound hvalid) h.strict, ?_⟩
  cases hverdict : (claimFlags d.plugins args).verdict with
  | error e =>
    rw [Compilation.frames_of_rejected files hverdict, Compilation.run_of_rejected hverdict]
    exact ⟨hclaims, List.forall_mem_nil _⟩
  | ok _ =>
    have hunderWay := Compilation.underWay_of_mem_steps (m := m) (c := d) rfl rfl
      (n := d.plugins.length)
    obtain ⟨hlast, hframes⟩ := Scene.play_keeps (P := AtRest m)
      (fun step hstep s hs => hs.perform hvalid (hunderWay step hstep)) (hclaimed hverdict)
    constructor
    · rw [Compilation.frames_of_claimed files hverdict]
      intro f hf hcalls
      rcases List.mem_append.mp hf with hf | hf
      · exact hclaims f hf hcalls
      · obtain ⟨step, hstep, hbefore, hframe⟩ := hframes f hf
        exact hbefore.succeeded hvalid (hunderWay step hstep) hframe hcalls
    · obtain ⟨verdict, done, hrun, hagrees⟩ := Compilation.exists_concluded files hverdict
      rw [hrun, Compilation.diagnostics_concluded, hagrees.session]
      exact hlast.source_ne

/-- Three packages, two of them in the manifest twice, and an import from one. -/
def threePackages : Manifest where
  classpath :=
    [{ package := "com.lib", types := ["Util"] }, { package := "$x_1" },
      { package := "org.json", types := ["Json"] }, { package := "com.lib", types := ["Other"] }]
  units := [{ path := "A.java", package := "a", imports := ["org.json.Json", "com.lib.Util"] }]

/-- The check behind two other analyses, one of which has its flags between those of the check. -/
theorem strict_check_satisfied_of_three_packages :
    let arguments : List Argument :=
      [.other "--trace-dir", .other "out", .separate "org.json", .strict, .other "--naming",
        .attached "com.lib", .attached "$x_1"]
    let plugins : List Bundled := [.phaseTrace {}, .naming {}, .strictDeps {}]
    let c := Bundled.compilationWith threePackages plugins false
    threePackages.Valid ∧ threePackages.DeclaredBy arguments ∧
      (∀ q, .strictDeps q ∈ plugins → q.uses = []) ∧
      (Compilation.ofManifest threePackages).registerAll plugins = .ok c ∧
      (∀ f ∈ c.frames (arguments.flatMap Argument.tokens) {},
        f.Calls StrictDeps.analysisName → f.succeeded = true) ∧
      ∀ e ∈ (c.run (arguments.flatMap Argument.tokens) {}).report.diagnostics,
        e.source ≠ StrictDeps.analysisName := by
  intro arguments plugins c
  have hvalid : threePackages.Valid := by
    show threePackages.check = .ok ()
    decide +kernel
  have hdeclared : threePackages.DeclaredBy arguments := by
    constructor
    · decide
    · intro package
      have hpackages : arguments.filterMap Argument.package? = ["org.json", "com.lib", "$x_1"] :=
        rfl
      rw [hpackages]
      simp only [threePackages, List.mem_cons, List.not_mem_nil, or_false, exists_eq_or_imp,
        exists_eq_left]
      grind
    · intro token htoken
      have htokens : token ∈ ["--trace-dir", "out", "--naming"] := by
        simpa [arguments] using htoken
      have hforeign : ∀ token ∈ ["--trace-dir", "out", "--naming"],
          Flag.read StrictDeps.checkFlag token = .other ∧
            Flag.read StrictDeps.directDepFlag token = .other := by
        decide
      exact hforeign token htokens
  have hfresh : ∀ q, .strictDeps q ∈ plugins → q.uses = [] := by
    intro q hq
    simp [plugins] at hq
    simp [hq]
  have hc : (Compilation.ofManifest threePackages).registerAll plugins = .ok c := rfl
  obtain ⟨-, hframes, hdiagnostics⟩ :=
    Manifest.Valid.strict_check_satisfied hvalid hdeclared hfresh hc false {}
  have hsame : ({ c with warningsAsErrors := false } : Compilation Bundled) = c := rfl
  rw [hsame] at hframes hdiagnostics
  exact ⟨hvalid, hdeclared, hfresh, hc, hframes, hdiagnostics⟩

end AnalysisHost
