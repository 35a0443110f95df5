import AnalysisHost.Proofs.Claiming
import AnalysisHost.Report

/-!
# The flags of the bundled analyses

The bundled analyses claim five flags in turn (`Bundled.claims`). A command line that they accept
leaves them as their `Bundled.Settings` say (`accepted_claimFlags`).

A flag may take its value from behind a flag that is claimed earlier. `Bundled.readsInPlace_iff`
says of every command line whether it is read as it stands: it is, unless it is accepted although a
bare flag has a token of an earlier flag right behind it. `Bundled.value_taken_from_behind_flag` is
such a command line.
-/

namespace AnalysisHost

/-! ## What each analysis claims -/

/-- A plugin that has claimed its flags leaves the rest to those behind it. -/
theorem claimFlags_cons_eq_ok {π : Type} [Plugin π] {p : π} {ps : List π} {args : List String}
    (h : (claimFlags (p :: ps) args).verdict = .ok ()) :
    ∃ p' rest, Plugin.processArgs p args = (.ok rest, p') ∧
      (claimFlags ps rest).verdict = .ok () ∧
      (claimFlags (p :: ps) args).plugins = p' :: (claimFlags ps rest).plugins ∧
      (claimFlags (p :: ps) args).lent = (claimFlags ps rest).lent := by
  obtain ⟨p', rest, hcall, hverdict, hplugins, hlent⟩ := sweep_cons_eq_ok h
  refine ⟨p', rest, ?_, hverdict, hplugins, hlent⟩
  rcases hargs : Plugin.processArgs p args with ⟨e | left, q⟩
  · rw [hargs] at hcall
    cases hcall
  · rw [hargs] at hcall
    cases hcall
    rfl

theorem StrictDeps.processArgs_eq_ok {p p' : StrictDeps} {args rest : List String}
    (h : p.processArgs args = (.ok rest, p')) :
    ∃ checks mid packages, Flag.claimAll checkFlag args = .ok (checks, mid) ∧
      (∀ v ∈ checks, CheckMode.parse? v = some p'.mode) ∧
      Flag.claimAll directDepFlag mid = .ok (packages, rest) ∧
      p' = { p with mode := p'.mode, direct := p.direct ++ packages } := by
  unfold processArgs at h
  split at h
  · cases h
  · next mode? mid hcheck =>
    obtain ⟨checks, hchecks, hone⟩ := Flag.claimOne_eq_ok hcheck
    dsimp only at h
    split at h
    · cases h
    · next mode hmode =>
      split at h
      · cases h
      · next packages left hdirect =>
        split at h
        · cases h
        · cases h
          refine ⟨checks, mid, packages, hchecks, ?_, hdirect, rfl⟩
          intro v hv
          rw [hone v hv] at hmode
          exact Flag.choose_eq_ok hmode

theorem ImportCycles.processArgs_eq_ok {p p' : ImportCycles} {args rest : List String}
    (h : p.processArgs args = (.ok rest, p')) :
    ∃ modes, Flag.claimAll modeFlag args = .ok (modes, rest) ∧
      (∀ v ∈ modes, CycleMode.parse? v = some p'.mode) ∧ p' = { p with mode := p'.mode } := by
  unfold processArgs at h
  split at h
  · cases h
  · next hclaim =>
    cases h
    obtain ⟨modes, hmodes, hone⟩ := Flag.claimOne_eq_ok hclaim
    exact ⟨modes, hmodes, fun v hv => absurd (hone v hv) (by simp), rfl⟩
  · next value left hclaim =>
    obtain ⟨modes, hmodes, hone⟩ := Flag.claimOne_eq_ok hclaim
    split at h
    · cases h
    · next mode hmode =>
      cases h
      refine ⟨modes, hmodes, ?_, rfl⟩
      intro v hv
      cases hone v hv
      exact Flag.choose_eq_ok hmode

theorem Naming.processArgs_eq_ok {p p' : Naming} {args rest : List String}
    (h : p.processArgs args = (.ok rest, p')) :
    ∃ present, Flag.claimSwitch namingFlag args = .ok (present, rest) := by
  unfold processArgs at h
  split at h
  · cases h
  · next hclaim => cases h; exact ⟨_, hclaim⟩

theorem PhaseTrace.processArgs_eq_ok {p p' : PhaseTrace} {args rest : List String}
    (h : p.processArgs args = (.ok rest, p')) :
    ∃ directories, Flag.claimAll directoryFlag args = .ok (directories, rest) ∧
      (∀ v ∈ directories, p'.directory? = some v) ∧
      p' = { p with directory? := p'.directory? } := by
  unfold processArgs at h
  split at h
  · cases h
  · next hclaim =>
    cases h
    obtain ⟨directories, hdirectories, hone⟩ := Flag.claimOne_eq_ok hclaim
    exact ⟨directories, hdirectories, fun v hv => absurd (hone v hv) (by simp), rfl⟩
  · next hclaim =>
    cases h
    obtain ⟨directories, hdirectories, hone⟩ := Flag.claimOne_eq_ok hclaim
    exact ⟨directories, hdirectories, hone, rfl⟩

namespace Bundled

/-! ## All of them -/

/-- A reply of one analysis, with the analysis as one of the bundled ones. -/
theorem exists_of_relabelled {α β γ : Type} {f : β → γ} {x : α × β} {a : α} {c : γ}
    (h : (match x with | (r, p) => (r, f p)) = (a, c)) : ∃ b, c = f b ∧ x = (a, b) := by
  obtain ⟨r, p⟩ := x
  cases h
  exact ⟨p, rfl, rfl⟩

/-- An analysis stays the one that it is when it claims its flags. -/
theorem name_processArgs {p p' : Bundled} {args : List String}
    {claimed : Except FlagError (List String)} (h : Plugin.processArgs p args = (claimed, p')) :
    Plugin.name p' = Plugin.name p := by
  cases p with
  | strictDeps p =>
    obtain ⟨q, rfl, -⟩ := exists_of_relabelled (f := strictDeps) (x := p.processArgs args) h
    rfl
  | importCycles p =>
    obtain ⟨q, rfl, -⟩ := exists_of_relabelled (f := importCycles) (x := p.processArgs args) h
    rfl
  | naming p =>
    obtain ⟨q, rfl, -⟩ := exists_of_relabelled (f := naming) (x := p.processArgs args) h
    rfl
  | phaseTrace p =>
    obtain ⟨q, rfl, -⟩ := exists_of_relabelled (f := phaseTrace) (x := p.processArgs args) h
    rfl

/-- What the flags say to the bundled analyses. -/
structure Settings where
  check : CheckMode
  /-- The declared packages. -/
  direct : List String
  cycles : CycleMode
  naming : Bool
  /-- Where the trace goes, if there is to be one. -/
  directory? : Option String
  deriving DecidableEq, Repr

/-- The bundled analyses after they have claimed their flags. -/
def Settings.plugins (s : Settings) : List Bundled :=
  [.strictDeps { mode := s.check, direct := s.direct }, .importCycles { mode := s.cycles },
    .naming { enabled := s.naming }, .phaseTrace { directory? := s.directory? }]

/-- What the bundled analyses claim, in order. -/
def claims : List Flag.Claim :=
  [.valued StrictDeps.checkFlag, .valued StrictDeps.directDepFlag, .valued ImportCycles.modeFlag,
    .switch Naming.namingFlag, .valued PhaseTrace.directoryFlag]

/-- What an analysis claims, in order. -/
def claimsOf : Bundled → List Flag.Claim
  | .strictDeps _ => [.valued StrictDeps.checkFlag, .valued StrictDeps.directDepFlag]
  | .importCycles _ => [.valued ImportCycles.modeFlag]
  | .naming _ => [.switch Naming.namingFlag]
  | .phaseTrace _ => [.valued PhaseTrace.directoryFlag]

theorem distinguishable_claims : Flag.Distinguishable claims where
  dash := by decide
  apart := by decide

/-- An analysis that accepts a command line makes its claims on it. -/
theorem restAll_of_processArgs {p p' : Bundled} {args rest : List String}
    (h : Plugin.processArgs p args = (.ok rest, p')) :
    Flag.restAll p.claimsOf args = .ok rest := by
  cases p with
  | strictDeps p =>
    obtain ⟨q, -, hq⟩ := exists_of_relabelled (f := strictDeps) (x := p.processArgs args) h
    obtain ⟨checks, mid, packages, hcheck, -, hdirect, -⟩ := StrictDeps.processArgs_eq_ok hq
    simp [claimsOf, Flag.restAll, Flag.Claim.rest, hcheck, hdirect, Except.map]
  | importCycles p =>
    obtain ⟨q, -, hq⟩ := exists_of_relabelled (f := importCycles) (x := p.processArgs args) h
    obtain ⟨modes, hmode, -, -⟩ := ImportCycles.processArgs_eq_ok hq
    simp [claimsOf, Flag.restAll, Flag.Claim.rest, hmode, Except.map]
  | naming p =>
    obtain ⟨q, -, hq⟩ := exists_of_relabelled (f := naming) (x := p.processArgs args) h
    obtain ⟨present, hswitch⟩ := Naming.processArgs_eq_ok hq
    simp [claimsOf, Flag.restAll, Flag.Claim.rest, hswitch, Except.map]
  | phaseTrace p =>
    obtain ⟨q, -, hq⟩ := exists_of_relabelled (f := phaseTrace) (x := p.processArgs args) h
    obtain ⟨directories, hdirectory, -, -⟩ := PhaseTrace.processArgs_eq_ok hq
    simp [claimsOf, Flag.restAll, Flag.Claim.rest, hdirectory, Except.map]

/-- What analyses leave of a command line that they accept is what their claims leave. -/
theorem restAll_claimFlags {ps : List Bundled} {args : List String}
    (h : (claimFlags ps args).verdict = .ok ()) :
    Flag.restAll (ps.flatMap claimsOf) args = .ok (claimFlags ps args).lent := by
  induction ps generalizing args with
  | nil => rfl
  | cons p ps ih =>
    obtain ⟨p', rest, hargs, hrest, -, hlent⟩ := claimFlags_cons_eq_ok h
    rw [List.flatMap_cons, Flag.restAll_append, restAll_of_processArgs hargs, hlent]
    exact ih hrest

/-- Settings follow the values that the claims of a command line take from tokens of their own. -/
structure Settings.Follows (s : Settings) (args : List String) : Prop where
  check : ∀ taken ∈ Flag.taken StrictDeps.checkFlag (Flag.left claims args 0),
    CheckMode.parse? taken.2.text = some s.check
  direct : ((Flag.taken StrictDeps.directDepFlag (Flag.left claims args 1)).map
    (·.2.text)).Sublist s.direct
  cycles : ∀ taken ∈ Flag.taken ImportCycles.modeFlag (Flag.left claims args 2),
    CycleMode.parse? taken.2.text = some s.cycles
  directory : ∀ taken ∈ Flag.taken PhaseTrace.directoryFlag (Flag.left claims args 4),
    s.directory? = some taken.2.text

/-- **What an accepted command line means**: every claim goes through, and the analyses are as their
settings say. -/
theorem accepted_claimFlags {args : List String}
    (h : (claimFlags all args).verdict = .ok ()) :
    Flag.AcceptsAll claims args ∧
      ∃ s : Settings, (claimFlags all args).plugins = s.plugins ∧ s.Follows args := by
  obtain ⟨p₁, args₁, hargs₁, h₁, hplugins₁, -⟩ := claimFlags_cons_eq_ok h
  obtain ⟨p₂, args₂, hargs₂, h₂, hplugins₂, -⟩ := claimFlags_cons_eq_ok h₁
  obtain ⟨p₃, args₃, hargs₃, h₃, hplugins₃, -⟩ := claimFlags_cons_eq_ok h₂
  obtain ⟨p₄, args₄, hargs₄, -, hplugins₄, -⟩ := claimFlags_cons_eq_ok h₃
  obtain ⟨strict, rfl, hstrict⟩ :=
    exists_of_relabelled (f := strictDeps) (x := StrictDeps.processArgs {} args) hargs₁
  obtain ⟨cycles, rfl, hcycles⟩ :=
    exists_of_relabelled (f := importCycles) (x := ImportCycles.processArgs {} args₁) hargs₂
  obtain ⟨names, rfl, hnames⟩ :=
    exists_of_relabelled (f := naming) (x := Naming.processArgs {} args₂) hargs₃
  obtain ⟨trace, rfl, htrace⟩ :=
    exists_of_relabelled (f := phaseTrace) (x := PhaseTrace.processArgs {} args₃) hargs₄
  obtain ⟨checks, mid, packages, hcheck, hchecks, hdirect, hstrict⟩ :=
    StrictDeps.processArgs_eq_ok hstrict
  obtain ⟨modes, hmode, hmodes, hcycles⟩ := ImportCycles.processArgs_eq_ok hcycles
  obtain ⟨present, hswitch⟩ := Naming.processArgs_eq_ok hnames
  obtain ⟨directories, hdirectory, hdirectories, htrace⟩ := PhaseTrace.processArgs_eq_ok htrace
  refine ⟨Flag.acceptsAll_of_restAll (restAll_claimFlags h),
    ⟨strict.mode, packages, cycles.mode, names.enabled, trace.directory?⟩, ?_, ?_⟩
  · rw [all, hplugins₁, hplugins₂, hplugins₃, hplugins₄, hstrict, hcycles, htrace]
    rfl
  · -- What each claim sees is what the one before it left.
    have hleft₀ : (Flag.left claims args 0).map Flag.Placed.text = args :=
      Flag.map_text_placed args
    rw [← hleft₀] at hcheck
    have hleft₁ : (Flag.left claims args 1).map Flag.Placed.text = mid :=
      Flag.map_text_leaveValued hcheck
    rw [← hleft₁] at hdirect
    have hleft₂ : (Flag.left claims args 2).map Flag.Placed.text = args₁ :=
      Flag.map_text_leaveValued hdirect
    rw [← hleft₂] at hmode
    have hleft₃ : (Flag.left claims args 3).map Flag.Placed.text = args₂ :=
      Flag.map_text_leaveValued hmode
    rw [← hleft₃] at hswitch
    have hnaming : (Flag.Claim.switch Naming.namingFlag).rest
        ((Flag.left claims args 3).map Flag.Placed.text) = .ok args₃ := by
      rw [Flag.Claim.rest, hswitch]
      rfl
    have hleft₄ : (Flag.left claims args 4).map Flag.Placed.text = args₃ :=
      Flag.Claim.map_text_leave hnaming
    rw [← hleft₄] at hdirectory
    constructor
    · intro taken htaken
      exact hchecks _ (Flag.mem_values_of_mem_taken hcheck htaken)
    · exact Flag.taken_sublist_values hdirect
    · intro taken htaken
      exact hmodes _ (Flag.mem_values_of_mem_taken hmode htaken)
    · intro taken htaken
      exact hdirectories _ (Flag.mem_values_of_mem_taken hdirectory htaken)

end Bundled

/-! ## Rejected, or read as it stands -/

/-- A run is over before it began: its command line is rejected. -/
def Run.Rejected {π : Type} (run : Run π) : Prop :=
  ∃ e, run.report.outcome = .invalidCommandLine e

theorem outcome_concluded_ne {π : Type} (verdict : Except Failure Unit) (done : Progress π)
    (e : FlagError) :
    (Compilation.concluded verdict done).report.outcome ≠ .invalidCommandLine e := by
  cases verdict with
  | ok _ => exact fun h => nomatch h
  | error f =>
    show Outcome.ofFailure f ≠ _
    unfold Outcome.ofFailure
    split
    · exact fun h => nomatch h
    · exact fun h => nomatch h

theorem Compilation.rejected_run_iff {π : Type} [Plugin π] (c : Compilation π)
    (args : List String) (files : Files) :
    (c.run args files).Rejected ↔ (claimFlags c.plugins args).verdict ≠ .ok () := by
  unfold Run.Rejected Compilation.run
  dsimp only
  split
  · next e hverdict =>
    rw [hverdict]
    constructor
    · intro _ h
      cases h
    · intro _
      exact ⟨e, rfl⟩
  · next hverdict =>
    rw [hverdict]
    constructor
    · rintro ⟨e, h⟩
      exact absurd h (outcome_concluded_ne _ _ e)
    · intro h
      exact absurd rfl h

namespace Bundled

theorem rejected_compile_iff (m : Manifest) (args : List String) (warningsAsErrors : Bool)
    (files : Files) :
    (Report.compile m args warningsAsErrors files).Rejected ↔
      (claimFlags all args).verdict ≠ .ok () := Compilation.rejected_run_iff _ _ _

/-- The bundled analyses read a command line as it stands: where it is accepted, each value that is
taken from a token of its own stood right behind its flag, and where a flag has no value there, it
is rejected. -/
def ReadsInPlace (args : List String) (run : Run Bundled) : Prop :=
  (¬ run.Rejected → Flag.InPlace claims args) ∧ (Flag.Dangling claims args → run.Rejected)

/-- **When a command line is read as it stands**: it is rejected, or no bare flag has a token right
behind it whose flag is claimed earlier. -/
theorem readsInPlace_iff (m : Manifest) (args : List String) (warningsAsErrors : Bool)
    (files : Files) :
    ReadsInPlace args (Report.compile m args warningsAsErrors files) ↔
      ((Report.compile m args warningsAsErrors files).Rejected ∨
        ¬ Flag.Obstructed claims args) := by
  unfold ReadsInPlace
  rw [rejected_compile_iff]
  by_cases hverdict : (claimFlags all args).verdict = .ok ()
  · -- Accepted command lines are those that the theory of claims speaks about.
    have haccepts := (accepted_claimFlags hverdict).1
    have hplace := Flag.inPlace_iff_not_obstructed distinguishable_claims haccepts
    have hdangling := Flag.dangling_iff_obstructed distinguishable_claims haccepts
    constructor
    · rintro ⟨hin, -⟩
      right
      exact hplace.mp (hin fun h => h hverdict)
    · rintro (h | hfree)
      · exact absurd hverdict h
      · refine ⟨fun _ => hplace.mpr hfree, ?_⟩
        intro h
        exact absurd (hdangling.mp h) hfree
  · constructor
    · intro _
      exact Or.inl hverdict
    · intro _
      exact ⟨fun h => absurd hverdict h, fun _ => hverdict⟩

/-- A command line that is accepted although `--direct-dep` has another flag right behind it: it
gets the value from behind that flag, which has been claimed before. -/
theorem value_taken_from_behind_flag :
    ¬ ReadsInPlace ["--direct-dep", "--check=strict", "com.lib"]
        (Report.compile {} ["--direct-dep", "--check=strict", "com.lib"] false {}) ∧
      (Report.compile {} ["--direct-dep", "--check=strict", "com.lib"] false {}).report.outcome =
        .completed .ok ∧
      (claimFlags all ["--direct-dep", "--check=strict", "com.lib"]).plugins =
        (Settings.mk .strict ["com.lib"] .warn false none).plugins := by
  have houtcome : (Report.compile {} ["--direct-dep", "--check=strict", "com.lib"] false
      {}).report.outcome = .completed .ok := by decide +kernel
  refine ⟨?_, houtcome, by decide +kernel⟩
  rintro ⟨-, hrejects⟩
  have hdangling : Flag.Dangling claims ["--direct-dep", "--check=strict", "com.lib"] := by
    refine ⟨"--direct-dep", by decide, 0, rfl, ?_⟩
    rintro next ⟨⟩
    decide
  obtain ⟨e, he⟩ := hrejects hdangling
  rw [houtcome] at he
  cases he

end Bundled

end AnalysisHost
