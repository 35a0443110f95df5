import AnalysisHost.Proofs.BundledFlags
import AnalysisHost.Proofs.Segments

/-!
# Analyses that refuse their flags

An analysis that finds something wrong with its flags is left as it was, with one exception: the
strict dependency check takes its mode before it looks at packages, and keeps it if those are
refused (`StrictDeps.RefusedAfterMode`). `Bundled.keptOnRefusal_iff` says that there is no other,
for every analysis in every state and for every command line, and `Bundled.mode_of_refused_flags`
is one such command line.
-/

namespace AnalysisHost

namespace StrictDeps

open AnalysisHost.Flag (Segment)

/-! ## A mode, and packages that are refused -/

/-- The values of some segments. -/
abbrev valuesOf (row : List Segment) : List String := row.filterMap Segment.value?

/-- The `--check` flags of a command line are in order, and they say one mode. -/
def SaysMode (args : List String) (mode : CheckMode) (rest : List String) : Prop :=
  ∃ row, Flag.Reads checkFlag row args ∧ (∀ s ∈ row, s.Sound) ∧
    rest = row.filterMap Segment.token? ∧
    ∃ value ∈ valuesOf row, (∀ v ∈ valuesOf row, v = value) ∧ CheckMode.parse? value = some mode

/-- A `--direct-dep` has no value, or one that is no package name. -/
def RefusesPackages (args : List String) : Prop :=
  ∃ row, Flag.Reads directDepFlag row args ∧
    ((∃ s ∈ row, ¬ s.Sound) ∨ ∃ name ∈ valuesOf row, isPackageName name = false)

/-- A command line says a mode, and what is left of it is refused. -/
def RefusedAfterMode (args : List String) (mode : CheckMode) : Prop :=
  ∃ rest, SaysMode args mode rest ∧ RefusesPackages rest

theorem saysMode_iff {args rest : List String} {mode : CheckMode} :
    SaysMode args mode rest ↔
      ∃ value, Flag.claimOne checkFlag args = .ok (some value, rest) ∧
        CheckMode.parse? value = some mode := by
  constructor
  · rintro ⟨row, hreads, hsound, hrest, value, hvalue, hsame, hmode⟩
    have hhead : (valuesOf row).head? = some value := by
      cases hvalues : valuesOf row with
      | nil => exact absurd (hvalues ▸ hvalue) List.not_mem_nil
      | cons first more => rw [List.head?_cons, hsame first (hvalues ▸ List.mem_cons_self)]
    refine ⟨value, hreads.claimOne_eq_ok_iff.mpr ⟨hsound, hrest, ?_, hhead.symm⟩, hmode⟩
    intro v hv
    rw [hsame v hv]
    exact hhead
  · rintro ⟨value, hclaim, hmode⟩
    have hreads := Flag.reads_segments checkFlag args
    obtain ⟨hsound, hrest, hsame, hhead⟩ := hreads.claimOne_eq_ok_iff.mp hclaim
    refine ⟨_, hreads, hsound, hrest, value, List.mem_of_head? hhead.symm, ?_, hmode⟩
    intro v hv
    exact Option.some.inj ((hsame v hv).symm.trans hhead.symm)

theorem refusesPackages_iff {args : List String} :
    RefusesPackages args ↔
      (∃ e, Flag.claimAll directDepFlag args = .error e) ∨
        ∃ packages others, Flag.claimAll directDepFlag args = .ok (packages, others) ∧
          ∃ name ∈ packages, isPackageName name = false := by
  constructor
  · rintro ⟨row, hreads, hrefused⟩
    by_cases hsound : ∀ s ∈ row, s.Sound
    · rcases hrefused with ⟨s, hs, hmissing⟩ | hname
      · exact absurd (hsound s hs) hmissing
      · exact .inr ⟨_, _, hreads.claimAll_of_sound hsound, hname⟩
    · exact .inl ⟨_, hreads.claimAll_of_not_sound hsound⟩
  · have hreads := Flag.reads_segments directDepFlag args
    rintro (⟨e, hclaim⟩ | ⟨packages, others, hclaim, hname⟩)
    · exact ⟨_, hreads, .inl (hreads.claimAll_eq_error_iff.mp hclaim).2⟩
    · obtain ⟨-, rfl, -⟩ := hreads.claimAll_eq_ok_iff.mp hclaim
      exact ⟨_, hreads, .inr hname⟩

/-! ## What a refusal leaves -/

variable {p p' : StrictDeps} {args rest : List String} {mode : CheckMode}

/-- The mode is there to stay when packages are refused. -/
theorem processArgs_of_refusedAfterMode (h : RefusedAfterMode args mode) :
    ∃ e, p.processArgs args = (.error e, { p with mode }) := by
  obtain ⟨rest, hmode, hpackages⟩ := h
  obtain ⟨value, hclaim, hparse⟩ := saysMode_iff.mp hmode
  have hchoose : Flag.choose CheckMode.parse? checkFlag value "strict, warn or off" = .ok mode := by
    rw [Flag.choose, hparse]
  unfold processArgs
  rw [hclaim]
  dsimp only
  rw [hchoose]
  dsimp only
  rcases refusesPackages_iff.mp hpackages with ⟨e, hall⟩ | ⟨packages, others, hall, hname⟩
  · rw [hall]
    exact ⟨e, rfl⟩
  · rw [hall]
    dsimp only
    split
    · exact ⟨_, rfl⟩
    · next hnone =>
      obtain ⟨name, hmem, hbad⟩ := hname
      have hgood := List.find?_eq_none.mp hnone name hmem
      rw [hbad] at hgood
      exact absurd rfl hgood

/-- Refused flags change nothing but the mode, and that only if it is packages that are wrong. -/
theorem processArgs_eq_error {e : FlagError} (h : p.processArgs args = (.error e, p')) :
    p' = p ∨ ∃ mode, RefusedAfterMode args mode ∧ p' = { p with mode } := by
  unfold processArgs at h
  split at h
  · cases h
    exact .inl rfl
  · next mode? rest hclaim =>
    dsimp only at h
    split at h
    · cases h
      exact .inl rfl
    · next mode hmode =>
      have hrefused : RefusesPackages rest ∧ p' = { p with mode } := by
        rw [refusesPackages_iff]
        split at h
        · next hall =>
          cases h
          exact ⟨.inl ⟨_, hall⟩, rfl⟩
        · next packages others hall =>
          split at h
          · next bad hfind =>
            cases h
            refine ⟨.inr ⟨packages, others, hall, bad, List.mem_of_find?_eq_some hfind, ?_⟩, rfl⟩
            simpa using List.find?_some hfind
          · cases h
      obtain ⟨hpackages, rfl⟩ := hrefused
      cases mode? with
      | none =>
        cases hmode
        exact .inl rfl
      | some value =>
        have hsays := saysMode_iff.mpr ⟨value, hclaim, Flag.choose_eq_ok hmode⟩
        exact .inr ⟨mode, ⟨rest, hsays, hpackages⟩, rfl⟩

end StrictDeps

theorem ImportCycles.processArgs_eq_error {p p' : ImportCycles} {args : List String} {e : FlagError}
    (h : p.processArgs args = (.error e, p')) : p' = p := by
  unfold processArgs at h
  split at h
  · cases h
    rfl
  · cases h
  · split at h
    · cases h
      rfl
    · cases h

theorem Naming.processArgs_eq_error {p p' : Naming} {args : List String} {e : FlagError}
    (h : p.processArgs args = (.error e, p')) : p' = p := by
  unfold processArgs at h
  split at h
  · cases h
    rfl
  · cases h

theorem PhaseTrace.processArgs_eq_error {p p' : PhaseTrace} {args : List String} {e : FlagError}
    (h : p.processArgs args = (.error e, p')) : p' = p := by
  unfold processArgs at h
  split at h
  · cases h
    rfl
  · cases h
  · cases h

namespace Bundled

/-! ## All analyses -/

/-- If an analysis refuses a command line, then it stays as it is. -/
def KeptOnRefusal (p : Bundled) (args : List String) : Prop :=
  ∀ e p', Plugin.processArgs p args = (.error e, p') → p' = p

theorem strictDeps_keptOnRefusal_iff (p : StrictDeps) (args : List String) :
    (strictDeps p).KeptOnRefusal args ↔
      ∀ mode, StrictDeps.RefusedAfterMode args mode → mode = p.mode := by
  constructor
  · intro h mode hmode
    obtain ⟨e, hargs⟩ := StrictDeps.processArgs_of_refusedAfterMode (p := p) hmode
    have hkept := h e (strictDeps { p with mode }) (by
      show ((p.processArgs args).1, strictDeps (p.processArgs args).2) = _
      rw [hargs])
    exact congrArg StrictDeps.mode (strictDeps.inj hkept)
  · intro h e q hargs
    obtain ⟨p', rfl, hown⟩ := exists_of_relabelled (f := strictDeps) (x := p.processArgs args) hargs
    rcases StrictDeps.processArgs_eq_error hown with rfl | ⟨mode, hmode, rfl⟩
    · rfl
    · rw [h mode hmode]

/-- **When a refusal leaves everything as it was**: always, except that the strict dependency check
takes a mode from a command line on which it refuses the packages. -/
theorem keptOnRefusal_iff (p : Bundled) (args : List String) :
    p.KeptOnRefusal args ↔
      ∀ s mode, p = strictDeps s → StrictDeps.RefusedAfterMode args mode → mode = s.mode := by
  cases p with
  | strictDeps p =>
    rw [strictDeps_keptOnRefusal_iff]
    constructor
    · rintro h _ mode ⟨⟩
      exact h mode
    · exact fun h mode => h p mode rfl
  | importCycles p =>
    refine iff_of_true (fun e q hargs => ?_) fun _ _ h => Bundled.noConfusion h
    obtain ⟨p', rfl, hown⟩ :=
      exists_of_relabelled (f := importCycles) (x := p.processArgs args) hargs
    rw [ImportCycles.processArgs_eq_error hown]
  | naming p =>
    refine iff_of_true (fun e q hargs => ?_) fun _ _ h => Bundled.noConfusion h
    obtain ⟨p', rfl, hown⟩ := exists_of_relabelled (f := naming) (x := p.processArgs args) hargs
    rw [Naming.processArgs_eq_error hown]
  | phaseTrace p =>
    refine iff_of_true (fun e q hargs => ?_) fun _ _ h => Bundled.noConfusion h
    obtain ⟨p', rfl, hown⟩ :=
      exists_of_relabelled (f := phaseTrace) (x := p.processArgs args) hargs
    rw [PhaseTrace.processArgs_eq_error hown]

/-- The mode is set, and the package behind it is refused. -/
theorem mode_of_refused_flags :
    Plugin.processArgs (strictDeps {}) ["--check=strict", "--direct-dep=com..lib"] =
        (.error (.invalidValue "--direct-dep" "com..lib" "a qualified package name"),
          strictDeps { mode := .strict }) ∧
      ¬ (strictDeps {}).KeptOnRefusal ["--check=strict", "--direct-dep=com..lib"] := by
  have hargs : Plugin.processArgs (strictDeps {}) ["--check=strict", "--direct-dep=com..lib"] =
      (.error (.invalidValue "--direct-dep" "com..lib" "a qualified package name"),
        strictDeps { mode := .strict }) := by
    decide +kernel
  refine ⟨hargs, fun h => ?_⟩
  have hkept := h _ _ hargs
  cases hkept

end Bundled

end AnalysisHost
