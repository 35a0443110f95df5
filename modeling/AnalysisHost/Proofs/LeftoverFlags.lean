import AnalysisHost.Proofs.BundledFlags
import AnalysisHost.Proofs.Segments

/-!
# What the analyses leave of a command line

The host keeps for itself what no analysis has claimed. A claim leaves no token of its own flag, and
claims only take away, so what all of them leave has no token of any of their flags
(`Flag.read_of_mem_left`). Claimed again, it stays as it is (`Bundled.claimFlags_of_foreign`).

In the other direction a claim takes tokens of its flag, and tokens behind them that begin with no
dash. So a token that begins with a dash and is none of the flags is never lost:
`Bundled.leaves_claimFlags`.
-/

namespace AnalysisHost

namespace Flag

/-! ## What claims leave -/

/-- A claim with a value leaves no token of its flag. -/
theorem read_of_mem_leaveValued {flag : String} {tokens : List Placed} {a : Placed}
    (h : a ∈ leaveValued flag tokens) : read flag a.text = .other := by
  fun_induction leaveValued flag tokens with
  | case1 => cases h
  | case2 token tokens value hread ih => exact ih h
  | case3 token hread => cases h
  | case4 token hread value tokens ih => exact ih h
  | case5 token tokens hread ih =>
    rcases List.mem_cons.mp h with rfl | h
    · exact hread
    · exact ih h

/-- No claim does. -/
theorem Claim.read_of_mem_leave {c : Claim} {tokens : List Placed} {a : Placed}
    (h : a ∈ c.leave tokens) : read c.flag a.text = .other := by
  cases c with
  | valued flag => exact read_of_mem_leaveValued h
  | switch flag => exact of_decide_eq_true (List.mem_filter.mp h).2

section Pipeline

variable {claims : List Claim} {args : List String}

/-- What is left is of no flag that has been claimed. -/
theorem read_of_mem_left {k : Nat} {a : Placed} (h : a ∈ left claims args k) {j : Nat}
    (hj : j < k) {c : Claim} (hc : claims[j]? = some c) : read c.flag a.text = .other := by
  induction k with
  | zero => exact absurd hj (Nat.not_lt_zero j)
  | succ k ih =>
    cases hk : claims[k]? with
    | none =>
      rw [left_succ_of_none hk] at h
      refine ih h (Nat.lt_of_le_of_ne (Nat.le_of_lt_succ hj) ?_)
      rintro rfl
      rw [hc] at hk
      cases hk
    | some d =>
      rw [left_succ hk] at h
      rcases Nat.lt_succ_iff_lt_or_eq.mp hj with hlt | rfl
      · exact ih ((d.leave_sublist _).subset h) hlt
      · rw [hc] at hk
        cases hk
        exact Claim.read_of_mem_leave h

/-- The tokens that all claims leave. -/
theorem map_text_left {others : List String} (h : restAll claims args = .ok others) :
    (left claims args claims.length).map Placed.text = others := by
  have hfold : ∀ tokens : List Placed, restAll claims (tokens.map Placed.text) = .ok others →
      (claims.foldl (fun tokens c => c.leave tokens) tokens).map Placed.text = others := by
    clear h
    induction claims with
    | nil =>
      rintro tokens ⟨⟩
      rfl
    | cons c claims ih =>
      intro tokens h
      rw [restAll] at h
      split at h
      · next mid hmid =>
        rw [← Claim.map_text_leave hmid] at h
        exact ih (c.leave tokens) h
      · cases h
  unfold left
  rw [List.take_length]
  apply hfold
  rw [map_text_placed]
  exact h

end Pipeline

end Flag

/-! ## Analyses and foreign tokens

A second pass meets no flag that is left, so it goes through `Flag.Foreign` for each analysis. -/

/-- The check sets no option where neither of its flags stands. -/
theorem StrictDeps.processArgs_of_foreign (p : StrictDeps) {args : List String}
    (hcheck : Flag.Foreign checkFlag args) (hdirect : Flag.Foreign directDepFlag args) :
    p.processArgs args = (.ok args, p) := by
  unfold processArgs
  rw [Flag.claimOne_of_foreign hcheck]
  dsimp only
  rw [Flag.claimAll_of_foreign hdirect]
  simp

theorem ImportCycles.processArgs_of_foreign (p : ImportCycles) {args : List String}
    (h : Flag.Foreign modeFlag args) : p.processArgs args = (.ok args, p) := by
  unfold processArgs
  rw [Flag.claimOne_of_foreign h]

theorem Naming.processArgs_of_foreign (p : Naming) {args : List String}
    (h : Flag.Foreign namingFlag args) : p.processArgs args = (.ok args, p) := by
  unfold processArgs
  rw [Flag.claimSwitch_of_foreign h]
  simp

theorem PhaseTrace.processArgs_of_foreign (p : PhaseTrace) {args : List String}
    (h : Flag.Foreign directoryFlag args) : p.processArgs args = (.ok args, p) := by
  unfold processArgs
  rw [Flag.claimOne_of_foreign h]

namespace Bundled

/-- **An analysis whose flags are all foreign** to a command line changes neither it nor itself. -/
theorem processArgs_of_foreign (p : Bundled) {args : List String}
    (h : ∀ c ∈ p.claimsOf, Flag.Foreign c.flag args) :
    Plugin.processArgs p args = (.ok args, p) := by
  cases p with
  | strictDeps p =>
    have hcheck := h (.valued StrictDeps.checkFlag) List.mem_cons_self
    have hdirect := h (.valued StrictDeps.directDepFlag)
      (List.mem_cons_of_mem _ (List.mem_singleton_self _))
    have hargs := p.processArgs_of_foreign hcheck hdirect
    show ((p.processArgs args).1, Bundled.strictDeps (p.processArgs args).2) = _
    rw [hargs]
  | importCycles p =>
    have hmode := h (.valued ImportCycles.modeFlag) (List.mem_singleton_self _)
    have hargs := p.processArgs_of_foreign hmode
    show ((p.processArgs args).1, Bundled.importCycles (p.processArgs args).2) = _
    rw [hargs]
  | naming p =>
    have hswitch := h (.switch Naming.namingFlag) (List.mem_singleton_self _)
    have hargs := p.processArgs_of_foreign hswitch
    show ((p.processArgs args).1, Bundled.naming (p.processArgs args).2) = _
    rw [hargs]
  | phaseTrace p =>
    have hdirectory := h (.valued PhaseTrace.directoryFlag) (List.mem_singleton_self _)
    have hargs := p.processArgs_of_foreign hdirectory
    show ((p.processArgs args).1, Bundled.phaseTrace (p.processArgs args).2) = _
    rw [hargs]

/-- A command line without any flag of some analyses leaves them alone, and they leave it alone. -/
theorem claimFlags_of_foreign {ps : List Bundled} {args : List String}
    (h : ∀ p ∈ ps, ∀ c ∈ p.claimsOf, Flag.Foreign c.flag args) :
    claimFlags ps args = ⟨.ok (), ps, args, ps.length⟩ := by
  induction ps with
  | nil => rfl
  | cons p ps ih =>
    obtain ⟨hp, hrest⟩ := List.forall_mem_cons.mp h
    have hargs := p.processArgs_of_foreign hp
    unfold claimFlags
    rw [sweep_cons_of_ok (by rw [hargs])]
    show ({ claimFlags ps args with
      plugins := p :: (claimFlags ps args).plugins
      calls := (claimFlags ps args).calls + 1 } : Sweep FlagError Bundled (List String)) = _
    rw [ih hrest]
    rfl

/-! ## The flags that are left -/

/-- The flags that the bundled analyses advertise. -/
def flags : List String := all.flatMap fun p => (Plugin.flags p).map FlagInfo.name

example : flags = ["--check", "--direct-dep", "--import-cycles", "--naming", "--trace-dir"] := rfl

/-- What the bundled analyses leave of a command line. -/
structure Leaves (args leftover : List String) : Prop where
  /-- Tokens of the command line, each in its place, are left. What is taken is a flag, or begins
  with no dash. -/
  tokens : ∃ kept : List Flag.Placed, kept.Sublist (Flag.placed args) ∧
    kept.map Flag.Placed.text = leftover ∧
    ∀ token ∈ Flag.placed args, token ∉ kept →
      (∃ flag ∈ flags, Flag.Names flag token.text) ∨ Flag.startsWithDash token.text = false
  sublist : leftover.Sublist args
  /-- No flag is left. -/
  foreign : ∀ flag ∈ flags, ∀ token ∈ leftover, ¬ Flag.Names flag token
  /-- Fresh analyses accept what is left, leave all of it, and stay as they are. -/
  again : claimFlags all leftover = ⟨.ok (), all, leftover, all.length⟩

/-- The flags are those of the claims. -/
theorem mem_flags_iff {flag : String} : flag ∈ flags ↔ ∃ c ∈ claims, c.flag = flag := by
  show flag ∈ claims.map Flag.Claim.flag ↔ _
  rw [List.mem_map]

/-- **What is left of an accepted command line** is all that is not meant for the analyses. -/
theorem leaves_claimFlags {args : List String} (h : (claimFlags all args).verdict = .ok ()) :
    Leaves args (claimFlags all args).lent := by
  have hrest : Flag.restAll claims args = .ok (claimFlags all args).lent := restAll_claimFlags h
  have haccepts := Flag.acceptsAll_of_restAll hrest
  have htext := Flag.map_text_left hrest
  have hforeign : ∀ c ∈ claims, Flag.Foreign c.flag (claimFlags all args).lent := by
    intro c hc token htoken
    rw [← htext] at htoken
    obtain ⟨a, ha, rfl⟩ := List.mem_map.mp htoken
    obtain ⟨j, hj, hget⟩ := List.mem_iff_getElem.mp hc
    exact Flag.read_of_mem_left ha hj (List.getElem?_eq_some_iff.mpr ⟨hj, hget⟩)
  have hsublist : (Flag.left claims args claims.length).Sublist (Flag.placed args) :=
    Flag.left_sublist _
  constructor
  · refine ⟨Flag.left claims args claims.length, hsublist, htext, ?_⟩
    intro token htoken hgone
    by_contra hlost
    push Not at hlost
    obtain ⟨hnames, hdash⟩ := hlost
    -- A token with a dash that is no flag gets past every claim.
    apply hgone
    apply Flag.mem_left haccepts htoken (by simpa using hdash)
    intro j _ c hc
    by_contra hread
    exact hnames c.flag (mem_flags_iff.mpr ⟨c, List.mem_of_getElem? hc, rfl⟩)
      (Flag.names_iff.mpr hread)
  · have htexts := hsublist.map Flag.Placed.text
    rw [htext, Flag.map_text_placed] at htexts
    exact htexts
  · intro flag hflag token htoken hnames
    obtain ⟨c, hc, rfl⟩ := mem_flags_iff.mp hflag
    exact Flag.names_iff.mp hnames (hforeign c hc token htoken)
  · apply claimFlags_of_foreign
    intro p hp c hc
    exact hforeign c (List.mem_flatMap.mpr ⟨p, hp, hc⟩)

/-- Options for somebody else, before a flag whose value has another flag in front of it. -/
theorem leaves_claimFlags_of_options :
    (claimFlags all ["-d", "out", "--direct-dep", "--check=strict", "com.lib"]).verdict = .ok () ∧
      Leaves ["-d", "out", "--direct-dep", "--check=strict", "com.lib"] ["-d", "out"] := by
  have hverdict : (claimFlags all
      ["-d", "out", "--direct-dep", "--check=strict", "com.lib"]).verdict = .ok () := by
    decide +kernel
  have hlent : (claimFlags all
      ["-d", "out", "--direct-dep", "--check=strict", "com.lib"]).lent = ["-d", "out"] := by
    decide +kernel
  have hleaves := leaves_claimFlags hverdict
  rw [hlent] at hleaves
  exact ⟨hverdict, hleaves⟩

end Bundled

end AnalysisHost
