import AnalysisHost.HostInfo
import AnalysisHost.Proofs.Segments

/-!
# Looking options up, and claiming them

An analysis may claim a flag from a command line, and it may look an option of its host up. Both
read the same tokens, each by rules of its own: a claim goes on behind a value, refuses a value in a
token that begins with a dash, and wants all values to agree, while a look-up stops at the first
token of the flag and takes whatever is there.

- `HostInfo.hasOption_iff`: an option is present if some token is of its flag;
- `HostInfo.valueIn_of_reads`: it has the first value that a segment gives its flag;
- `HostInfo.finds_what_is_claimed`: look-ups find what a claim takes, and nothing in what it leaves.
-/

namespace AnalysisHost

namespace Flag

variable {flag : String} {row : List Segment} {args : List String}

/-- A segment that gives its flag no value, though it should where it has the flag, is a token of
somebody else. -/
theorem Segment.token?_of_value? {s : Segment} (hsound : s.Sound) (h : s.value? = none) :
    s.token?.toList = s.tokens flag := by
  cases s with
  | attached value => cases h
  | bare next? =>
    obtain ⟨value, rfl, -⟩ := hsound
    cases h
  | other token => rfl

/-- A claim that takes no value takes nothing. -/
theorem others_of_claimAll_nil {others : List String} (h : claimAll flag args = .ok ([], others)) :
    others = args := by
  have hreads := reads_segments flag args
  obtain ⟨hsound, hvalues, rfl⟩ := hreads.claimAll_eq_ok_iff.mp h
  have hnone := List.filterMap_eq_nil_iff.mp hvalues.symm
  calc
    (segments flag args).filterMap Segment.token?
      = (segments flag args).flatMap (·.token?.toList) :=
      List.filterMap_eq_flatMap_toList _ _
    _ = (segments flag args).flatMap (Segment.tokens flag) :=
      List.flatMap_congr fun s hs => Segment.token?_of_value? (hsound s hs) (hnone s hs)
    _ = args := hreads.flatMap_tokens

end Flag

namespace HostInfo

open AnalysisHost.Flag (Foreign Names Reads Segment)

variable {host : HostInfo} {flag : String}

/-! ## Presence -/

/-- What follows a flag in a token begins with an equals sign if the token attaches a value. -/
theorem after?_eq_attached_iff {option : String} :
    (∃ value, Text.after? flag.toList option.toList = some ('=' :: value)) ↔
      ∃ value : String, option = flag ++ "=" ++ value := by
  simp only [Text.after?_eq_some_iff, ← Flag.read_eq_attached_iff_eq, Flag.read_eq_attached_iff]
  constructor
  · rintro ⟨value, hvalue⟩
    exact ⟨String.ofList value, by rw [String.toList_ofList]; exact hvalue⟩
  · rintro ⟨value, hvalue⟩
    exact ⟨value.toList, hvalue⟩

theorem hasOption_iff :
    host.hasOption flag = true ↔ ∃ option ∈ host.options, Names flag option := by
  unfold hasOption Names
  rw [List.any_eq_true]
  refine exists_congr fun option => and_congr_right fun _ => ?_
  rw [Bool.or_eq_true, beq_iff_eq, ← after?_eq_attached_iff]
  refine or_congr_right ?_
  split
  · next value hafter => simp [hafter]
  · next hother => simpa using hother

theorem hasOption_eq_false_iff : host.hasOption flag = false ↔ Foreign flag host.options := by
  rw [Bool.eq_false_iff, ne_eq, hasOption_iff]
  simp only [Flag.names_iff, Foreign, not_exists, not_and, not_not]

/-! ## Values -/

theorem valueIn_attached (value : String) (options : List String) :
    valueIn flag ((flag ++ "=" ++ value) :: options) = some value := by
  have htoken : (flag ++ "=" ++ value).toList = flag.toList ++ '=' :: value.toList :=
    Flag.read_eq_attached_iff.mp (Flag.read_eq_attached_iff_eq.mpr rfl)
  have hne : flag ++ "=" ++ value ≠ flag := by
    intro heq
    have hlength := congrArg List.length htoken
    rw [heq, List.length_append, List.length_cons] at hlength
    omega
  rw [valueIn, if_neg hne, Text.after?_eq_some_iff.mpr htoken]
  exact congrArg some String.ofList_toList

theorem valueIn_bare (options : List String) : valueIn flag (flag :: options) = options.head? :=
  if_pos rfl

theorem valueIn_other {option : String} (h : ¬ Names flag option) (options : List String) :
    valueIn flag (option :: options) = valueIn flag options := by
  obtain ⟨hbare, hattached⟩ := not_or.mp h
  rw [valueIn, if_neg hbare]
  split
  · next value hafter => exact absurd (after?_eq_attached_iff.mp ⟨value, hafter⟩) hattached
  · rfl

/-- **An option has the first value that its flag is given**, where the options are read in
segments, as a claim reads them. -/
theorem valueIn_of_reads {row : List Segment} {options : List String} (h : Reads flag row options) :
    valueIn flag options = (row.filterMap Segment.value?).head? := by
  induction h with
  | nil => rfl
  | attached _ _ => exact valueIn_attached _ _
  | bare _ _ => exact valueIn_bare _
  | last => exact valueIn_bare []
  | other hother _ ih =>
    rw [valueIn_other hother, ih]
    rfl

theorem valueIn_of_foreign {options : List String} (h : Foreign flag options) :
    valueIn flag options = none := by
  induction options with
  | nil => rfl
  | cons option options ih =>
    obtain ⟨hoption, hrest⟩ := List.forall_mem_cons.mp h
    rw [valueIn_other fun hnames => Flag.names_iff.mp hnames hoption, ih hrest]

theorem optionValue_of_not_hasOption (h : host.hasOption flag = false) :
    host.optionValue flag = none := valueIn_of_foreign (hasOption_eq_false_iff.mp h)

/-- Only an option that is there has a value. -/
theorem hasOption_of_optionValue {value : String} (h : host.optionValue flag = some value) :
    host.hasOption flag = true := by
  rw [← Bool.not_eq_false]
  intro habsent
  rw [optionValue_of_not_hasOption habsent] at h
  cases h

/-! ## Look-ups and claims -/

/-- A host with other options. -/
def withOptions (host : HostInfo) (options : List String) : HostInfo := { host with options }

/-- What look-ups find of a flag, with all options and with what a claim of the flag leaves. -/
structure FindsClaimed (host : HostInfo) (flag : String) : Prop where
  /-- The value that is claimed is found. Once it is claimed, nothing is. -/
  taken (value : String) (rest : List String)
    (h : Flag.claimOne flag host.options = .ok (some value, rest)) :
    host.hasOption flag = true ∧ host.optionValue flag = some value ∧
      (host.withOptions rest).hasOption flag = false ∧
        (host.withOptions rest).optionValue flag = none
  /-- A claim that takes nothing leaves all of the options, and nothing is found in them. -/
  untaken (rest : List String) (h : Flag.claimOne flag host.options = .ok (none, rest)) :
    rest = host.options ∧ host.hasOption flag = false ∧ host.optionValue flag = none
  /-- Only an option that is there has a value, also where a claim is refused. -/
  present (value : String) (h : host.optionValue flag = some value) : host.hasOption flag = true

/-- **Look-ups find what a claim takes, and nothing in what it leaves**, whatever the options and
the flag are. -/
theorem finds_what_is_claimed (host : HostInfo) (flag : String) : FindsClaimed host flag where
  taken := by
    intro value rest h
    obtain ⟨values, hclaim, -, hvalue⟩ := Flag.claimOne_eq_ok_iff.mp h
    have hreads := Flag.reads_segments flag host.options
    have hfound : host.optionValue flag = some value := by
      obtain ⟨-, rfl, -⟩ := hreads.claimAll_eq_ok_iff.mp hclaim
      rw [hvalue]
      exact valueIn_of_reads hreads
    have habsent : (host.withOptions rest).hasOption flag = false :=
      hasOption_eq_false_iff.mpr (Flag.foreign_of_claimAll hclaim)
    exact ⟨hasOption_of_optionValue hfound, hfound, habsent, optionValue_of_not_hasOption habsent⟩
  untaken := by
    intro rest h
    obtain ⟨values, hclaim, -, hvalue⟩ := Flag.claimOne_eq_ok_iff.mp h
    obtain rfl := List.head?_eq_none_iff.mp hvalue.symm
    have hforeign := Flag.foreign_of_claimAll hclaim
    obtain rfl := Flag.others_of_claimAll_nil hclaim
    have habsent := hasOption_eq_false_iff.mpr hforeign
    exact ⟨rfl, habsent, optionValue_of_not_hasOption habsent⟩
  present := fun _ => hasOption_of_optionValue

/-- A value may look like the flag, and a flag may begin another token. -/
theorem finds_value_like_flag :
    let host : HostInfo := { name := "host", version := "1", options := ["dd", "d", "d", "d=d"] }
    Flag.claimOne "d" host.options = .ok (some "d", ["dd"]) ∧
      host.hasOption "d" = true ∧ host.optionValue "d" = some "d" ∧
      (host.withOptions ["dd"]).hasOption "d" = false ∧
      (host.withOptions ["dd"]).optionValue "d" = none := by
  intro host
  have hclaim : Flag.claimOne "d" host.options = .ok (some "d", ["dd"]) := by decide
  exact ⟨hclaim, (finds_what_is_claimed host "d").taken "d" ["dd"] hclaim⟩

end HostInfo

end AnalysisHost
