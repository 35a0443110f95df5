import AnalysisHost.Flag
import Mathlib.Data.List.Basic

/-!
# A command line in segments

Read from the left, a command line is a row of segments for a flag with values: the flag with its
value attached, the flag and the token behind it, or a token that is not of the flag (`Segment`).
Each command line is one row and no other (`segments_eq_iff`), and the claims can be read off it:

- `Reads.claimAll_eq_ok_iff`: every value is claimed if every segment gives its flag one;
- `claimOne_eq_ok_iff`, `claimOne_eq_error_iff`: one value is claimed if all of them are the same;
- `claimSwitch_eq_ok_iff`: a switch is claimed if no token attaches a value to it;
- `claims_by_segments`: all of that for every command line and every flag, the empty flag included.

What a claim leaves has no token of its flag, so the claim finds nothing in it (`Foreign`).
-/

namespace AnalysisHost.Flag

/-! ## Tokens of a flag

A token names a flag if it is the flag or starts with the flag and an equals sign. All other tokens
are foreign to it, and a list without any is left as it is by each of the three claims. -/

/-- A token is a flag, by itself or with a value attached. -/
def Names (flag token : String) : Prop :=
  token = flag ∨ ∃ value : String, token = flag ++ "=" ++ value

/-- A value is attached by an equals sign, and the rest of the token is the value. -/
theorem read_eq_attached_iff_eq {flag token value : String} :
    read flag token = .attached value ↔ token = flag ++ "=" ++ value := by
  rw [read_eq_attached_iff, ← String.toList_inj, String.toList_append, String.toList_append,
    List.append_assoc]
  rfl

/-- A token names a flag if the flag reads anything in it. -/
theorem names_iff {flag token : String} : Names flag token ↔ read flag token ≠ .other := by
  unfold Names
  rw [← read_eq_bare_iff]
  simp only [← read_eq_attached_iff_eq]
  cases read flag token <;> simp

/-- No token of a command line is of a flag. -/
def Foreign (flag : String) (args : List String) : Prop :=
  ∀ token ∈ args, read flag token = .other

section Foreign

variable {flag : String} {args : List String}

/-- A claim leaves foreign tokens alone. -/
theorem claimAll_of_foreign (h : Foreign flag args) : claimAll flag args = .ok ([], args) := by
  induction args with
  | nil => rfl
  | cons token tokens ih =>
    obtain ⟨htoken, hrest⟩ := List.forall_mem_cons.mp h
    rw [claimAll.eq_def]
    simp only [htoken]
    rw [ih hrest]
    rfl

theorem claimOne_of_foreign (h : Foreign flag args) : claimOne flag args = .ok (none, args) := by
  rw [claimOne, claimAll_of_foreign h]
  rfl

theorem claimSwitch_of_foreign (h : Foreign flag args) :
    claimSwitch flag args = .ok (false, args) := by
  induction args with
  | nil => rfl
  | cons token tokens ih =>
    obtain ⟨htoken, hrest⟩ := List.forall_mem_cons.mp h
    rw [claimSwitch, htoken, ih hrest]
    rfl

end Foreign

/-! ## Claims, one piece of a command line at a time

`Yields` says what a piece of a command line gives to a claim and leaves of itself, whatever stands
behind it. Pieces that yield can be put one behind the other. -/

/-- A claim takes some values from some tokens and leaves the rest of them, whatever is behind. -/
def Yields (flag : String) (tokens values left : List String) : Prop :=
  ∀ more, claimAll flag (tokens ++ more) =
    (claimAll flag more).map fun claimed => (values ++ claimed.1, left ++ claimed.2)

section Yields

variable {flag : String}

/-- An attached value is claimed with its token. -/
theorem yields_attached {value : String} (h : value.isEmpty = false) :
    Yields flag [flag ++ "=" ++ value] [value] [] := by
  intro more
  have hread : read flag (flag ++ "=" ++ value) = .attached value :=
    read_eq_attached_iff_eq.mpr rfl
  rw [List.singleton_append, claimAll.eq_def]
  simp only [hread, h]
  cases claimAll flag more <;> rfl

/-- A value of its own is claimed with the flag in front of it. -/
theorem yields_separate {value : String} (h : startsWithDash value = false) :
    Yields flag [flag, value] [value] [] := by
  intro more
  show claimAll flag (flag :: value :: more) = _
  rw [claimAll.eq_def]
  simp only [read_eq_bare_iff.mpr rfl, h]
  cases claimAll flag more <;> rfl

/-- Foreign tokens yield nothing and are all left. -/
theorem yields_of_foreign {tokens : List String} (h : Foreign flag tokens) :
    Yields flag tokens [] tokens := by
  intro more
  induction tokens with
  | nil => cases hmore : claimAll flag more <;> simp [hmore, Except.map]
  | cons token tokens ih =>
    obtain ⟨htoken, hrest⟩ := List.forall_mem_cons.mp h
    rw [List.cons_append, claimAll.eq_def]
    simp only [htoken]
    rw [ih hrest]
    cases claimAll flag more <;> rfl

/-- What is claimed of a row of pieces is claimed of each of them. -/
theorem claimAll_flatMap {α : Type} {tokens values left : α → List String} {as : List α}
    (h : ∀ a ∈ as, Yields flag (tokens a) (values a) (left a)) :
    claimAll flag (as.flatMap tokens) = .ok (as.flatMap values, as.flatMap left) := by
  induction as with
  | nil => rfl
  | cons a as ih =>
    obtain ⟨ha, hrest⟩ := List.forall_mem_cons.mp h
    rw [List.flatMap_cons, ha, ih hrest]
    rfl

end Yields

/-! ## Segments -/

/-- A piece of a command line, as the claim of a flag with values sees it. -/
inductive Segment where
  /-- The flag with a value attached. -/
  | attached (value : String)
  /-- The flag by itself, and the token behind it if there is one. -/
  | bare (next? : Option String)
  /-- A token that is not of the flag. -/
  | other (token : String)
  deriving DecidableEq, Repr

namespace Segment

def tokens (flag : String) : Segment → List String
  | .attached value => [flag ++ "=" ++ value]
  | .bare next? => flag :: next?.toList
  | .other token => [token]

/-- The value that a segment gives to its flag. -/
def value? : Segment → Option String
  | .attached value => some value
  | .bare next? => next?
  | .other _ => none

/-- The token of a segment that is not of the flag. -/
def token? : Segment → Option String
  | .attached _ | .bare _ => none
  | .other token => some token

/-- Where a segment has the flag, it gives it a value: one that is attached is not empty, and one in
a token of its own does not begin with a dash. -/
def Sound : Segment → Prop
  | .attached value => value ≠ ""
  | .bare next? => ∃ value, next? = some value ∧ startsWithDash value = false
  | .other _ => True

end Segment

/-- A row of segments is a command line, read from the left. -/
inductive Reads (flag : String) : List Segment → List String → Prop
  | nil : Reads flag [] []
  | attached {value : String} {row : List Segment} {args : List String} (h : Reads flag row args) :
      Reads flag (.attached value :: row) ((flag ++ "=" ++ value) :: args)
  | bare {value : String} {row : List Segment} {args : List String} (h : Reads flag row args) :
      Reads flag (.bare (some value) :: row) (flag :: value :: args)
  | last : Reads flag [.bare none] [flag]
  | other {token : String} {row : List Segment} {args : List String} (hother : ¬ Names flag token)
      (h : Reads flag row args) : Reads flag (.other token :: row) (token :: args)

def segments (flag : String) : List String → List Segment
  | [] => []
  | token :: rest =>
    match read flag token with
    | .attached value => .attached value :: segments flag rest
    | .bare =>
      match rest with
      | [] => [.bare none]
      | value :: rest => .bare (some value) :: segments flag rest
    | .other => .other token :: segments flag rest

section Reads

variable {flag : String} {row : List Segment} {args : List String}

/-- A command line is read as its segments. -/
theorem reads_segments (flag : String) (args : List String) :
    Reads flag (segments flag args) args := by
  fun_induction segments flag args with
  | case1 => exact .nil
  | case2 token rest value hread ih =>
    rw [read_eq_attached_iff_eq.mp hread]
    exact .attached ih
  | case3 token hread =>
    rw [read_eq_bare_iff.mp hread]
    exact .last
  | case4 token hread value rest ih =>
    rw [read_eq_bare_iff.mp hread]
    exact .bare ih
  | case5 token rest hread ih => exact .other (fun hnames => names_iff.mp hnames hread) ih

theorem read_of_not_names {token : String} (h : ¬ Names flag token) : read flag token = .other := by
  by_contra hread
  exact h (names_iff.mpr hread)

/-- It can be read in no other way. -/
theorem Reads.segments_eq (h : Reads flag row args) : segments flag args = row := by
  induction h with
  | nil => rfl
  | attached _ ih =>
    rw [segments.eq_def]
    simp only [read_eq_attached_iff_eq.mpr rfl, ih]
  | bare _ ih =>
    rw [segments.eq_def]
    simp only [read_eq_bare_iff.mpr rfl, ih]
  | last =>
    rw [segments.eq_def]
    simp only [read_eq_bare_iff.mpr rfl]
  | other hother _ ih =>
    rw [segments.eq_def]
    simp only [read_of_not_names hother, ih]

/-- **A command line is one row of segments and no other.** -/
theorem segments_eq_iff : segments flag args = row ↔ Reads flag row args := by
  constructor
  · rintro rfl
    exact reads_segments flag args
  · exact Reads.segments_eq

/-- The segments, put back in their places, are the command line. -/
theorem Reads.flatMap_tokens (h : Reads flag row args) :
    row.flatMap (Segment.tokens flag) = args := by
  induction h with
  | nil => rfl
  | attached _ ih => rw [List.flatMap_cons, ih]; rfl
  | bare _ ih => rw [List.flatMap_cons, ih]; rfl
  | last => rfl
  | other _ _ ih => rw [List.flatMap_cons, ih]; rfl

/-- What is no segment of the flag is foreign to it. -/
theorem Reads.foreign (h : Reads flag row args) : Foreign flag (row.filterMap Segment.token?) := by
  induction h with
  | nil => exact List.forall_mem_nil _
  | attached _ ih => exact ih
  | bare _ ih => exact ih
  | last => exact List.forall_mem_nil _
  | other hother _ ih => exact List.forall_mem_cons.mpr ⟨read_of_not_names hother, ih⟩

/-! ### Every value

The pieces that are sound yield; the first that is not is where the claim fails, so the flag names
its own error. -/

/-- A segment that gives its flag a value is claimed by itself. -/
theorem Reads.yields (h : Reads flag row args) {s : Segment} (hs : s ∈ row) (hsound : s.Sound) :
    Yields flag (s.tokens flag) s.value?.toList s.token?.toList := by
  cases s with
  | attached value =>
    apply yields_attached
    rw [Bool.eq_false_iff, ne_eq, String.isEmpty_iff]
    exact hsound
  | bare next? =>
    obtain ⟨value, rfl, hdash⟩ := hsound
    exact yields_separate hdash
  | other token =>
    have hother : read flag token = .other :=
      h.foreign token (List.mem_filterMap.mpr ⟨_, hs, rfl⟩)
    exact yields_of_foreign (List.forall_mem_singleton.mpr hother)

/-- Sound segments give their values and leave the tokens between them. -/
theorem Reads.claimAll_of_sound (h : Reads flag row args) (hsound : ∀ s ∈ row, s.Sound) :
    claimAll flag args =
      .ok (row.filterMap Segment.value?, row.filterMap Segment.token?) := by
  have hclaim := claimAll_flatMap fun s hs => h.yields hs (hsound s hs)
  rw [h.flatMap_tokens] at hclaim
  rw [hclaim, List.filterMap_eq_flatMap_toList, List.filterMap_eq_flatMap_toList]

/-- A flag without a value is missed, whatever is behind it. -/
theorem Reads.claimAll_of_not_sound (h : Reads flag row args) (hmissing : ¬ ∀ s ∈ row, s.Sound) :
    claimAll flag args = .error (.missingValue flag) := by
  induction h with
  | nil => exact absurd (List.forall_mem_nil _) hmissing
  | @attached value row args _ ih =>
    by_cases hempty : value.isEmpty
    · rw [claimAll.eq_def]
      simp only [read_eq_attached_iff_eq.mpr rfl, hempty]
      rfl
    · have hrest : ¬ ∀ s ∈ row, s.Sound := by
        intro hrest
        refine hmissing (List.forall_mem_cons.mpr ⟨?_, hrest⟩)
        show value ≠ ""
        rwa [String.isEmpty_iff] at hempty
      exact (yields_attached (Bool.eq_false_iff.mpr hempty) args).trans (by rw [ih hrest]; rfl)
  | @bare value row args _ ih =>
    cases hdash : startsWithDash value with
    | true =>
      rw [claimAll.eq_def]
      simp only [read_eq_bare_iff.mpr rfl, hdash]
      rfl
    | false =>
      have hrest : ¬ ∀ s ∈ row, s.Sound := fun hrest =>
        hmissing (List.forall_mem_cons.mpr ⟨⟨value, rfl, hdash⟩, hrest⟩)
      exact (yields_separate hdash args).trans (by rw [ih hrest]; rfl)
  | last =>
    rw [claimAll.eq_def]
    simp only [read_eq_bare_iff.mpr rfl]
  | @other token row args hother _ ih =>
    have hrest : ¬ ∀ s ∈ row, s.Sound := fun hrest =>
      hmissing (List.forall_mem_cons.mpr ⟨trivial, hrest⟩)
    have hforeign : Foreign flag [token] :=
      List.forall_mem_singleton.mpr (read_of_not_names hother)
    exact (yields_of_foreign hforeign args).trans (by rw [ih hrest]; rfl)

/-- **Every value is claimed** exactly where every segment is sound. -/
theorem Reads.claimAll_eq_ok_iff (h : Reads flag row args) {values others : List String} :
    claimAll flag args = .ok (values, others) ↔
      (∀ s ∈ row, s.Sound) ∧ values = row.filterMap Segment.value? ∧
        others = row.filterMap Segment.token? := by
  by_cases hsound : ∀ s ∈ row, s.Sound
  · rw [h.claimAll_of_sound hsound, Except.ok.injEq, Prod.mk.injEq, and_iff_right hsound,
      eq_comm, eq_comm (a := others)]
  · rw [h.claimAll_of_not_sound hsound]
    simp only [reduceCtorEq, hsound, false_and]

/-- Otherwise a value is missing, and there is no other error. -/
theorem Reads.claimAll_eq_error_iff (h : Reads flag row args) {e : FlagError} :
    claimAll flag args = .error e ↔ e = .missingValue flag ∧ ∃ s ∈ row, ¬ s.Sound := by
  by_cases hsound : ∀ s ∈ row, s.Sound
  · rw [h.claimAll_of_sound hsound]
    constructor
    · intro hclaim
      cases hclaim
    · rintro ⟨-, s, hs, hmissing⟩
      exact absurd (hsound s hs) hmissing
  · rw [h.claimAll_of_not_sound hsound, Except.error.injEq, eq_comm, iff_self_and]
    intro _
    simpa using hsound

end Reads

/-! ### One value

Where all values are claimed, one value is taken if they are all the same. If not, the first and the
first that differs from it are the conflict. -/

/-- The first of some values, and the first one that differs from it. -/
def Conflict (values : List String) (first second : String) : Prop :=
  ∃ front back, values = first :: (front ++ second :: back) ∧ (∀ v ∈ front, v = first) ∧
    second ≠ first

/-- Values are all the same, or one of them is the first that differs. -/
theorem same_or_conflict (values : List String) :
    (∀ v ∈ values, values.head? = some v) ∨ ∃ first second, Conflict values first second := by
  cases values with
  | nil => exact .inl (List.forall_mem_nil _)
  | cons first more =>
    cases hfind : more.find? fun v => decide (v ≠ first) with
    | none =>
      rw [List.find?_eq_none] at hfind
      refine .inl (List.forall_mem_cons.mpr ⟨rfl, ?_⟩)
      intro v hv
      have hsame : v = first := by simpa using hfind v hv
      rw [hsame, List.head?_cons]
    | some second =>
      obtain ⟨hsecond, front, back, rfl, hfront⟩ := List.find?_eq_some_iff_append.mp hfind
      refine .inr ⟨first, second, front, back, rfl, ?_, of_decide_eq_true hsecond⟩
      intro v hv
      simpa using hfront v hv

section One

variable {flag : String} {args values others : List String}

/-- What cannot be claimed at all cannot be claimed once. -/
theorem claimOne_of_error {e : FlagError} (h : claimAll flag args = .error e) :
    claimOne flag args = .error e := by
  rw [claimOne, h]
  rfl

/-- Values that are all the same are claimed as one. -/
theorem claimOne_of_same (h : claimAll flag args = .ok (values, others))
    (hsame : ∀ v ∈ values, values.head? = some v) :
    claimOne flag args = .ok (values.head?, others) := by
  rw [claimOne, h]
  cases values with
  | nil => rfl
  | cons first more =>
    have hnone : (more.find? fun v => decide (v ≠ first)) = none := by
      rw [List.find?_eq_none]
      intro v hv
      have hfirst := Option.some.inj (hsame v (List.mem_cons_of_mem _ hv))
      simp [hfirst]
    simp only [bind, Except.bind, hnone]
    rfl

/-- Values that differ are refused. -/
theorem claimOne_of_conflict (h : claimAll flag args = .ok (values, others))
    {first second : String} (hconflict : Conflict values first second) :
    claimOne flag args = .error (.conflicting flag first second) := by
  obtain ⟨front, back, rfl, hfront, hsecond⟩ := hconflict
  have hfind : (front ++ second :: back).find? (fun v => decide (v ≠ first)) = some second := by
    rw [List.find?_eq_some_iff_append]
    refine ⟨decide_eq_true hsecond, front, back, rfl, ?_⟩
    intro v hv
    simp [hfront v hv]
  rw [claimOne, h]
  simp only [bind, Except.bind, hfind]

theorem claimOne_eq_ok_iff {value? : Option String} :
    claimOne flag args = .ok (value?, others) ↔
      ∃ values, claimAll flag args = .ok (values, others) ∧
        (∀ v ∈ values, values.head? = some v) ∧ value? = values.head? := by
  constructor
  · intro hone
    cases hclaim : claimAll flag args with
    | error e =>
      rw [claimOne_of_error hclaim] at hone
      cases hone
    | ok claimed =>
      obtain ⟨values, left⟩ := claimed
      rcases same_or_conflict values with hsame | ⟨first, second, hconflict⟩
      · rw [claimOne_of_same hclaim hsame] at hone
        cases hone
        exact ⟨values, rfl, hsame, rfl⟩
      · rw [claimOne_of_conflict hclaim hconflict] at hone
        cases hone
  · rintro ⟨values, hclaim, hsame, rfl⟩
    exact claimOne_of_same hclaim hsame

/-- A missing value comes before a conflict. -/
theorem claimOne_eq_error_iff {e : FlagError} :
    claimOne flag args = .error e ↔
      claimAll flag args = .error e ∨
        ∃ values others first second, claimAll flag args = .ok (values, others) ∧
          Conflict values first second ∧ e = .conflicting flag first second := by
  constructor
  · intro hone
    cases hclaim : claimAll flag args with
    | error e' =>
      rw [claimOne_of_error hclaim] at hone
      cases hone
      exact .inl rfl
    | ok claimed =>
      obtain ⟨values, left⟩ := claimed
      rcases same_or_conflict values with hsame | ⟨first, second, hconflict⟩
      · rw [claimOne_of_same hclaim hsame] at hone
        cases hone
      · rw [claimOne_of_conflict hclaim hconflict] at hone
        cases hone
        exact .inr ⟨values, left, first, second, rfl, hconflict, rfl⟩
  · rintro (hclaim | ⟨values, others, first, second, hclaim, hconflict, rfl⟩)
    · exact claimOne_of_error hclaim
    · exact claimOne_of_conflict hclaim hconflict

variable {row : List Segment}

/-- **One value is claimed** exactly where the segments are sound and agree. -/
theorem Reads.claimOne_eq_ok_iff (h : Reads flag row args) {value? : Option String} :
    claimOne flag args = .ok (value?, others) ↔
      (∀ s ∈ row, s.Sound) ∧ others = row.filterMap Segment.token? ∧
        (∀ v ∈ row.filterMap Segment.value?, (row.filterMap Segment.value?).head? = some v) ∧
        value? = (row.filterMap Segment.value?).head? := by
  simp only [Flag.claimOne_eq_ok_iff, h.claimAll_eq_ok_iff]
  constructor
  · rintro ⟨values, ⟨hsound, rfl, hothers⟩, hsame, hvalue⟩
    exact ⟨hsound, hothers, hsame, hvalue⟩
  · rintro ⟨hsound, hothers, hsame, hvalue⟩
    exact ⟨_, ⟨hsound, rfl, hothers⟩, hsame, hvalue⟩

/-- A missing value comes before a conflict. -/
theorem Reads.claimOne_eq_error_iff (h : Reads flag row args) {e : FlagError} :
    claimOne flag args = .error e ↔
      (e = .missingValue flag ∧ ∃ s ∈ row, ¬ s.Sound) ∨
        (∀ s ∈ row, s.Sound) ∧ ∃ first second,
          Conflict (row.filterMap Segment.value?) first second ∧
            e = .conflicting flag first second := by
  simp only [Flag.claimOne_eq_error_iff, h.claimAll_eq_ok_iff, h.claimAll_eq_error_iff]
  refine or_congr_right ?_
  constructor
  · rintro ⟨values, others, first, second, ⟨hsound, rfl, -⟩, hconflict, he⟩
    exact ⟨hsound, first, second, hconflict, he⟩
  · rintro ⟨hsound, first, second, hconflict, he⟩
    exact ⟨_, _, first, second, ⟨hsound, rfl, rfl⟩, hconflict, he⟩

end One

/-! ### A switch

A switch has no value: it takes its bare tokens, and an attached value is an error, the first one
where there are several. -/

section Switch

variable {flag : String} {args : List String}

/-- The first attached value is the error, whatever stands behind it. -/
theorem claimSwitch_of_attached {front back : List String} {value : String}
    (hfront : ∀ v : String, flag ++ "=" ++ v ∉ front) :
    claimSwitch flag (front ++ (flag ++ "=" ++ value) :: back) =
      .error (.unexpectedValue flag value) := by
  induction front with
  | nil => rw [List.nil_append, claimSwitch, read_eq_attached_iff_eq.mpr rfl]
  | cons token front ih =>
    have hrest := ih fun v hv => hfront v (List.mem_cons_of_mem _ hv)
    rw [List.cons_append, claimSwitch, hrest]
    cases hread : read flag token with
    | attached v =>
      refine absurd ?_ (hfront v)
      rw [← read_eq_attached_iff_eq.mp hread]
      exact List.mem_cons_self
    | bare => rfl
    | other => rfl

/-- Without one, the switch is on if it stands anywhere, and all its tokens are taken. -/
theorem claimSwitch_of_plain (h : ∀ v : String, flag ++ "=" ++ v ∉ args) :
    claimSwitch flag args =
      .ok (decide (flag ∈ args), args.filter fun token => decide (token ≠ flag)) := by
  induction args with
  | nil => rfl
  | cons token args ih =>
    have hrest := ih fun v hv => h v (List.mem_cons_of_mem _ hv)
    rw [claimSwitch, hrest]
    cases hread : read flag token with
    | attached v =>
      refine absurd ?_ (h v)
      rw [← read_eq_attached_iff_eq.mp hread]
      exact List.mem_cons_self
    | bare =>
      rw [read_eq_bare_iff.mp hread]
      simp [bind, Except.bind, pure, Except.pure]
    | other =>
      have hne : token ≠ flag := by
        rw [ne_eq, ← read_eq_bare_iff, hread]
        exact Reading.noConfusion
      simp [bind, Except.bind, pure, Except.pure, hne, Ne.symm hne]

/-- No token attaches a value to the switch, or one of them is the first to do so. -/
theorem plain_or_attached (flag : String) (args : List String) :
    (∀ v : String, flag ++ "=" ++ v ∉ args) ∨
      ∃ front value back, args = front ++ (flag ++ "=" ++ value) :: back ∧
        ∀ v : String, flag ++ "=" ++ v ∉ front := by
  induction args with
  | nil => exact .inl fun _ => List.not_mem_nil
  | cons token args ih =>
    by_cases htoken : ∃ v : String, flag ++ "=" ++ v = token
    · obtain ⟨value, rfl⟩ := htoken
      exact .inr ⟨[], value, args, rfl, fun _ => List.not_mem_nil⟩
    · rw [not_exists] at htoken
      rcases ih with hplain | ⟨front, value, back, rfl, hfront⟩
      · exact .inl fun v => List.not_mem_cons_of_ne_of_not_mem (htoken v) (hplain v)
      · refine .inr ⟨token :: front, value, back, rfl, ?_⟩
        exact fun v => List.not_mem_cons_of_ne_of_not_mem (htoken v) (hfront v)

/-- **A switch is claimed** exactly where nothing is attached to it. -/
theorem claimSwitch_eq_ok_iff {present : Bool} {others : List String} :
    claimSwitch flag args = .ok (present, others) ↔
      (∀ v : String, flag ++ "=" ++ v ∉ args) ∧ present = decide (flag ∈ args) ∧
        others = args.filter fun token => decide (token ≠ flag) := by
  constructor
  · intro hswitch
    rcases plain_or_attached flag args with hplain | ⟨front, value, back, rfl, hfront⟩
    · rw [claimSwitch_of_plain hplain] at hswitch
      cases hswitch
      exact ⟨hplain, rfl, rfl⟩
    · rw [claimSwitch_of_attached hfront] at hswitch
      cases hswitch
  · rintro ⟨hplain, rfl, rfl⟩
    exact claimSwitch_of_plain hplain

theorem claimSwitch_eq_error_iff {e : FlagError} :
    claimSwitch flag args = .error e ↔
      ∃ front value back, args = front ++ (flag ++ "=" ++ value) :: back ∧
        (∀ v : String, flag ++ "=" ++ v ∉ front) ∧ e = .unexpectedValue flag value := by
  constructor
  · intro hswitch
    rcases plain_or_attached flag args with hplain | ⟨front, value, back, rfl, hfront⟩
    · rw [claimSwitch_of_plain hplain] at hswitch
      cases hswitch
    · rw [claimSwitch_of_attached hfront] at hswitch
      cases hswitch
      exact ⟨front, value, back, rfl, hfront, rfl⟩
  · rintro ⟨front, value, back, rfl, hfront, rfl⟩
    exact claimSwitch_of_attached hfront

end Switch

/-! ## All claims

No claim leaves a token of its own flag, so what it leaves can be claimed once more to no effect. -/

/-- What the claims of a flag make of a command line that reads as a row of segments. -/
structure ClaimsBySegments (flag : String) (row : List Segment) (args : List String) : Prop where
  /-- Nothing is lost: the segments in their places are the command line. -/
  rebuilt : row.flatMap (Segment.tokens flag) = args
  all_ok (values others : List String) : claimAll flag args = .ok (values, others) ↔
    (∀ s ∈ row, s.Sound) ∧ values = row.filterMap Segment.value? ∧
      others = row.filterMap Segment.token?
  all_error (e : FlagError) : claimAll flag args = .error e ↔
    e = .missingValue flag ∧ ∃ s ∈ row, ¬ s.Sound
  one_ok (value? : Option String) (others : List String) :
    claimOne flag args = .ok (value?, others) ↔
      (∀ s ∈ row, s.Sound) ∧ others = row.filterMap Segment.token? ∧
        (∀ v ∈ row.filterMap Segment.value?, (row.filterMap Segment.value?).head? = some v) ∧
        value? = (row.filterMap Segment.value?).head?
  /-- A missing value comes before a conflict. -/
  one_error (e : FlagError) : claimOne flag args = .error e ↔
    (e = .missingValue flag ∧ ∃ s ∈ row, ¬ s.Sound) ∨
      (∀ s ∈ row, s.Sound) ∧ ∃ first second,
        Conflict (row.filterMap Segment.value?) first second ∧ e = .conflicting flag first second
  /-- A switch has no values, so each of its tokens stands for itself. -/
  switch_ok (present : Bool) (others : List String) :
    claimSwitch flag args = .ok (present, others) ↔
      (∀ v : String, flag ++ "=" ++ v ∉ args) ∧ present = decide (flag ∈ args) ∧
        others = args.filter fun token => decide (token ≠ flag)
  switch_error (e : FlagError) : claimSwitch flag args = .error e ↔
    ∃ front value back, args = front ++ (flag ++ "=" ++ value) :: back ∧
      (∀ v : String, flag ++ "=" ++ v ∉ front) ∧ e = .unexpectedValue flag value
  /-- Claims find nothing in what they leave. -/
  all_again (values others : List String) (h : claimAll flag args = .ok (values, others)) :
    claimAll flag others = .ok ([], others)
  one_again (value? : Option String) (others : List String)
    (h : claimOne flag args = .ok (value?, others)) : claimOne flag others = .ok (none, others)
  switch_again (present : Bool) (others : List String)
    (h : claimSwitch flag args = .ok (present, others)) :
    claimSwitch flag others = .ok (false, others)

/-- What a claim of every value leaves has no token of the flag. -/
theorem foreign_of_claimAll {flag : String} {args values others : List String}
    (hclaim : claimAll flag args = .ok (values, others)) : Foreign flag others := by
  have h := reads_segments flag args
  obtain ⟨-, -, rfl⟩ := h.claimAll_eq_ok_iff.mp hclaim
  exact h.foreign

theorem foreign_of_claimSwitch {flag : String} {args others : List String} {present : Bool}
    (hclaim : claimSwitch flag args = .ok (present, others)) : Foreign flag others := by
  intro token htoken
  rw [claimSwitch_eq_ok hclaim] at htoken
  exact of_decide_eq_true (List.mem_filter.mp htoken).2

/-- **Claims go by segments**: every command line is one row of segments for a flag, whatever the
flag is, and the row tells what each claim takes, what it leaves and what it objects to. -/
theorem claims_by_segments (flag : String) (args : List String) :
    ∃ row, (∀ row', Reads flag row' args ↔ row' = row) ∧ ClaimsBySegments flag row args := by
  have h := reads_segments flag args
  refine ⟨segments flag args, fun row' => by rw [← segments_eq_iff, eq_comm], ?_⟩
  exact {
    rebuilt := h.flatMap_tokens
    all_ok := fun _ _ => h.claimAll_eq_ok_iff
    all_error := fun _ => h.claimAll_eq_error_iff
    one_ok := fun _ _ => h.claimOne_eq_ok_iff
    one_error := fun _ => h.claimOne_eq_error_iff
    switch_ok := fun _ _ => claimSwitch_eq_ok_iff
    switch_error := fun _ => claimSwitch_eq_error_iff
    all_again := fun _ _ hclaim => claimAll_of_foreign (foreign_of_claimAll hclaim)
    one_again := by
      intro value? others hone
      obtain ⟨values, hclaim, -⟩ := claimOne_eq_ok_iff.mp hone
      exact claimOne_of_foreign (foreign_of_claimAll hclaim)
    switch_again := fun _ _ hclaim => claimSwitch_of_foreign (foreign_of_claimSwitch hclaim) }

/-- For the empty flag, a token that begins with an equals sign attaches a value. -/
example : segments "" ["", "x", "=y", "z"] = [.bare (some "x"), .attached "y", .other "z"] := by
  decide +kernel

end AnalysisHost.Flag
