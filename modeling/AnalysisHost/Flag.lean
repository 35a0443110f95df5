import AnalysisHost.Text.Split

/-!
# Claiming flags

An analysis claims its own flags from a command line and leaves the rest, in their order, to whoever
comes next. Against one flag, a token reads in one of three ways (`Flag.Reading`): the flag itself,
the flag with a value attached by `=`, or something else. A flag that merely begins another token
(`--check` and `--checks`) is something else.

Three claims are built on that reading:

* `claimAll` — every value of a flag, attached or in the token that follows;
* `claimOne` — the same for a flag that has one value, which may be repeated but not contradicted;
* `claimSwitch` — whether a flag without a value is there.

A value in the following token may not begin with a dash, for then it is another flag.
-/

namespace AnalysisHost

/-- Why a command line is rejected. Each cause names the flag it is about. -/
inductive FlagError where
  | missingValue (flag : String)
  | invalidValue (flag value expected : String)
  | conflicting (flag first second : String)
  | unexpectedValue (flag value : String)
  deriving DecidableEq, Repr

namespace FlagError

def flag : FlagError → String
  | missingValue flag => flag
  | invalidValue flag _ _ => flag
  | conflicting flag _ _ => flag
  | unexpectedValue flag _ => flag

def message : FlagError → String
  | missingValue flag => s!"missing value for '{flag}'"
  | invalidValue flag value expected =>
    s!"invalid value '{value}' for '{flag}' (expected {expected})"
  | conflicting flag first second =>
    s!"conflicting values for '{flag}': '{first}' and '{second}'"
  | unexpectedValue flag value => s!"'{flag}' does not take a value (got '{value}')"

end FlagError

/-- A flag as an analysis advertises it. -/
structure FlagInfo where
  /-- The flag as typed, such as `--check`. -/
  name : String
  /-- A placeholder for the value; a switch has none. -/
  value? : Option String
  help : String
  deriving DecidableEq, Repr

namespace Flag

/-- What a token says about a flag. -/
inductive Reading where
  /-- The flag itself. -/
  | bare
  /-- The flag with a value attached by an equals sign. -/
  | attached (value : String)
  /-- Not this flag. -/
  | other
  deriving DecidableEq, Repr

def read (flag token : String) : Reading :=
  match Text.after? flag.toList token.toList with
  | some [] => .bare
  | some ('=' :: value) => .attached (String.ofList value)
  | _ => .other

theorem read_eq_bare_iff {flag token : String} : read flag token = .bare ↔ token = flag := by
  have h : token = flag ↔ Text.after? flag.toList token.toList = some [] := by
    rw [Text.after?_eq_some_iff, List.append_nil, String.toList_inj]
  rw [h]
  unfold read
  split <;> simp_all

theorem read_eq_attached_iff {flag token value : String} :
    read flag token = .attached value ↔ token.toList = flag.toList ++ '=' :: value.toList := by
  rw [← Text.after?_eq_some_iff]
  unfold read
  split
  · next h => simp [h]
  · next v h =>
    rw [h]
    constructor
    · intro e
      simp only [Reading.attached.injEq] at e
      simp [← e]
    · intro e
      simp only [Option.some.injEq, List.cons.injEq, true_and] at e
      simp [e]
  · next h =>
    constructor
    · intro e; exact absurd e (by simp)
    · intro e; exact absurd e (h _)

/-- Whether a token begins with a dash and so cannot be a value in a token of its own. -/
def startsWithDash (token : String) : Bool := token.toList.head? == some '-'

/-! ### The three claims -/

/-- Claim every value of a flag. The values come first, the unclaimed tokens second. -/
def claimAll (flag : String) : List String → Except FlagError (List String × List String)
  | [] => .ok ([], [])
  | token :: rest =>
    match read flag token with
    | .attached value =>
      if value.isEmpty then .error (.missingValue flag)
      else do
        let (values, others) ← claimAll flag rest
        return (value :: values, others)
    | .bare =>
      match rest with
      | [] => .error (.missingValue flag)
      | value :: rest =>
        if startsWithDash value then .error (.missingValue flag)
        else do
          let (values, others) ← claimAll flag rest
          return (value :: values, others)
    | .other => do
      let (values, others) ← claimAll flag rest
      return (values, token :: others)

/-- Claim a flag that has one value. Saying the same value again is allowed. -/
def claimOne (flag : String) (args : List String) :
    Except FlagError (Option String × List String) := do
  match ← claimAll flag args with
  | ([], others) => return (none, others)
  | (first :: more, others) =>
    match more.find? fun value => decide (value ≠ first) with
    | some second => .error (.conflicting flag first second)
    | none => return (some first, others)

def claimSwitch (flag : String) : List String → Except FlagError (Bool × List String)
  | [] => .ok (false, [])
  | token :: rest =>
    match read flag token with
    | .attached value => .error (.unexpectedValue flag value)
    | .bare => do
      let (_, others) ← claimSwitch flag rest
      return (true, others)
    | .other => do
      let (present, others) ← claimSwitch flag rest
      return (present, token :: others)

/-! ### What an accepted claim has seen

One lemma for each reading of the first token. -/

theorem claimAll_attached {flag token value : String} {tokens values others : List String}
    (h : read flag token = .attached value)
    (hok : claimAll flag (token :: tokens) = .ok (values, others)) :
    ∃ values', values = value :: values' ∧ claimAll flag tokens = .ok (values', others) := by
  rw [claimAll.eq_def] at hok
  simp only [h] at hok
  split at hok
  · cases hok
  · cases hrest : claimAll flag tokens with
    | error e => rw [hrest] at hok; cases hok
    | ok claimed => rw [hrest] at hok; cases hok; exact ⟨_, rfl, rfl⟩

theorem claimAll_bare {flag token : String} {tokens values others : List String}
    (h : read flag token = .bare)
    (hok : claimAll flag (token :: tokens) = .ok (values, others)) :
    ∃ value tokens' values', tokens = value :: tokens' ∧ startsWithDash value = false ∧
      values = value :: values' ∧ claimAll flag tokens' = .ok (values', others) := by
  rw [claimAll.eq_def] at hok
  simp only [h] at hok
  cases tokens with
  | nil => cases hok
  | cons value tokens =>
    dsimp only at hok
    split at hok
    · cases hok
    · next hdash =>
      cases hrest : claimAll flag tokens with
      | error e => rw [hrest] at hok; cases hok
      | ok claimed =>
        rw [hrest] at hok
        cases hok
        exact ⟨value, tokens, _, rfl, Bool.eq_false_iff.2 hdash, rfl, hrest⟩

theorem claimAll_other {flag token : String} {tokens values others : List String}
    (h : read flag token = .other)
    (hok : claimAll flag (token :: tokens) = .ok (values, others)) :
    ∃ others', others = token :: others' ∧ claimAll flag tokens = .ok (values, others') := by
  rw [claimAll.eq_def] at hok
  simp only [h] at hok
  cases hrest : claimAll flag tokens with
  | error e => rw [hrest] at hok; cases hok
  | ok claimed => rw [hrest] at hok; cases hok; exact ⟨_, rfl, rfl⟩

/-- A claim of one value leaves what the claim of every value leaves, and all of those are the
one. -/
theorem claimOne_eq_ok {flag : String} {tokens others : List String} {value? : Option String}
    (hok : claimOne flag tokens = .ok (value?, others)) :
    ∃ values, claimAll flag tokens = .ok (values, others) ∧ ∀ v ∈ values, value? = some v := by
  unfold claimOne at hok
  cases hclaim : claimAll flag tokens with
  | error e => rw [hclaim] at hok; cases hok
  | ok claimed =>
    obtain ⟨values, left⟩ := claimed
    rw [hclaim] at hok
    cases values with
    | nil => cases hok; exact ⟨[], rfl, by simp⟩
    | cons first more =>
      simp only [bind, Except.bind] at hok
      split at hok
      · cases hok
      · next hsame =>
        cases hok
        refine ⟨first :: more, rfl, ?_⟩
        intro v hv
        rcases List.mem_cons.mp hv with rfl | hv
        · rfl
        · have := List.find?_eq_none.mp hsame v hv
          simp only [decide_eq_true_eq, Decidable.not_not] at this
          rw [this]

/-- What an accepted claim of a switch leaves: all that is not the switch. -/
theorem claimSwitch_eq_ok {flag : String} {tokens others : List String} {present : Bool}
    (hok : claimSwitch flag tokens = .ok (present, others)) :
    others = tokens.filter fun token => decide (read flag token = .other) := by
  induction tokens generalizing others present with
  | nil => cases hok; rfl
  | cons token tokens ih =>
    rw [claimSwitch] at hok
    cases hread : read flag token with
    | attached value => rw [hread] at hok; cases hok
    | bare =>
      rw [hread] at hok
      cases hrest : claimSwitch flag tokens with
      | error e => rw [hrest] at hok; cases hok
      | ok claimed => rw [hrest] at hok; cases hok; simp [hread, ih hrest]
    | other =>
      rw [hread] at hok
      cases hrest : claimSwitch flag tokens with
      | error e => rw [hrest] at hok; cases hok
      | ok claimed => rw [hrest] at hok; cases hok; simp [hread, ih hrest]

/-! ### Values -/

/-- Read a value that must be one of a fixed set of choices. -/
def choose (parse : String → Option α) (flag value expected : String) : Except FlagError α :=
  match parse value with
  | some choice => .ok choice
  | none => .error (.invalidValue flag value expected)

theorem choose_eq_ok {parse : String → Option α} {flag value expected : String} {choice : α}
    (h : choose parse flag value expected = .ok choice) : parse value = some choice := by
  unfold choose at h
  split at h
  · next hparse => cases h; exact hparse
  · cases h

/-- Read an unsigned 32-bit number: decimal digits, after a plus sign if one likes. -/
def word32? (value : String) : Option UInt32 :=
  let digits := match value.toList with
    | '+' :: ds => ds
    | ds => ds
  if digits.isEmpty || !digits.all Char.isDigit then none
  else
    let n := digits.foldl (fun n d => 10 * n + (d.toNat - '0'.toNat)) 0
    if n < UInt32.size then some (UInt32.ofNat n) else none

end Flag

end AnalysisHost
