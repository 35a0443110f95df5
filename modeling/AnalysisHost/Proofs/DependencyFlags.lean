import AnalysisHost.Proofs.FirstViolation
import AnalysisHost.Proofs.LeftoverFlags

/-!
# Declaring packages on the command line

A command line is looked at as a row of `Argument`s: the strict check is asked for, a package is
declared in one token or in two, or there is a token for somebody else. The strict check claims all
but the last kind (`StrictDeps.processArgs_arguments`), as every package of a valid manifest is also
a package name to it (`isPackageName_of_isQualified`). Whatever another analysis claims is a token
of the last kind (`exists_remains`), so the strict check finds its own arguments also behind others.
-/

namespace AnalysisHost

/-! ## Two grammars of packages

A package of a valid manifest is a package to the check as well, and looks like no flag. So it can
be declared in every form. -/

namespace StrictDeps

/-- An identifier of a manifest is a segment to the check, which allows more. -/
theorem isSegment_of_isIdentifier {part : List Char} (h : Manifest.IsIdentifier part) :
    isSegment part = true := by
  obtain ⟨c, cs, rfl, hstart, hchars, -⟩ := h
  unfold Manifest.isNameStart at hstart
  simp only [isSegment, Bool.and_eq_true, List.all_eq_true]
  constructor
  · simp only [Bool.or_eq_true] at hstart ⊢
    rcases hstart with (halpha | hunderscore) | hdollar
    · exact .inl (.inl (Text.isLetter_of_isAlpha halpha))
    · exact .inl (.inr hunderscore)
    · exact .inr hdollar
  · intro d hd
    have hchar := hchars d hd
    unfold Manifest.isNameChar Char.isAlphanum at hchar
    simp only [Bool.or_eq_true] at hchar ⊢
    rcases hchar with ((halpha | hdigit) | hunderscore) | hdollar
    · exact .inl (.inl (.inl (Text.isLetter_of_isAlpha halpha)))
    · exact .inl (.inl (.inr (Text.isNumeral_of_isDigit hdigit)))
    · exact .inl (.inr hunderscore)
    · exact .inr hdollar

/-- **A package of a manifest is a package on the command line.** -/
theorem isPackageName_of_isQualified {package : String}
    (h : Manifest.IsQualified package.toList) : isPackageName package = true := by
  unfold isPackageName
  rw [List.all_eq_true]
  intro part hpart
  exact isSegment_of_isIdentifier (Manifest.isQualified_iff.mp h part hpart)

/-- A package name is not empty, and it begins with no dash. -/
theorem exists_start {package : String} (h : isPackageName package = true) :
    ∃ c cs, package.toList = c :: cs ∧ c ≠ '-' := by
  have hparts := List.all_eq_true.mp h
  cases hname : package.toList with
  | nil =>
    rw [hname] at hparts
    cases hparts [] List.mem_cons_self
  | cons c cs =>
    refine ⟨c, cs, rfl, ?_⟩
    rintro rfl
    have hsegments : Text.segments '.' package.toList =
        Text.consFirst '-' (Text.segments '.' cs) := by rw [hname]; rfl
    rw [hsegments] at hparts
    -- The first part begins with the dash.
    cases hcs : Text.segments '.' cs with
    | nil => exact Text.segments_ne_nil '.' cs hcs
    | cons w ws =>
      rw [hcs] at hparts
      have hfirst := hparts ('-' :: w) List.mem_cons_self
      have hdash : (Text.isLetter '-' || '-' == '_' || '-' == '$') = false := by decide +kernel
      rw [isSegment, hdash] at hfirst
      cases hfirst

end StrictDeps

/-- A package is never taken for a flag, because it begins with no dash. -/
theorem Flag.startsWithDash_of_isPackageName {package : String}
    (h : StrictDeps.isPackageName package = true) : startsWithDash package = false := by
  obtain ⟨c, cs, hname, hdash⟩ := StrictDeps.exists_start h
  simp [startsWithDash, hname, hdash]

/-- The empty text is no package, so a value that is a package is there. -/
theorem String.isEmpty_of_isPackageName {package : String}
    (h : StrictDeps.isPackageName package = true) : package.isEmpty = false := by
  obtain ⟨c, cs, hname, -⟩ := StrictDeps.exists_start h
  rw [Bool.eq_false_iff, ne_eq, String.isEmpty_iff]
  rintro rfl
  cases hname

/-- No package name is read as a flag. -/
theorem Flag.read_of_isPackageName {flag package : String} (hflag : startsWithDash flag = true)
    (h : StrictDeps.isPackageName package = true) : read flag package = .other := by
  by_contra hread
  have hdash := startsWithDash_of_read hflag hread
  rw [startsWithDash_of_isPackageName h] at hdash
  cases hdash

/-! ## Tokens of another flag -/

namespace Flag

/-- A token whose front is neither begun by a flag nor the beginning of it is not of the flag,
whatever the rest of the token is. -/
theorem read_of_incomparable {flag front : String} (h : ¬ flag.toList <+: front.toList)
    (h' : ¬ front.toList <+: flag.toList) (rest : String) : read flag (front ++ rest) = .other := by
  by_contra hread
  have hprefix : flag.toList <+: (front ++ rest).toList := by
    cases hcase : read flag (front ++ rest) with
    | bare => rw [read_eq_bare_iff.mp hcase]
    | attached value => exact ⟨_, (read_eq_attached_iff.mp hcase).symm⟩
    | other => exact absurd hcase hread
  have hfront : front.toList <+: (front ++ rest).toList := by
    rw [String.toList_append]
    exact List.prefix_append _ _
  rcases List.prefix_or_prefix_of_prefix hprefix hfront with hcase | hcase
  · exact h hcase
  · exact h' hcase

/-- A value that is there, and no other. -/
theorem claimOne_of_forall_eq {flag value : String} {args values others : List String}
    (h : claimAll flag args = .ok (values, others)) (hmem : value ∈ values)
    (hsame : ∀ v ∈ values, v = value) : claimOne flag args = .ok (some value, others) := by
  have hhead : values.head? = some value := by
    cases values with
    | nil => cases hmem
    | cons first more => rw [List.head?_cons, hsame first List.mem_cons_self]
  rw [← hhead]
  apply claimOne_of_same h
  intro v hv
  rw [hhead, hsame v hv]

end Flag

/-! ## Arguments

A command line is seen as a row of arguments: the mode, declarations in either form, and tokens for
others. What the claims of the check take is read off the row. -/

/-- A piece of a command line, as the strict dependency check sees it. -/
inductive Argument where
  /-- The check is to be strict. -/
  | strict
  /-- A package is declared, in one token. -/
  | attached (package : String)
  /-- A package is declared, in two tokens. -/
  | separate (package : String)
  /-- A token for somebody else. -/
  | other (token : String)
  deriving DecidableEq, Repr

namespace Argument

def tokens : Argument → List String
  | .strict => ["--check=strict"]
  | .attached package => ["--direct-dep=" ++ package]
  | .separate package => ["--direct-dep", package]
  | .other token => [token]

def package? : Argument → Option String
  | .attached package => some package
  | .separate package => some package
  | .strict | .other _ => none

def token? : Argument → Option String
  | .other token => some token
  | .strict | .attached _ | .separate _ => none

/-- The packages are packages, and what is for somebody else has none of the flags. -/
def Sound : Argument → Prop
  | .attached package => Manifest.IsQualified package.toList
  | .separate package => Manifest.IsQualified package.toList
  | .other token =>
    Flag.read StrictDeps.checkFlag token = .other ∧
      Flag.read StrictDeps.directDepFlag token = .other
  | .strict => True

/-! ### Claimed by the check -/

/-- What a piece says of the mode of the check. -/
def modes : Argument → List String
  | .strict => ["strict"]
  | .attached _ | .separate _ | .other _ => []

/-- What is left of a piece once the mode has been claimed. -/
def unmoded : Argument → List String
  | .strict => []
  | .attached package => (attached package).tokens
  | .separate package => (separate package).tokens
  | .other token => [token]

/-- A flag that is read in no token that declares a package. -/
structure Unrelated (flag : String) : Prop where
  dash : Flag.startsWithDash flag = true
  bare : Flag.read flag "--direct-dep" = .other
  attached : ∀ package, Flag.read flag ("--direct-dep=" ++ package) = .other

theorem unrelated_check : Unrelated StrictDeps.checkFlag where
  dash := by decide
  bare := by decide
  attached := Flag.read_of_incomparable (by decide) (by decide)

/-- A flag that is read in no declaration finds nothing in the tokens of one, whatever its package
is. -/
theorem foreign_tokens {flag : String} (hflag : Unrelated flag) {a : Argument} (hsound : a.Sound)
    (ha : a.package?.isSome) : Flag.Foreign flag a.tokens := by
  cases a with
  | strict => cases ha
  | other token => cases ha
  | attached package =>
    intro token htoken
    rw [List.mem_singleton.mp htoken]
    exact hflag.attached package
  | separate package =>
    have hpackage := Flag.read_of_isPackageName hflag.dash
      (StrictDeps.isPackageName_of_isQualified hsound)
    exact List.forall_mem_cons.mpr ⟨hflag.bare, List.forall_mem_singleton.mpr hpackage⟩

/-- The mode is claimed from each argument by itself. -/
theorem yields_check {a : Argument} (h : a.Sound) :
    Flag.Yields StrictDeps.checkFlag a.tokens a.modes a.unmoded := by
  cases a with
  | strict =>
    show Flag.Yields _ [StrictDeps.checkFlag ++ "=" ++ "strict"] ["strict"] []
    exact Flag.yields_attached rfl
  | attached package => exact Flag.yields_of_foreign (foreign_tokens unrelated_check h rfl)
  | separate package => exact Flag.yields_of_foreign (foreign_tokens unrelated_check h rfl)
  | other token => exact Flag.yields_of_foreign (List.forall_mem_singleton.mpr h.1)

/-- So is the package, from what the claim of the mode has left. -/
theorem yields_directDep {a : Argument} (h : a.Sound) :
    Flag.Yields StrictDeps.directDepFlag a.unmoded a.package?.toList a.token?.toList := by
  cases a with
  | strict => exact Flag.yields_of_foreign (List.forall_mem_nil _)
  | attached package =>
    apply Flag.yields_attached
    exact String.isEmpty_of_isPackageName (StrictDeps.isPackageName_of_isQualified h)
  | separate package =>
    apply Flag.yields_separate
    exact Flag.startsWithDash_of_isPackageName (StrictDeps.isPackageName_of_isQualified h)
  | other token => exact Flag.yields_of_foreign (List.forall_mem_singleton.mpr h.2)

end Argument

/-- **The check claims every argument of its own.** It leaves the tokens for somebody else, in their
order. -/
theorem StrictDeps.processArgs_arguments (p : StrictDeps) {arguments : List Argument}
    (hsound : ∀ a ∈ arguments, a.Sound) (hstrict : .strict ∈ arguments) :
    p.processArgs (arguments.flatMap Argument.tokens) =
      (.ok (arguments.filterMap Argument.token?),
        { p with
          mode := .strict
          direct := p.direct ++ arguments.filterMap Argument.package? }) := by
  have hmode : Flag.claimOne checkFlag (arguments.flatMap Argument.tokens) =
      .ok (some "strict", arguments.flatMap Argument.unmoded) := by
    apply Flag.claimOne_of_forall_eq
      (Flag.claimAll_flatMap fun a ha => Argument.yields_check (hsound a ha))
    · exact List.mem_flatMap.mpr ⟨.strict, hstrict, List.mem_singleton_self _⟩
    · intro v hv
      obtain ⟨a, -, hva⟩ := List.mem_flatMap.mp hv
      cases a with
      | strict => exact List.mem_singleton.mp hva
      | attached package => cases hva
      | separate package => cases hva
      | other token => cases hva
  have hpackages := Flag.claimAll_flatMap fun a ha => Argument.yields_directDep (hsound a ha)
  have hnames : (arguments.filterMap Argument.package?).find? (fun name => !isPackageName name) =
      none := by
    rw [List.find?_eq_none]
    intro package hpackage
    obtain ⟨a, ha, heq⟩ := List.mem_filterMap.mp hpackage
    have hqualified : Manifest.IsQualified package.toList := by
      have := hsound a ha
      cases a <;> cases heq <;> exact this
    simp [isPackageName_of_isQualified hqualified]
  simp only [← List.filterMap_eq_flatMap_toList] at hpackages
  unfold processArgs
  rw [hmode]
  dsimp only
  rw [hpackages]
  dsimp only
  rw [hnames]
  rfl

/-! ## Claimed by others

Other analyses may claim before the check does. They take whole tokens that are not for the check,
so what they leave is a row of arguments again (`Remains`). -/

namespace Argument

/-- What somebody else has left of a row of arguments: all of them, but for some tokens that were
not for the check. -/
structure Remains (arguments left : List Argument) : Prop where
  sublist : left.Sublist arguments
  own : ∀ a ∈ arguments, a.token? = none → a ∈ left

namespace Remains

variable {arguments left : List Argument}

theorem refl (arguments : List Argument) : Remains arguments arguments where
  sublist := List.Sublist.refl _
  own _ ha _ := ha

theorem keep (h : Remains arguments left) (a : Argument) :
    Remains (a :: arguments) (a :: left) where
  sublist := h.sublist.cons_cons a
  own := by
    intro b hb hown
    rcases List.mem_cons.mp hb with rfl | hmem
    · exact List.mem_cons_self
    · exact List.mem_cons_of_mem a (h.own b hmem hown)

/-- A token that was for somebody else may be gone. -/
theorem drop (h : Remains arguments left) (token : String) :
    Remains (.other token :: arguments) left where
  sublist := h.sublist.cons _
  own := by
    intro b hb hown
    rcases List.mem_cons.mp hb with rfl | hmem
    · cases hown
    · exact h.own b hmem hown

end Remains

/-- A flag that the check does not know. -/
structure Elsewhere (flag : String) : Prop extends Unrelated flag where
  strict : Flag.read flag "--check=strict" = .other

/-- Of a given flag it can be decided that the check does not know it. -/
theorem Elsewhere.of_incomparable {flag : String}
    (h : Flag.startsWithDash flag = true ∧ Flag.read flag "--direct-dep" = .other ∧
      Flag.read flag "--check=strict" = .other)
    (hattached : ¬ flag.toList <+: "--direct-dep=".toList ∧
      ¬ "--direct-dep=".toList <+: flag.toList) :
    Elsewhere flag where
  dash := h.1
  bare := h.2.1
  attached := Flag.read_of_incomparable hattached.1 hattached.2
  strict := h.2.2

/-- Such a flag takes nothing of an argument that is for the check. -/
theorem Elsewhere.foreign {flag : String} (hflag : Elsewhere flag) {a : Argument} (hsound : a.Sound)
    (hown : a.token? = none) : Flag.Foreign flag a.tokens := by
  cases a with
  | strict => exact List.forall_mem_singleton.mpr hflag.strict
  | attached package => exact foreign_tokens hflag.toUnrelated hsound rfl
  | separate package => exact foreign_tokens hflag.toUnrelated hsound rfl
  | other token => cases hown

theorem eq_other_of_token? {a : Argument} {token : String} (h : a.token? = some token) :
    a = .other token := by
  cases a <;> cases h
  rfl

/-- An argument of the check begins with a dash. -/
theorem exists_tokens_eq {a : Argument} (hown : a.token? = none) :
    ∃ first rest, a.tokens = first :: rest ∧ Flag.startsWithDash first = true := by
  cases a with
  | strict => exact ⟨_, _, rfl, rfl⟩
  | attached package =>
    refine ⟨_, _, rfl, ?_⟩
    simp [Flag.startsWithDash, String.toList_append]
  | separate package => exact ⟨_, _, rfl, rfl⟩
  | other token => cases hown

/-- **Another flag with values takes none of the arguments of the check**, neither as the flag nor
as its value. -/
theorem exists_remains_of_claimAll {flag : String} (hflag : Elsewhere flag)
    {arguments : List Argument} (hsound : ∀ a ∈ arguments, a.Sound) {values others : List String}
    (h : Flag.claimAll flag (arguments.flatMap tokens) = .ok (values, others)) :
    ∃ left, others = left.flatMap tokens ∧ Remains arguments left := by
  -- The value of a flag is in the next argument, so two of them may go at once.
  induction hn : arguments.length using Nat.strong_induction_on generalizing arguments values others
    with
  | _ n ih =>
    cases arguments with
    | nil =>
      cases h
      exact ⟨[], rfl, .refl []⟩
    | cons a arguments =>
      obtain ⟨ha, hrest⟩ := List.forall_mem_cons.mp hsound
      have hlt : arguments.length < n := by
        rw [← hn]
        exact Nat.lt_succ_self _
      rw [List.flatMap_cons] at h
      cases htoken : a.token? with
      | none =>
        rw [Flag.yields_of_foreign (hflag.foreign ha htoken)] at h
        cases hclaim : Flag.claimAll flag (arguments.flatMap tokens) with
        | error e =>
          rw [hclaim] at h
          cases h
        | ok claimed =>
          rw [hclaim] at h
          cases h
          obtain ⟨left, hleft, hremains⟩ := ih _ hlt hrest hclaim rfl
          refine ⟨a :: left, ?_, hremains.keep a⟩
          rw [List.flatMap_cons, ← hleft]
      | some token =>
        obtain rfl := eq_other_of_token? htoken
        cases hread : Flag.read flag token with
        | other =>
          obtain ⟨others', rfl, hclaim⟩ := Flag.claimAll_other hread h
          obtain ⟨left, rfl, hremains⟩ := ih _ hlt hrest hclaim rfl
          exact ⟨.other token :: left, rfl, hremains.keep _⟩
        | attached value =>
          obtain ⟨values', -, hclaim⟩ := Flag.claimAll_attached hread h
          obtain ⟨left, rfl, hremains⟩ := ih _ hlt hrest hclaim rfl
          exact ⟨left, rfl, hremains.drop token⟩
        | bare =>
          obtain ⟨value, tokens', values', htokens, hdash, -, hclaim⟩ := Flag.claimAll_bare hread h
          cases arguments with
          | nil => cases htokens
          | cons b arguments =>
            rw [List.flatMap_cons] at htokens
            cases hb : b.token? with
            | none =>
              obtain ⟨first, more, hfirst, hfirstDash⟩ := exists_tokens_eq hb
              rw [hfirst] at htokens
              cases htokens
              rw [hfirstDash] at hdash
              cases hdash
            | some token' =>
              obtain rfl := eq_other_of_token? hb
              cases htokens
              obtain ⟨left, rfl, hremains⟩ :=
                ih _ (Nat.lt_of_succ_lt hlt) (List.forall_mem_cons.mp hrest).2 hclaim rfl
              exact ⟨left, rfl, (hremains.drop _).drop token⟩

theorem exists_remains_of_claimSwitch {flag : String} (hflag : Elsewhere flag)
    {arguments : List Argument} (hsound : ∀ a ∈ arguments, a.Sound) {present : Bool}
    {others : List String}
    (h : Flag.claimSwitch flag (arguments.flatMap tokens) = .ok (present, others)) :
    ∃ left, others = left.flatMap tokens ∧ Remains arguments left := by
  rw [Flag.claimSwitch_eq_ok h]
  clear h
  induction arguments with
  | nil => exact ⟨[], rfl, .refl []⟩
  | cons a arguments ih =>
    obtain ⟨ha, hrest⟩ := List.forall_mem_cons.mp hsound
    obtain ⟨left, hleft, hremains⟩ := ih hrest
    rw [List.flatMap_cons, List.filter_append, hleft]
    cases htoken : a.token? with
    | none =>
      have hforeign := hflag.foreign ha htoken
      refine ⟨a :: left, ?_, hremains.keep a⟩
      rw [List.flatMap_cons,
        List.filter_eq_self.mpr fun token ht => decide_eq_true (hforeign token ht)]
    | some token =>
      obtain rfl := eq_other_of_token? htoken
      by_cases hread : Flag.read flag token = .other
      · refine ⟨.other token :: left, ?_, hremains.keep _⟩
        simp [tokens, hread]
      · refine ⟨left, ?_, hremains.drop token⟩
        simp [tokens, hread]

/-- Whatever another analysis claims, arguments are left as arguments. -/
theorem exists_remains_of_rest {c : Flag.Claim} (hflag : Elsewhere c.flag)
    {arguments : List Argument} (hsound : ∀ a ∈ arguments, a.Sound) {others : List String}
    (h : c.rest (arguments.flatMap tokens) = .ok others) :
    ∃ left, others = left.flatMap tokens ∧ Remains arguments left := by
  cases c with
  | valued flag =>
    cases hclaim : Flag.claimAll flag (arguments.flatMap tokens) with
    | error e => simp [Flag.Claim.rest, hclaim, Except.map] at h
    | ok claimed =>
      simp only [Flag.Claim.rest, hclaim, Except.map, Except.ok.injEq] at h
      subst h
      exact exists_remains_of_claimAll hflag hsound hclaim
  | switch flag =>
    cases hclaim : Flag.claimSwitch flag (arguments.flatMap tokens) with
    | error e => simp [Flag.Claim.rest, hclaim, Except.map] at h
    | ok claimed =>
      simp only [Flag.Claim.rest, hclaim, Except.map, Except.ok.injEq] at h
      subst h
      exact exists_remains_of_claimSwitch hflag hsound hclaim

/-- **Every other analysis leaves the check its arguments.** -/
theorem exists_remains {p p' : Bundled} (hp : Plugin.name p ≠ StrictDeps.analysisName)
    {arguments : List Argument} (hsound : ∀ a ∈ arguments, a.Sound) {others : List String}
    (h : Plugin.processArgs p (arguments.flatMap tokens) = (.ok others, p')) :
    ∃ left, others = left.flatMap tokens ∧ Remains arguments left := by
  have hone : ∃ c, p.claimsOf = [c] ∧ Elsewhere c.flag := by
    cases p with
    | strictDeps p => exact absurd rfl hp
    | importCycles p => exact ⟨_, rfl, .of_incomparable (by decide) (by decide)⟩
    | naming p => exact ⟨_, rfl, .of_incomparable (by decide) (by decide)⟩
    | phaseTrace p => exact ⟨_, rfl, .of_incomparable (by decide) (by decide)⟩
  obtain ⟨c, hclaims, hflag⟩ := hone
  have hrest := Bundled.restAll_of_processArgs h
  rw [hclaims, Flag.restAll] at hrest
  split at hrest
  · next left hleft =>
    cases hrest
    exact exists_remains_of_rest hflag hsound hleft
  · cases hrest

end Argument

end AnalysisHost
