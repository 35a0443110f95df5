import AnalysisHost.Proofs.DependencyFlags
import Mathlib.Computability.Language

/-!
# Grammars of packages

Three checks say what a package is: the naming conventions, the checks of a manifest, and the strict
dependency check, where packages are declared. Each cuts at the dots and looks at the parts. Here
the conventions are stated as regular languages (`Naming.packageForm`, `Naming.typeForm`), and the
three are compared.

- `Naming.mem_packageForm_iff`, `Naming.mem_typeForm_iff`: the checks recognize these languages;
- `StrictDeps.canDeclare_of_isPackageName`: what is a package to the strict check can be declared to it;
- `Manifest.qualifiedFault?_of_packageForm`: a conventional package is refused in a manifest only for
  a reserved word;
- `Naming.names_are_checked`: what is reported of a unit, and how the three are nested.
-/

namespace AnalysisHost

open scoped Computability

namespace Naming

/-! ## Languages

Regular languages over characters, from Mathlib: a class of characters, repetition, and parts with a
separator between them. -/

/-- The texts of one character. -/
def oneOf (p : Char → Prop) : Language Char := {w | ∃ c, p c ∧ w = [c]}

abbrev IsLower (c : Char) : Prop := 'a' ≤ c ∧ c ≤ 'z'

abbrev IsUpper (c : Char) : Prop := 'A' ≤ c ∧ c ≤ 'Z'

abbrev IsDigit (c : Char) : Prop := '0' ≤ c ∧ c ≤ '9'

/-- `[a-z][a-z0-9_]*` -/
def segmentForm : Language Char :=
  oneOf IsLower * (oneOf fun c => IsLower c ∨ IsDigit c ∨ c = '_')∗

/-- Segments with dots between them. -/
def packageForm : Language Char := segmentForm * (oneOf (· = '.') * segmentForm)∗

/-- `[A-Z][A-Za-z0-9]*` -/
def typeForm : Language Char :=
  oneOf IsUpper * (oneOf fun c => IsUpper c ∨ IsLower c ∨ IsDigit c)∗

section Languages

variable {p : Char → Prop} {l : Language Char} {w : List Char}

/-- A word of such a product is a character and a word behind it. -/
theorem mem_oneOf_mul : w ∈ oneOf p * l ↔ ∃ c cs, w = c :: cs ∧ p c ∧ cs ∈ l := by
  rw [Language.mem_mul]
  constructor
  · rintro ⟨_, ⟨c, hc, rfl⟩, cs, hcs, rfl⟩
    exact ⟨c, cs, rfl, hc, hcs⟩
  · rintro ⟨c, cs, rfl, hc, hcs⟩
    exact ⟨[c], ⟨c, hc, rfl⟩, cs, hcs, rfl⟩

/-- A word over some characters has only these in it. -/
theorem mem_kstar_oneOf : w ∈ (oneOf p)∗ ↔ ∀ c ∈ w, p c := by
  rw [Language.mem_kstar]
  constructor
  · rintro ⟨pieces, rfl, hpieces⟩ c hc
    obtain ⟨piece, hpiece, hmem⟩ := List.mem_flatten.mp hc
    obtain ⟨d, hd, rfl⟩ := hpieces piece hpiece
    rw [List.mem_singleton.mp hmem]
    exact hd
  · intro h
    refine ⟨w.map fun c => [c], ?_, ?_⟩
    · rw [← List.flatMap_def, List.flatMap_singleton']
    intro piece hpiece
    obtain ⟨c, hc, rfl⟩ := List.mem_map.mp hpiece
    exact ⟨c, h c hc, rfl⟩

/-- Joined pieces are the first one and then the others, each with the separator in front. -/
theorem join_cons (sep : Char) (first : List Char) (parts : List (List Char)) :
    Text.join sep (first :: parts) = first ++ (parts.map (sep :: ·)).flatten := by
  induction parts generalizing first with
  | nil => exact (List.append_nil first).symm
  | cons part parts ih =>
    show first ++ sep :: Text.join sep (part :: parts) = _
    rw [ih]
    rfl

/-- Texts of a language, with separators between them. -/
theorem mem_separated {sep : Char} :
    w ∈ l * (oneOf (· = sep) * l)∗ ↔
      ∃ parts : List (List Char), parts ≠ [] ∧ (∀ part ∈ parts, part ∈ l) ∧
        w = Text.join sep parts := by
  simp only [Language.mem_mul (l := l), Language.mem_kstar]
  constructor
  · rintro ⟨first, hfirst, _, ⟨pieces, rfl, hpieces⟩, rfl⟩
    have hpart : ∀ piece ∈ pieces, piece.tail ∈ l ∧ sep :: piece.tail = piece := by
      intro piece hpiece
      obtain ⟨c, part, rfl, rfl, hpart⟩ := mem_oneOf_mul.mp (hpieces piece hpiece)
      exact ⟨hpart, rfl⟩
    refine ⟨first :: pieces.map List.tail, List.cons_ne_nil _ _, ?_, ?_⟩
    · intro part hmem
      rcases List.mem_cons.mp hmem with rfl | hmem
      · exact hfirst
      · obtain ⟨piece, hpiece, rfl⟩ := List.mem_map.mp hmem
        exact (hpart piece hpiece).1
    · rw [join_cons, List.map_map]
      congr 2
      conv_lhs => rw [← List.map_id pieces]
      exact List.map_congr_left fun piece hpiece => (hpart piece hpiece).2.symm
  · rintro ⟨parts, hne, hparts, rfl⟩
    obtain ⟨first, rest, rfl⟩ := List.exists_cons_of_ne_nil hne
    obtain ⟨hfirst, hrest⟩ := List.forall_mem_cons.mp hparts
    refine ⟨first, hfirst, _, ⟨rest.map (sep :: ·), rfl, ?_⟩, (join_cons sep first rest).symm⟩
    intro piece hpiece
    obtain ⟨part, hpart, rfl⟩ := List.mem_map.mp hpiece
    exact mem_oneOf_mul.mpr ⟨sep, part, rfl, rfl, hrest part hpart⟩

end Languages

/-! ## The checks recognize the languages -/

theorem isLower_iff {c : Char} : c.isLower = true ↔ IsLower c := by
  show (decide ('a' ≤ c) && decide (c ≤ 'z')) = true ↔ _
  rw [Bool.and_eq_true, decide_eq_true_iff, decide_eq_true_iff]

theorem isUpper_iff {c : Char} : c.isUpper = true ↔ IsUpper c := decide_eq_true_iff

theorem isDigit_iff {c : Char} : c.isDigit = true ↔ IsDigit c := by
  show (decide ('0' ≤ c) && decide (c ≤ '9')) = true ↔ _
  rw [Bool.and_eq_true, decide_eq_true_iff, decide_eq_true_iff]

theorem isAlpha_iff {c : Char} : c.isAlpha = true ↔ IsUpper c ∨ IsLower c := by
  show (c.isUpper || c.isLower) = true ↔ _
  rw [Bool.or_eq_true, isUpper_iff, isLower_iff]

/-- The test of the library for letters and digits, as classes of characters. -/
theorem isAlphanum_iff {c : Char} : c.isAlphanum = true ↔ IsUpper c ∨ IsLower c ∨ IsDigit c := by
  show (c.isAlpha || c.isDigit) = true ↔ _
  rw [Bool.or_eq_true, isAlpha_iff, isDigit_iff, or_assoc]

/-- A part is of the form if it begins with a small letter and goes on with small letters and
digits, or underscores. -/
theorem mem_segmentForm_iff {w : List Char} :
    w ∈ segmentForm ↔ isPackageSegment w = true := by
  rw [segmentForm, mem_oneOf_mul]
  simp only [mem_kstar_oneOf, ← isLower_iff, ← isDigit_iff]
  cases w with
  | nil => simp [isPackageSegment]
  | cons c cs => simp [isPackageSegment, or_assoc]

/-- A part has no dot in it, so the parts of a package can be told from its text. -/
theorem dot_not_mem_of_segmentForm {w : List Char} (h : w ∈ segmentForm) : '.' ∉ w := by
  obtain ⟨c, cs, rfl, hc, hcs⟩ := mem_oneOf_mul.mp h
  intro hdot
  rcases List.mem_cons.mp hdot with rfl | hmem
  · exact absurd hc (by decide)
  · exact absurd (mem_kstar_oneOf.mp hcs _ hmem) (by decide)

/-- A package is of the form if all of its parts are. -/
theorem mem_packageForm_iff_parts {w : List Char} :
    w ∈ packageForm ↔ ∀ part ∈ Text.segments '.' w, part ∈ segmentForm := by
  rw [packageForm, mem_separated]
  constructor
  · rintro ⟨parts, hne, hparts, rfl⟩
    rw [Text.segments_join hne fun part hpart => dot_not_mem_of_segmentForm (hparts part hpart)]
    exact hparts
  · intro h
    exact ⟨_, Text.segments_ne_nil '.' w, h, (Text.join_segments '.' w).symm⟩

/-- **The check of packages recognizes the language of packages.** -/
theorem mem_packageForm_iff {package : String} :
    package.toList ∈ packageForm ↔ isPackageName package = true := by
  rw [mem_packageForm_iff_parts, isPackageName, List.all_eq_true]
  simp only [mem_segmentForm_iff]

/-- **The check of types recognizes the language of types.** -/
theorem mem_typeForm_iff {type : String} : type.toList ∈ typeForm ↔ isTypeName type = true := by
  rw [typeForm, mem_oneOf_mul, isTypeName]
  simp only [mem_kstar_oneOf, ← isAlphanum_iff]
  simp only [← isUpper_iff]
  cases type.toList with
  | nil => simp
  | cons c cs => simp

instance (package : String) : Decidable (package.toList ∈ packageForm) :=
  decidable_of_iff _ mem_packageForm_iff.symm

instance (type : String) : Decidable (type.toList ∈ typeForm) :=
  decidable_of_iff _ mem_typeForm_iff.symm

end Naming

/-! ## The other grammars

Nesting goes from the conventions outwards: what is conventional can be declared, and is refused by
a manifest only where a part is a reserved word. -/

namespace StrictDeps

open Naming (segmentForm packageForm mem_packageForm_iff_parts)

/-- The strict check asks less of a part than the conventions do. -/
theorem isSegment_of_segmentForm {part : List Char} (h : part ∈ segmentForm) :
    isSegment part = true := by
  obtain ⟨c, cs, rfl, hc, hcs⟩ := Naming.mem_oneOf_mul.mp h
  have hstart : c.isAlpha = true := Naming.isAlpha_iff.mpr (.inr hc)
  simp only [isSegment, Text.isLetter_of_isAlpha hstart, Bool.true_or, Bool.true_and,
    List.all_eq_true]
  intro d hd
  rcases Naming.mem_kstar_oneOf.mp hcs d hd with hlower | hdigit | rfl
  · have halpha : d.isAlpha = true := Naming.isAlpha_iff.mpr (.inr hlower)
    simp [Text.isLetter_of_isAlpha halpha]
  · simp [Text.isNumeral_of_isDigit (Naming.isDigit_iff.mpr hdigit)]
  · simp

/-- So a conventional package is a package to the strict check. -/
theorem isPackageName_of_packageForm {package : String} (h : package.toList ∈ packageForm) :
    isPackageName package = true := by
  rw [isPackageName, List.all_eq_true]
  intro part hpart
  exact isSegment_of_segmentForm (mem_packageForm_iff_parts.mp h part hpart)

/-- A package can be declared to the strict check, in one token or in two, whatever the check has
been told before. -/
def CanDeclare (package : String) : Prop :=
  ∀ p : StrictDeps,
    p.processArgs ["--direct-dep=" ++ package] =
        (.ok [], { p with direct := p.direct ++ [package] }) ∧
      p.processArgs ["--direct-dep", package] =
        (.ok [], { p with direct := p.direct ++ [package] })

/-- Declarations that are all packages are added to those from before. -/
theorem processArgs_of_packages (p : StrictDeps) {args rest packages : List String}
    (hcheck : Flag.Foreign checkFlag args)
    (hdirect : Flag.claimAll directDepFlag args = .ok (packages, rest))
    (hnames : ∀ package ∈ packages, isPackageName package = true) :
    p.processArgs args = (.ok rest, { p with direct := p.direct ++ packages }) := by
  have hgood : packages.find? (fun name => !isPackageName name) = none := by
    rw [List.find?_eq_none]
    intro package hpackage
    simp [hnames package hpackage]
  unfold processArgs
  rw [Flag.claimOne_of_foreign hcheck]
  dsimp only
  rw [hdirect]
  dsimp only
  rw [hgood]

/-- **What is a package to the strict check can be declared to it.** -/
theorem canDeclare_of_isPackageName {package : String} (h : isPackageName package = true) :
    CanDeclare package := by
  have hnames : ∀ name ∈ [package], isPackageName name = true := List.forall_mem_singleton.mpr h
  intro p
  constructor
  · apply p.processArgs_of_packages _ _ hnames
    · exact List.forall_mem_singleton.mpr (Argument.unrelated_check.attached package)
    · exact Flag.yields_attached (String.isEmpty_of_isPackageName h) []
  · apply p.processArgs_of_packages _ _ hnames
    · have hpackage := Flag.read_of_isPackageName Argument.unrelated_check.dash h
      exact List.forall_mem_cons.mpr
        ⟨Argument.unrelated_check.bare, List.forall_mem_singleton.mpr hpackage⟩
    · exact Flag.yields_separate (Flag.startsWithDash_of_isPackageName h) []

end StrictDeps

namespace Manifest

open Naming (segmentForm packageForm)

/-- A conventional segment is an identifier unless it is a reserved word. -/
theorem segmentFault?_of_segmentForm {part : List Char} (h : part ∈ segmentForm) :
    segmentFault? part = if String.ofList part ∈ reservedWords then some .reserved else none := by
  obtain ⟨c, cs, rfl, hc, hcs⟩ := Naming.mem_oneOf_mul.mp h
  have hstart : isNameStart c = true := by
    simp [isNameStart, Naming.isAlpha_iff.mpr (.inr hc)]
  have hchars : cs.all isNameChar = true := by
    rw [List.all_eq_true]
    intro d hd
    rcases Naming.mem_kstar_oneOf.mp hcs d hd with hlower | hdigit | rfl
    · simp [isNameChar, Naming.isAlphanum_iff.mpr (.inr (.inl hlower))]
    · simp [isNameChar, Naming.isAlphanum_iff.mpr (.inr (.inr hdigit))]
    · rfl
  simp [segmentFault?, identifierFault?, hstart, hchars]

/-- **A conventional package is refused in a manifest only for a reserved word.** -/
theorem qualifiedFault?_of_packageForm {package : List Char} (h : package ∈ packageForm) :
    qualifiedFault? package =
      if ∃ part ∈ Text.segments '.' package, String.ofList part ∈ reservedWords
      then some .reserved else none := by
  have hparts := Naming.mem_packageForm_iff_parts.mp h
  have hne : package ≠ [] := by
    rintro rfl
    obtain ⟨c, cs, hnil, -⟩ := Naming.mem_oneOf_mul.mp (hparts [] List.mem_cons_self)
    cases hnil
  have hfault := fun part hpart => segmentFault?_of_segmentForm (hparts part hpart)
  rw [qualifiedFault?_of_ne_nil hne]
  split
  · next hword =>
    obtain ⟨part, hpart, hreserved⟩ := hword
    cases hfind : (Text.segments '.' package).findSome? segmentFault? with
    | none =>
      have hnone := List.findSome?_eq_none_iff.mp hfind part hpart
      rw [hfault part hpart, if_pos hreserved] at hnone
      cases hnone
    | some fault =>
      obtain ⟨other, hother, hsome⟩ := List.exists_of_findSome?_eq_some hfind
      rw [hfault other hother] at hsome
      split at hsome
      · exact hsome.symm
      · cases hsome
  · next hwords =>
    rw [List.findSome?_eq_none_iff]
    intro part hpart
    rw [hfault part hpart, if_neg fun hreserved => hwords ⟨part, hpart, hreserved⟩]

example : "com.class".toList ∈ packageForm ∧
    qualifiedFault? "com.class".toList = some .reserved := by
  decide +kernel

end Manifest

namespace Naming

/-! ## What is reported of a unit -/

/-- The warning about a package that is not conventional. -/
def packageFinding (u : CompilationUnit) : Diagnostic where
  severity := .warning
  source := "naming"
  message := s!"package '{u.package}' should be lowercase (e.g., 'com.app' not 'com.App')"
  unit? := some u.path
  location? := some s!"package {u.package}"

/-- The warning about a type that is not conventional. -/
def typeFinding (u : CompilationUnit) (type : String) : Diagnostic where
  severity := .warning
  source := "naming"
  message := s!"type '{type}' should use UpperCamelCase (e.g., 'HttpClient' not 'http_client')"
  unit? := some u.path
  location? := some s!"type {type}"

/-- All that is to be said of the names in a unit. -/
def findings (u : CompilationUnit) : List Diagnostic :=
  (if u.package.toList ∈ packageForm then [] else [packageFinding u]) ++
    (u.types.filter fun type => decide (type.toList ∉ typeForm)).map (typeFinding u)

/-- The warnings are found by the languages as well as by the checks. -/
theorem warnings_eq (u : CompilationUnit) : warnings u = findings u := by
  unfold warnings findings
  simp only [mem_packageForm_iff, mem_typeForm_iff, decide_not, Bool.decide_eq_true]
  rfl

/-- What the check of names, switched on, does after the attribution of a unit. -/
structure Reports (env : Env) (s : Session) : Prop where
  passes : (afterAttribution { enabled := true } env s).1 = .ok ()
  unchanged : (afterAttribution { enabled := true } env s).2.1 = { enabled := true }
  /-- The findings are reported in their order, and nothing else is. -/
  reported : (afterAttribution { enabled := true } env s).2.2.log.diagnostics =
    s.log.diagnostics ++ (findings env.tree).map s.log.recorded
  /-- Nothing but the log is touched. -/
  kept : ∃ log, (afterAttribution { enabled := true } env s).2.2 = { s with log } ∧
    log.warningsAsErrors = s.log.warningsAsErrors

theorem reports (env : Env) (s : Session) : Reports env s where
  passes := rfl
  unchanged := rfl
  reported := by
    show (s.log.reportAll (warnings env.tree)).diagnostics = _
    rw [Log.diagnostics_reportAll, warnings_eq]
  kept := ⟨_, rfl, Log.warningsAsErrors_reportAll _ _⟩

/-- How the three grammars look at one package. -/
structure Nested (package : String) : Prop where
  /-- A conventional package can be declared to the strict check. -/
  conventional (h : package.toList ∈ packageForm) : StrictDeps.CanDeclare package
  /-- So can a package that is fine in a manifest. -/
  valid (h : Manifest.qualifiedFault? package.toList = none) : StrictDeps.CanDeclare package
  /-- A conventional package is refused in a manifest for a reserved word, and for nothing else. -/
  refused (h : package.toList ∈ packageForm) :
    Manifest.qualifiedFault? package.toList =
      if ∃ part ∈ Text.segments '.' package.toList, String.ofList part ∈ Manifest.reservedWords
      then some .reserved else none

/-- **Names are checked against their languages**: of each unit exactly the names outside of them are
reported, in their order, and the conventional packages are packages to the other checks too, but
for reserved words. -/
theorem names_are_checked (env : Env) (s : Session) (package : String) :
    Reports env s ∧ Nested package := by
  refine ⟨reports env s, ?_, ?_, Manifest.qualifiedFault?_of_packageForm⟩
  · intro h
    exact StrictDeps.canDeclare_of_isPackageName (StrictDeps.isPackageName_of_packageForm h)
  · intro h
    apply StrictDeps.canDeclare_of_isPackageName
    exact StrictDeps.isPackageName_of_isQualified (Manifest.qualifiedFault?_eq_none_iff.mp h)

end Naming

end AnalysisHost
