import AnalysisHost.Proofs.NameForms
import AnalysisHost.Proofs.Undeclared

/-!
# Packages as rows of parts

Whether a package is declared is decided on its text: it is a declared name itself, or it begins
with one and goes on with a dot. What stands between its dots are the parts of a package, empty ones
included, and of these the rule says just that the row begins with the row of a declared name
(`StrictDeps.isDirect_by_parts`). So a dot at the end of a declared name, or two in a row, are no
special cases, and neither is the empty name.

Rows of parts and texts determine each other (`StrictDeps.parts_injective`,
`StrictDeps.exists_parts_eq`), and that is why a row that goes on comes from a text that goes on
behind a dot.
-/

namespace AnalysisHost.StrictDeps

/-! ## Parts -/

/-- What stands between the dots of a package. -/
def parts (package : String) : List (List Char) := Text.segments '.' package.toList

theorem parts_dotted (outer inner : String) :
    parts (outer ++ "." ++ inner) = parts outer ++ parts inner := by
  rw [parts, Text.toList_dotted, Text.segments_append]
  rfl

theorem parts_injective : Function.Injective parts := by
  intro package package' h
  have hjoin := congrArg (Text.join '.') h
  rw [parts, parts, Text.join_segments, Text.join_segments] at hjoin
  exact String.toList_inj.mp hjoin

/-- Every row of texts without dots is the row of a package. -/
theorem exists_parts_eq {row : List (List Char)} (hne : row ≠ []) (h : ∀ part ∈ row, '.' ∉ part) :
    ∃ package, parts package = row := by
  refine ⟨String.ofList (Text.join '.' row), ?_⟩
  rw [parts, String.toList_ofList]
  exact Text.segments_join hne h

/-- **Nesting goes by parts.** -/
theorem nested_iff_prefix {outer package : String} :
    Nested outer package ↔ parts outer <+: parts package := by
  constructor
  · rintro (rfl | ⟨inner, rfl⟩)
    · exact List.prefix_rfl
    · rw [parts_dotted]
      exact List.prefix_append _ _
  · rintro ⟨row, hrow⟩
    cases row with
    | nil =>
      rw [List.append_nil] at hrow
      exact .inl (parts_injective hrow.symm)
    | cons part row =>
      -- The parts that are left over make a package of their own, behind the dot.
      have hdots : ∀ w ∈ part :: row, '.' ∉ w := by
        intro w hw
        apply Text.not_mem_of_mem_segments (s := package.toList)
        rw [← parts, ← hrow]
        exact List.mem_append_right _ hw
      obtain ⟨inner, hinner⟩ := exists_parts_eq (List.cons_ne_nil part row) hdots
      refine .inr ⟨inner, parts_injective ?_⟩
      rw [parts_dotted, hinner, hrow]

/-! ## Declared packages -/

theorem isDirect_iff {p : StrictDeps} {package : String} :
    p.isDirect package = true ↔ ∃ outer ∈ p.direct, parts outer <+: parts package := by
  rw [isDirect, List.any_eq_true]
  simp only [isWithin_iff, nested_iff_prefix]

/-- A text that goes on with anything but a dot is not nested in its beginning. -/
theorem not_nested_of_ne_dot (outer : String) {c : Char} (hc : c ≠ '.') (rest : List Char) :
    ¬ Nested outer (outer ++ String.ofList (c :: rest)) := by
  rintro (hsame | ⟨inner, hinner⟩)
  · have hchars := congrArg String.toList hsame
    rw [String.toList_append, String.toList_ofList] at hchars
    exact absurd (List.append_right_eq_self.mp hchars) (List.cons_ne_nil c rest)
  · have hchars := congrArg String.toList hinner
    rw [String.toList_append, String.toList_ofList, Text.toList_dotted] at hchars
    exact hc (List.cons.inj (List.append_cancel_left hchars)).1

/-- What is said of the declared packages and a package by their parts. -/
structure DecidedByParts (p : StrictDeps) (package : String) : Prop where
  declared_iff : p.isDirect package = true ↔ ∃ outer ∈ p.direct, parts outer <+: parts package
  /-- More names declare no fewer packages. -/
  monotone (q : StrictDeps) (hmore : p.direct ⊆ q.direct) (h : p.isDirect package = true) :
    q.isDirect package = true
  /-- What is nested in a declared package is declared. -/
  nested (h : p.isDirect package = true) (inner : String) :
    p.isDirect (package ++ "." ++ inner) = true
  /-- A name that the package begins with, but goes on from without a dot, might as well be
  missing. -/
  textual (front back : List String) (outer : String) (c : Char) (rest : List Char)
    (hdirect : p.direct = front ++ outer :: back) (hc : c ≠ '.')
    (hpackage : package = outer ++ String.ofList (c :: rest)) :
    p.isDirect package = ({ p with direct := front ++ back } : StrictDeps).isDirect package

/-- **A package is declared by its parts**: it is declared exactly if its row of parts begins with
the row of a declared name. -/
theorem isDirect_by_parts (p : StrictDeps) (package : String) : DecidedByParts p package where
  declared_iff := isDirect_iff
  monotone q hmore h := by
    obtain ⟨outer, houter, hprefix⟩ := isDirect_iff.mp h
    exact isDirect_iff.mpr ⟨outer, hmore houter, hprefix⟩
  nested h inner := by
    obtain ⟨outer, houter, hprefix⟩ := isDirect_iff.mp h
    refine isDirect_iff.mpr ⟨outer, houter, hprefix.trans ?_⟩
    rw [parts_dotted]
    exact List.prefix_append _ _
  textual front back outer c rest hdirect hc hpackage := by
    have houter : isWithin outer package = false := by
      rw [hpackage, Bool.eq_false_iff, Ne, isWithin_iff]
      exact not_nested_of_ne_dot outer hc rest
    simp only [isDirect, hdirect, List.any_append, List.any_cons, houter, Bool.false_or]

/-- Dots at the ends of names and next to each other: empty parts are parts. -/
example :
    (["a.", "a..b", ".a", "", "a"].map ({ direct := ["a."] } : StrictDeps).isDirect =
      [true, true, false, false, false]) ∧
    (["", ".a", ".", "a"].map ({ direct := [""] } : StrictDeps).isDirect =
      [true, true, true, false]) := by
  decide +kernel

end AnalysisHost.StrictDeps
