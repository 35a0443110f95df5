import AnalysisHost.Manifest.Name

/-!
# The forms of names

The checks of names read from the left and stop at the first fault. Here the forms themselves are
stated, without a direction of reading: a package is made of identifiers with dots between them,
and an import of two or more (`IsQualified`, `IsImport`). What a check finds is a fault of the first
part that is no identifier (`QualifiedFault`), and it finds nothing exactly in names of the right
form.

Cutting at dots and joining with dots are inverse to one another (`Text.segments_eq_iff`), which is
what ties the checks, that cut, to the forms, that join.
-/

namespace AnalysisHost

/-! ## Pieces of a text

Names are cut at their dots and paths at their slashes. What is said of it holds for any separator.
-/

namespace Text

/-- The pieces on both sides of a separator. -/
theorem segments_append (sep : Char) (front back : List Char) :
    segments sep (front ++ sep :: back) = segments sep front ++ segments sep back := by
  induction front with
  | nil => simp [segments]
  | cons c cs ih =>
    rw [List.cons_append, segments, segments]
    split
    · rw [ih]
      rfl
    · rw [ih]
      cases hcs : segments sep cs with
      | nil => exact absurd hcs (segments_ne_nil sep cs)
      | cons w ws => rfl

/-- Whatever is no separator is in one of the pieces. -/
theorem exists_mem_segments {sep c : Char} {s : List Char} (h : c ∈ s) (hc : c ≠ sep) :
    ∃ piece ∈ segments sep s, c ∈ piece := by
  induction s with
  | nil => cases h
  | cons d ds ih =>
    rw [segments]
    split
    · next hd =>
      have hrest := List.mem_of_ne_of_mem (fun heq => hc (heq.trans hd)) h
      obtain ⟨piece, hpiece, hmem⟩ := ih hrest
      exact ⟨piece, List.mem_cons_of_mem _ hpiece, hmem⟩
    · cases hpieces : segments sep ds with
      | nil => exact absurd hpieces (segments_ne_nil sep ds)
      | cons w ws =>
        rw [hpieces] at ih
        rcases List.mem_cons.mp h with rfl | hrest
        · exact ⟨_, List.mem_cons_self, List.mem_cons_self⟩
        · obtain ⟨piece, hpiece, hmem⟩ := ih hrest
          rcases List.mem_cons.mp hpiece with rfl | hpiece
          · exact ⟨_, List.mem_cons_self, List.mem_cons_of_mem _ hmem⟩
          · exact ⟨piece, List.mem_cons_of_mem _ hpiece, hmem⟩

theorem nil_mem_segments_of_nil (sep : Char) : [] ∈ segments sep [] := List.mem_singleton_self []

/-- No piece has a separator in it. -/
theorem not_mem_of_mem_segments {sep : Char} {s piece : List Char} (h : piece ∈ segments sep s) :
    sep ∉ piece := by
  induction s generalizing piece with
  | nil =>
    rw [List.mem_singleton.mp h]
    exact List.not_mem_nil
  | cons c cs ih =>
    rw [segments] at h
    split at h
    · rcases List.mem_cons.mp h with rfl | hmem
      · exact List.not_mem_nil
      · exact ih hmem
    · next hc =>
      cases hpieces : segments sep cs with
      | nil => exact absurd hpieces (segments_ne_nil sep cs)
      | cons w ws =>
        rw [hpieces] at h ih
        rcases List.mem_cons.mp h with rfl | hmem
        · have hw := ih List.mem_cons_self
          simp [hw, Ne.symm hc]
        · exact ih (List.mem_cons_of_mem _ hmem)

/-- A text without the separator is one piece. -/
theorem segments_of_not_mem {sep : Char} {s : List Char} (h : sep ∉ s) : segments sep s = [s] := by
  induction s with
  | nil => rfl
  | cons c cs ih =>
    obtain ⟨hc, hcs⟩ := List.ne_and_not_mem_of_not_mem_cons h
    rw [segments, if_neg (Ne.symm hc), ih hcs]
    rfl

/-- Pieces without a separator are found again when they have been joined. -/
theorem segments_join {sep : Char} {ws : List (List Char)} (hne : ws ≠ [])
    (h : ∀ w ∈ ws, sep ∉ w) : segments sep (join sep ws) = ws := by
  induction ws with
  | nil => exact absurd rfl hne
  | cons w ws ih =>
    have hw := segments_of_not_mem (h w List.mem_cons_self)
    cases ws with
    | nil => exact hw
    | cons v vs =>
      have hrest := ih (List.cons_ne_nil v vs) fun x hx => h x (List.mem_cons_of_mem w hx)
      show segments sep (w ++ sep :: join sep (v :: vs)) = w :: v :: vs
      rw [segments_append, hw, hrest]
      rfl

/-- **Cutting is the inverse of joining**: a text has these pieces exactly if they have no separator
in them and the text is what joins them. -/
theorem segments_eq_iff {sep : Char} {s : List Char} {ws : List (List Char)} :
    segments sep s = ws ↔ ws ≠ [] ∧ (∀ w ∈ ws, sep ∉ w) ∧ s = join sep ws := by
  constructor
  · rintro rfl
    exact ⟨segments_ne_nil sep s, fun w hw => not_mem_of_mem_segments hw,
      (join_segments sep s).symm⟩
  · rintro ⟨hne, hw, rfl⟩
    exact segments_join hne hw

/-- There is more than one piece where there is a separator. -/
theorem two_le_length_segments_iff {sep : Char} {s : List Char} :
    2 ≤ (segments sep s).length ↔ sep ∈ s := by
  by_cases h : sep ∈ s
  · obtain ⟨front, back, rfl⟩ := List.append_of_mem h
    have hfront := List.length_pos_iff.mpr (segments_ne_nil sep front)
    have hback := List.length_pos_iff.mpr (segments_ne_nil sep back)
    rw [segments_append, List.length_append]
    simp only [h, iff_true]
    omega
  · rw [segments_of_not_mem h]
    simp [h]

theorem toList_dotted (front back : String) :
    (front ++ "." ++ back).toList = front.toList ++ '.' :: back.toList := by
  rw [String.toList_append, String.toList_append, List.append_assoc]
  rfl

end Text

namespace Manifest

/-! ## Forms

What a name is made of, without regard to how it is checked. -/

/-- One or more identifiers with dots between them. -/
def IsQualified (name : List Char) : Prop :=
  ∃ parts : List (List Char), parts ≠ [] ∧ (∀ part ∈ parts, IsIdentifier part) ∧
    name = Text.join '.' parts

/-- Two or more identifiers with dots between them. -/
def IsImport (name : List Char) : Prop :=
  ∃ parts : List (List Char), 2 ≤ parts.length ∧ (∀ part ∈ parts, IsIdentifier part) ∧
    name = Text.join '.' parts

/-- A character that may stand nowhere in a name is not in an identifier. -/
theorem IsIdentifier.not_mem {name : List Char} (h : IsIdentifier name) {c : Char}
    (hstart : isNameStart c = false) (hchar : isNameChar c = false) : c ∉ name := by
  obtain ⟨d, ds, rfl, hfirst, hrest, -⟩ := h
  intro hc
  rcases List.mem_cons.mp hc with rfl | hmem
  · exact absurd hfirst (by simp [hstart])
  · exact absurd (hrest _ hmem) (by simp [hchar])

/-- No identifier has a dot in it. -/
theorem IsIdentifier.dot_not_mem {name : List Char} (h : IsIdentifier name) : '.' ∉ name :=
  h.not_mem (by decide) (by decide)

theorem IsIdentifier.ne_nil {name : List Char} (h : IsIdentifier name) : name ≠ [] := by
  obtain ⟨c, cs, rfl, -⟩ := h
  exact List.cons_ne_nil c cs

theorem not_isIdentifier_nil : ¬ IsIdentifier [] := fun h => h.ne_nil rfl

/-- A qualified name can be looked at part by part. -/
theorem isQualified_iff {name : List Char} :
    IsQualified name ↔ ∀ part ∈ Text.segments '.' name, IsIdentifier part := by
  constructor
  · rintro ⟨parts, hne, hparts, rfl⟩
    rw [Text.segments_join hne fun part hpart => (hparts part hpart).dot_not_mem]
    exact hparts
  · intro h
    exact ⟨_, Text.segments_ne_nil '.' name, h, (Text.join_segments '.' name).symm⟩

/-- An import is a dotted name that has a dot. -/
theorem isImport_iff {name : List Char} : IsImport name ↔ '.' ∈ name ∧ IsQualified name := by
  constructor
  · rintro ⟨parts, hlength, hparts, rfl⟩
    have hne : parts ≠ [] := by
      rintro rfl
      simp at hlength
    have hsegments := Text.segments_join hne fun part hpart => (hparts part hpart).dot_not_mem
    refine ⟨?_, parts, hne, hparts, rfl⟩
    rwa [← Text.two_le_length_segments_iff, hsegments]
  · rintro ⟨hdot, hqualified⟩
    exact ⟨_, Text.two_le_length_segments_iff.mpr hdot, isQualified_iff.mp hqualified,
      (Text.join_segments '.' name).symm⟩

/-! ## Faults

Each check has a relation beside it that says what its faults mean, and two lemmas: when it finds
nothing, and what it finds otherwise. -/

/-- What is wrong with a name that is no identifier. -/
inductive IdentifierFault : List Char → NameFault → Prop
  | empty : IdentifierFault [] .empty
  | badStart {c : Char} {cs : List Char} (hstart : isNameStart c = false) :
      IdentifierFault (c :: cs) .badStart
  | badCharacter {c d : Char} {cs : List Char} (hstart : isNameStart c = true) (hmem : d ∈ cs)
      (hchar : isNameChar d = false) : IdentifierFault (c :: cs) .badCharacter
  | reserved {c : Char} {cs : List Char} (hstart : isNameStart c = true)
      (hchars : ∀ d ∈ cs, isNameChar d = true) (hword : String.ofList (c :: cs) ∈ reservedWords) :
      IdentifierFault (c :: cs) .reserved

/-- What is wrong with a part of a dotted name. -/
inductive PartFault : List Char → NameFault → Prop
  | empty : PartFault [] .emptySegment
  | identifier {part : List Char} {fault : NameFault} (hne : part ≠ [])
      (h : IdentifierFault part fault) : PartFault part fault

/-- What is wrong with a dotted name: it is empty, or one of its parts is at fault, and those in
front of it are not. -/
inductive QualifiedFault : List Char → NameFault → Prop
  | empty : QualifiedFault [] .empty
  | part {name part : List Char} {front back : List (List Char)} {fault : NameFault}
      (hne : name ≠ []) (hname : name = Text.join '.' (front ++ part :: back))
      (hdot : ∀ p ∈ front ++ part :: back, '.' ∉ p) (hfront : ∀ p ∈ front, IsIdentifier p)
      (hpart : PartFault part fault) : QualifiedFault name fault

/-- What is wrong with an import. -/
inductive ImportFault : List Char → NameFault → Prop
  | unqualified {name : List Char} (hdot : '.' ∉ name) : ImportFault name .unqualified
  | qualified {name : List Char} {fault : NameFault} (hdot : '.' ∈ name)
      (h : QualifiedFault name fault) : ImportFault name fault

/-- The check of an identifier finds its fault: it is empty, begins or goes on with a wrong
character, or is a reserved word. -/
theorem identifierFault?_eq_some_iff {name : List Char} {fault : NameFault} :
    identifierFault? name = some fault ↔ IdentifierFault name fault := by
  constructor
  · intro h
    unfold identifierFault? at h
    split at h
    · cases h
      exact .empty
    next c cs =>
      split at h
      · next hstart =>
        cases h
        exact .badStart (by simpa using hstart)
      next hstart =>
      split at h
      · next hchars =>
        cases h
        simp only [Bool.not_eq_true', List.all_eq_false, Bool.not_eq_true] at hchars
        obtain ⟨d, hd, hchar⟩ := hchars
        exact .badCharacter (by simpa using hstart) hd hchar
      next hchars =>
      split at h
      · next hword =>
        cases h
        exact .reserved (by simpa using hstart) (by simpa using hchars) (by simpa using hword)
      · cases h
  · intro h
    cases h with
    | empty => rfl
    | badStart hstart => simp [identifierFault?, hstart]
    | badCharacter hstart hmem hchar =>
      have hall : List.all _ isNameChar = false := List.all_eq_false.mpr ⟨_, hmem, by simp [hchar]⟩
      simp [identifierFault?, hstart, hall]
    | reserved hstart hchars hword =>
      have hall : List.all _ isNameChar = true := List.all_eq_true.mpr hchars
      have hcontains := List.contains_iff_mem.mpr hword
      rw [identifierFault?, hstart, hall, hcontains]
      rfl

/-- A part of a name may also be missing between two dots. -/
theorem segmentFault?_eq_some_iff {part : List Char} {fault : NameFault} :
    segmentFault? part = some fault ↔ PartFault part fault := by
  cases part with
  | nil =>
    constructor
    · intro h
      cases h
      exact .empty
    · intro h
      cases h with
      | empty => rfl
      | identifier hne h => exact absurd rfl hne
  | cons c cs =>
    show identifierFault? (c :: cs) = some fault ↔ _
    rw [identifierFault?_eq_some_iff]
    constructor
    · exact PartFault.identifier (List.cons_ne_nil c cs)
    · intro h
      cases h with
      | identifier _ h => exact h

theorem segmentFault?_eq_none_iff {part : List Char} :
    segmentFault? part = none ↔ IsIdentifier part := by
  cases part with
  | nil => simp [segmentFault?, not_isIdentifier_nil]
  | cons c cs =>
    show identifierFault? (c :: cs) = none ↔ _
    exact identifierFault?_eq_none_iff

/-- The parts are checked from the left, up to the first fault. -/
theorem qualifiedFault?_of_ne_nil {name : List Char} (h : name ≠ []) :
    qualifiedFault? name = (Text.segments '.' name).findSome? segmentFault? := by
  cases name with
  | nil => exact absurd rfl h
  | cons c cs => rfl

/-- The check of packages accepts the qualified names and no others. -/
theorem qualifiedFault?_eq_none_iff {name : List Char} :
    qualifiedFault? name = none ↔ IsQualified name := by
  rw [isQualified_iff]
  by_cases hne : name = []
  · subst hne
    simp [qualifiedFault?, Text.segments, not_isIdentifier_nil]
  · rw [qualifiedFault?_of_ne_nil hne, List.findSome?_eq_none_iff]
    simp only [segmentFault?_eq_none_iff]

/-- In any other text it finds the fault of the first part that has one. -/
theorem qualifiedFault?_eq_some_iff {name : List Char} {fault : NameFault} :
    qualifiedFault? name = some fault ↔ QualifiedFault name fault := by
  by_cases hne : name = []
  · subst hne
    constructor
    · intro h
      cases h
      exact .empty
    · intro h
      cases h with
      | empty => rfl
      | part hne => exact absurd rfl hne
  rw [qualifiedFault?_of_ne_nil hne, List.findSome?_eq_some_iff]
  simp only [segmentFault?_eq_some_iff, segmentFault?_eq_none_iff]
  constructor
  · rintro ⟨front, part, back, hsegments, hpart, hfront⟩
    obtain ⟨-, hdot, hname⟩ := Text.segments_eq_iff.mp hsegments
    exact .part hne hname hdot hfront hpart
  · intro h
    cases h with
    | empty => exact absurd rfl hne
    | @part _ part front back _ _ hname hdot hfront hpart =>
      refine ⟨front, part, back, ?_, hpart, hfront⟩
      exact Text.segments_eq_iff.mpr ⟨by simp, hdot, hname⟩

/-- The check of imports accepts the qualified names with a dot in them. -/
theorem importFault?_eq_none_iff {name : List Char} :
    importFault? name = none ↔ IsImport name := by
  rw [isImport_iff]
  by_cases hdot : '.' ∈ name
  · simp [importFault?, hdot, qualifiedFault?_eq_none_iff]
  · simp [importFault?, hdot]

theorem importFault?_eq_some_iff {name : List Char} {fault : NameFault} :
    importFault? name = some fault ↔ ImportFault name fault := by
  by_cases hdot : '.' ∈ name
  · have heq : importFault? name = qualifiedFault? name := by simp [importFault?, hdot]
    rw [heq, qualifiedFault?_eq_some_iff]
    constructor
    · exact ImportFault.qualified hdot
    · intro h
      cases h with
      | unqualified hnone => exact absurd hdot hnone
      | qualified _ h => exact h
  · have heq : importFault? name = some .unqualified := by simp [importFault?, hdot]
    rw [heq]
    constructor
    · intro h
      cases h
      exact .unqualified hdot
    · intro h
      cases h with
      | unqualified => rfl
      | qualified hmem => exact absurd hmem hdot

end Manifest

end AnalysisHost
