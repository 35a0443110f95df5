import AnalysisHost.Lowering
import AnalysisHost.Manifest.Validity
import AnalysisHost.Proofs.CycleSearch
import AnalysisHost.Proofs.FirstViolation

/-!
# The import graph of a manifest

In a valid manifest every import is a package and a type with a dot between them, and no type has a
dot in its name. So an import of a type that a unit declares names the package of that unit, and the
edges that the search for cycles adds are the imports between packages (`Manifest.ImportsFrom`).

- `Manifest.Valid.unit`: what the checks of a manifest say about each of its units;
- `Import.ofText_eq`: an import is split where its package ends;
- `Manifest.Valid.adj_survey_iff`: the edges of the search are the imports of the manifest.
-/

namespace AnalysisHost

/-! ## What is checked -/

namespace Manifest

/-- What is known about a unit that has been checked. -/
structure UnitEntry.Checked (u : UnitEntry) : Prop where
  package : qualifiedFault? u.package.toList = none
  imports : ∀ text ∈ u.imports, importFault? text.toList = none
  types : ∀ type ∈ u.types, IsIdentifier type.toList

theorem Valid.classpathTypes {m : Manifest} (h : m.Valid) {entry : ClasspathEntry}
    (hentry : entry ∈ m.classpath) : ∀ type ∈ entry.types, IsIdentifier type.toList :=
  (valid_iff.mp h).classpathTypes entry hentry

theorem Valid.unit {m : Manifest} (h : m.Valid) {u : UnitEntry} (hu : u ∈ m.units) :
    UnitEntry.Checked u where
  package := qualifiedFault?_eq_none_iff.mpr ((valid_iff.mp h).packages u hu)
  imports := by
    intro text htext
    apply importFault?_eq_none_iff.mpr
    exact (valid_iff.mp h).imports u hu text htext
  types := (valid_iff.mp h).types u hu

/-- No dotted name without a fault has a blank in it. -/
theorem blank_not_mem_of_qualifiedFault? {name : List Char} (h : qualifiedFault? name = none) :
    ' ' ∉ name := by
  intro hblank
  obtain ⟨piece, hpiece, hmem⟩ := Text.exists_mem_segments hblank (show ' ' ≠ '.' by decide)
  have hidentifier := isQualified_iff.mp (qualifiedFault?_eq_none_iff.mp h) piece hpiece
  exact hidentifier.not_mem (by decide) (by decide) hmem

/-- A dotted name without a fault has no empty piece. -/
theorem nil_not_mem_segments {name : List Char} (h : qualifiedFault? name = none) :
    [] ∉ Text.segments '.' name := by
  intro hmem
  apply not_isIdentifier_nil
  exact isQualified_iff.mp (qualifiedFault?_eq_none_iff.mp h) [] hmem

end Manifest

/-! ## Imports -/

namespace Import

theorem toList_qualify (package type : String) :
    (qualify package type).toList = package.toList ++ '.' :: type.toList :=
  Text.toList_dotted package type

/-- An import without a fault has something on both sides of its last dot. -/
theorem exists_split_of_importFault? {text : String}
    (h : Manifest.importFault? text.toList = none) :
    ∃ package type : List Char, package ≠ [] ∧ type ≠ [] ∧
      Text.splitLast '.' text.toList = some (package, type) := by
  unfold Manifest.importFault? at h
  split at h
  · next hdot =>
    cases hsplit : Text.splitLast '.' text.toList with
    | none => exact absurd (List.contains_iff_mem.mp hdot) (Text.splitLast_eq_none_iff.mp hsplit)
    | some sides =>
      obtain ⟨package, type⟩ := sides
      obtain ⟨htext, -⟩ := Text.splitLast_eq_some_iff.mp hsplit
      -- An empty side would show among the pieces of the import.
      have hnil := Manifest.nil_not_mem_segments h
      rw [htext, Text.segments_append] at hnil
      refine ⟨package, type, ?_, ?_, rfl⟩
      · rintro rfl
        apply hnil
        exact List.mem_append_left _ (Text.nil_mem_segments_of_nil '.')
      · rintro rfl
        apply hnil
        exact List.mem_append_right _ (Text.nil_mem_segments_of_nil '.')
  · cases h

theorem ofText_of_splitLast {text : String} {package type : List Char} (hpackage : package ≠ [])
    (htype : type ≠ []) (hsplit : Text.splitLast '.' text.toList = some (package, type)) :
    ofText text = ⟨String.ofList package, String.ofList type⟩ := by
  obtain ⟨c, cs, rfl⟩ := List.exists_cons_of_ne_nil hpackage
  obtain ⟨d, ds, rfl⟩ := List.exists_cons_of_ne_nil htype
  rw [ofText, parse?, hsplit]
  rfl

/-- A type without a dot is all that stands behind the last one. -/
theorem ofText_of_qualify {text package type : String}
    (h : Manifest.importFault? text.toList = none) (hdot : '.' ∉ type.toList)
    (heq : qualify package type = text) : ofText text = ⟨package, type⟩ := by
  obtain ⟨front, back, hfront, hback, hsplit⟩ := exists_split_of_importFault? h
  have hsplit' : Text.splitLast '.' text.toList = some (package.toList, type.toList) := by
    rw [← heq, toList_qualify]
    exact Text.splitLast_eq_some_iff.mpr ⟨rfl, hdot⟩
  rw [hsplit] at hsplit'
  cases hsplit'
  rw [ofText_of_splitLast hfront hback hsplit, String.ofList_toList, String.ofList_toList]

/-- The two sides of an import make it up. -/
theorem qualify_ofText {text : String} (h : Manifest.importFault? text.toList = none) :
    qualify (ofText text).package (ofText text).name = text := by
  obtain ⟨package, type, hpackage, htype, hsplit⟩ := exists_split_of_importFault? h
  rw [ofText_of_splitLast hpackage htype hsplit]
  apply String.toList_inj.mp
  rw [toList_qualify, String.toList_ofList, String.toList_ofList]
  exact (Text.splitLast_eq_some_iff.mp hsplit).1.symm

/-- Splitting a text loses nothing, and one that is not split is kept as it is. -/
theorem qualified_ofText (text : String) : (ofText text).qualified = text := by
  unfold ofText parse?
  split
  · next c cs d ds hsplit =>
    obtain ⟨htext, -⟩ := Text.splitLast_eq_some_iff.mp hsplit
    have hpackage : (String.ofList (c :: cs)).isEmpty = false := by
      simp [Bool.eq_false_iff, String.isEmpty_iff]
    simp only [Option.getD_some, qualified, hpackage]
    apply String.toList_inj.mp
    refine (toList_qualify _ _).trans ?_
    rw [htext, String.toList_ofList, String.toList_ofList]
  · simp [unqualified, qualified]

/-- An import is split where its package ends, and put together again by its qualified name. -/
theorem ofText_eq {text : String} (h : Manifest.importFault? text.toList = none) :
    (ofText text).qualified = text ∧
      ∀ package type, '.' ∉ type.toList → qualify package type = text →
        (ofText text).package = package := by
  refine ⟨qualified_ofText text, ?_⟩
  intro package type hdot heq
  exact congrArg Import.package (ofText_of_qualify h hdot heq)

end Import

/-! ## Edges -/

namespace SymbolTable

theorem resolve_eq_source_iff {table : SymbolTable} {i : Import} :
    (∃ unit, table.resolve i = .source unit) ↔ ∃ d ∈ table.declared, d.1 = i.qualified := by
  unfold resolve originOf declaringUnit?
  constructor
  · rintro ⟨unit, h⟩
    split at h
    · next path hfind =>
      obtain ⟨d, hd, -⟩ := Option.map_eq_some_iff.mp hfind
      exact ⟨d, List.mem_reverse.mp (List.mem_of_find?_eq_some hd),
        by simpa using List.find?_some hd⟩
    · split at h <;> cases h
  · rintro ⟨d, hmem, hd⟩
    cases hfind : table.declared.reverse.find? fun e => decide (e.1 = i.qualified) with
    | none =>
      have hnone := List.find?_eq_none.mp hfind d (List.mem_reverse.mpr hmem)
      exact absurd (decide_eq_true hd) hnone
    | some e => exact ⟨e.2, rfl⟩

theorem resolve_eq_classpath_iff {table : SymbolTable} {i : Import} :
    table.resolve i = .classpath ↔
      (¬ ∃ d ∈ table.declared, d.1 = i.qualified) ∧ i.qualified ∈ table.classpath := by
  rw [← resolve_eq_source_iff]
  unfold resolve originOf
  split
  · next unit _ =>
    constructor
    · intro h
      cases h
    · rintro ⟨hnone, -⟩
      exact absurd ⟨unit, rfl⟩ hnone
  · split
    · next hmem =>
      constructor
      · intro _
        refine ⟨?_, hmem⟩
        rintro ⟨_, h⟩
        cases h
      · intro _
        rfl
    · next hmem =>
      constructor
      · intro h
        cases h
      · rintro ⟨-, h⟩
        exact absurd h hmem

theorem mem_classpath_build {units : List CompilationUnit} {classpath : List ClasspathEntry}
    {qualified : String} :
    qualified ∈ (build units classpath).classpath ↔
      ∃ e ∈ classpath, ∃ type ∈ e.types, qualify e.package type = qualified := by
  constructor
  · intro h
    obtain ⟨e, he, h⟩ := List.mem_flatMap.mp h
    obtain ⟨type, htype, rfl⟩ := List.mem_map.mp h
    exact ⟨e, he, type, htype, rfl⟩
  · rintro ⟨e, he, type, htype, rfl⟩
    exact List.mem_flatMap.mpr ⟨e, he, List.mem_map_of_mem htype⟩

theorem mem_declared_build {units : List CompilationUnit} {classpath : List ClasspathEntry}
    {qualified : String} :
    (∃ d ∈ (build units classpath).declared, d.1 = qualified) ↔
      ∃ v ∈ units, ∃ type ∈ v.types, qualify v.package type = qualified := by
  constructor
  · rintro ⟨d, hd, rfl⟩
    obtain ⟨v, hv, hd⟩ := List.mem_flatMap.mp hd
    obtain ⟨type, htype, rfl⟩ := List.mem_map.mp hd
    exact ⟨v, hv, type, htype, rfl⟩
  · rintro ⟨v, hv, type, htype, rfl⟩
    exact ⟨(qualify v.package type, v.path),
      List.mem_flatMap.mpr ⟨v, hv, List.mem_map.mpr ⟨type, htype, rfl⟩⟩, rfl⟩

end SymbolTable

namespace Manifest

/-- A package imports from another one: one of its units imports a type that a unit of the other
declares. -/
def ImportsFrom (m : Manifest) (importers : List UnitEntry) (a b : String) : Prop :=
  a ≠ b ∧ ∃ u ∈ importers, u.package = a ∧
    ∃ v ∈ m.units, v.package = b ∧ ∃ type ∈ v.types, qualify b type ∈ u.imports

/-- The symbol table of a manifest. -/
def table (m : Manifest) : SymbolTable := .build m.lower m.classpath

theorem mem_unitTargets_lower {table : SymbolTable} {u : UnitEntry} {b : String} :
    b ∈ ImportCycles.unitTargets table u.lower ↔
      ∃ text ∈ u.imports, (∃ unit, table.resolve (Import.ofText text) = .source unit) ∧
        (Import.ofText text).package ≠ u.package ∧ (Import.ofText text).package = b := by
  unfold ImportCycles.unitTargets ImportCycles.targets
  constructor
  · intro hb
    obtain ⟨r, hr, rfl⟩ := List.mem_map.mp hb
    obtain ⟨hr, hsource⟩ := List.mem_filter.mp hr
    obtain ⟨i, hi, rfl⟩ := List.mem_map.mp hr
    obtain ⟨text, htext, rfl⟩ := List.mem_map.mp hi
    split at hsource
    · next unit horigin => exact ⟨text, htext, ⟨unit, horigin⟩, of_decide_eq_true hsource, rfl⟩
    · cases hsource
  · rintro ⟨text, htext, ⟨unit, horigin⟩, hne, rfl⟩
    refine List.mem_map.mpr ⟨⟨Import.ofText text, table.resolve (Import.ofText text)⟩, ?_, rfl⟩
    refine List.mem_filter.mpr ⟨?_, ?_⟩
    · exact List.mem_map.mpr ⟨Import.ofText text, List.mem_map_of_mem htext, rfl⟩
    · rw [horigin]
      exact decide_eq_true hne

/-- In a valid manifest, an import that resolves to a unit names the package of that unit. -/
theorem Valid.resolve_import_iff {m : Manifest} (hvalid : m.Valid) {text b : String}
    (htext : importFault? text.toList = none) :
    ((∃ unit, m.table.resolve (Import.ofText text) = .source unit) ∧
        (Import.ofText text).package = b) ↔
      ∃ v ∈ m.units, v.package = b ∧ ∃ type ∈ v.types, qualify b type = text := by
  obtain ⟨hqualified, hpackage⟩ := Import.ofText_eq htext
  rw [SymbolTable.resolve_eq_source_iff, hqualified, table, SymbolTable.mem_declared_build]
  constructor
  · rintro ⟨⟨w, hw, type, htype, heq⟩, rfl⟩
    obtain ⟨v, hv, rfl⟩ := List.mem_map.mp hw
    -- What stands behind the last dot is the type, which has no dot in it.
    have hdot := ((hvalid.unit hv).types type htype).dot_not_mem
    have hv' : (Import.ofText text).package = v.package := hpackage v.package type hdot heq
    rw [hv']
    exact ⟨v, hv, rfl, type, htype, heq⟩
  · rintro ⟨v, hv, rfl, type, htype, heq⟩
    have hdot := ((hvalid.unit hv).types type htype).dot_not_mem
    exact ⟨⟨v.lower, List.mem_map_of_mem hv, type, htype, heq⟩,
      hpackage v.package type hdot heq⟩

theorem mem_unitTargets_iff {m : Manifest} (hvalid : m.Valid) {u : UnitEntry} (hu : u ∈ m.units)
    {b : String} :
    b ∈ ImportCycles.unitTargets m.table u.lower ↔
      u.package ≠ b ∧
        ∃ v ∈ m.units, v.package = b ∧ ∃ type ∈ v.types, qualify b type ∈ u.imports := by
  have hmem : b ∈ ImportCycles.unitTargets m.table u.lower ↔
      ∃ text ∈ u.imports, (∃ unit, m.table.resolve (Import.ofText text) = .source unit) ∧
        (Import.ofText text).package ≠ u.package ∧ (Import.ofText text).package = b :=
    mem_unitTargets_lower
  rw [hmem]
  constructor
  · rintro ⟨text, htext, hsource, hne, rfl⟩
    obtain ⟨v, hv, hpackage, type, htype, heq⟩ :=
      (hvalid.resolve_import_iff ((hvalid.unit hu).imports text htext)).mp ⟨hsource, rfl⟩
    refine ⟨hne.symm, v, hv, hpackage, type, htype, ?_⟩
    rw [heq]
    exact htext
  · rintro ⟨hne, v, hv, hpackage, type, htype, htext⟩
    obtain ⟨hsource, hb⟩ :=
      (hvalid.resolve_import_iff ((hvalid.unit hu).imports _ htext)).mpr
        ⟨v, hv, hpackage, type, htype, rfl⟩
    refine ⟨_, htext, hsource, ?_, hb⟩
    rw [hb]
    exact hne.symm

/-- **The edges of the search are the imports of the manifest.** -/
theorem Valid.adj_survey_iff {m : Manifest} (hvalid : m.Valid) {importers : List UnitEntry}
    (hsub : importers ⊆ m.units) {a b : String} :
    (ImportCycles.survey m.table (importers.map UnitEntry.lower)).graph.Adj a b ↔
      m.ImportsFrom importers a b := by
  rw [ImportCycles.adj_survey]
  constructor
  · rintro ⟨w, hw, rfl, hb⟩
    obtain ⟨u, hu, rfl⟩ := List.mem_map.mp hw
    obtain ⟨hne, hrest⟩ := (mem_unitTargets_iff hvalid (hsub hu)).mp hb
    exact ⟨hne, u, hu, rfl, hrest⟩
  · rintro ⟨hne, u, hu, rfl, hrest⟩
    refine ⟨u.lower, List.mem_map_of_mem hu, rfl, ?_⟩
    exact (mem_unitTargets_iff hvalid (hsub hu)).mpr ⟨hne, hrest⟩

end Manifest

end AnalysisHost
