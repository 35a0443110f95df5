import AnalysisHost.Proofs.ImportTexts

/-!
# Imports without a package part

An import that has no package part (`Import.Packageless`) is kept under its whole text, so that it
is reported. When it is resolved it is looked up like any other, and it stays unresolved only
because the table has no such text.

The table does have one if a type is declared in the package without a name, if its own name is
empty, or if its name ends with a dot (`Unsplit`). `Manifest.reportsPackageless_iff` says that these
are all the exceptions, and `Manifest.packageless_import_resolves` is one of them. Manifests that
pass the checks have none (`Manifest.Valid.not_unsplit`).
-/

namespace AnalysisHost

/-! ## Texts that cannot be split -/

namespace Import

/-- A text has no dot, or there is nothing in front of its last dot or behind it. -/
def Packageless (text : String) : Prop :=
  '.' ∉ text.toList ∨ (∃ type : String, text = "." ++ type ∧ '.' ∉ type.toList) ∨
    ∃ package : String, text = package ++ "."

/-- Where the last dot is known, so is whether the text can be split. -/
theorem parse?_eq_none_iff_of_splitLast {text : String} {package type : List Char}
    (h : Text.splitLast '.' text.toList = some (package, type)) :
    parse? text = none ↔ package = [] ∨ type = [] := by
  unfold parse?
  rw [h]
  cases package <;> cases type <;> simp

theorem splitLast_trailing (text : String) :
    Text.splitLast '.' (text ++ ".").toList = some (text.toList, []) :=
  Text.splitLast_eq_some_iff.mpr ⟨by simp, List.not_mem_nil⟩

theorem parse?_eq_none_iff {text : String} : parse? text = none ↔ Packageless text := by
  constructor
  · intro h
    cases hsplit : Text.splitLast '.' text.toList with
    | none => exact .inl (Text.splitLast_eq_none_iff.mp hsplit)
    | some sides =>
      obtain ⟨package, type⟩ := sides
      obtain ⟨htext, htype⟩ := Text.splitLast_eq_some_iff.mp hsplit
      rcases (parse?_eq_none_iff_of_splitLast hsplit).mp h with rfl | rfl
      · refine .inr (.inl ⟨String.ofList type, ?_, by simpa using htype⟩)
        apply String.toList_inj.mp
        simp [htext]
      · refine .inr (.inr ⟨String.ofList package, ?_⟩)
        apply String.toList_inj.mp
        simp [htext]
  · rintro (hdot | ⟨type, rfl, htype⟩ | ⟨package, rfl⟩)
    · unfold parse?
      rw [Text.splitLast_eq_none_iff.mpr hdot]
    · have hsplit : Text.splitLast '.' ("." ++ type).toList = some ([], type.toList) :=
        Text.splitLast_eq_some_iff.mpr ⟨by simp, htype⟩
      exact (parse?_eq_none_iff_of_splitLast hsplit).mpr (.inl rfl)
    · exact (parse?_eq_none_iff_of_splitLast (splitLast_trailing package)).mpr (.inr rfl)

end Import

/-- The types whose qualified names cannot be split again. -/
def Unsplit (package type : String) : Prop :=
  (package = "" ∧ '.' ∉ type.toList) ∨ type = "" ∨ ∃ front : String, type = front ++ "."

theorem packageless_qualify_iff {package type : String} :
    Import.Packageless (qualify package type) ↔ Unsplit package type := by
  rw [← Import.parse?_eq_none_iff]
  unfold Unsplit
  cases htype : Text.splitLast '.' type.toList with
  | none =>
    have hdot := Text.splitLast_eq_none_iff.mp htype
    have hsplit : Text.splitLast '.' (qualify package type).toList =
        some (package.toList, type.toList) :=
      Text.splitLast_eq_some_iff.mpr ⟨Import.toList_qualify package type, hdot⟩
    rw [Import.parse?_eq_none_iff_of_splitLast hsplit]
    have hend : ¬ ∃ front : String, type = front ++ "." := by
      rintro ⟨front, rfl⟩
      simp at hdot
    simp [hdot, hend]
  | some sides =>
    -- The last dot of the type is the last one of its qualified name.
    obtain ⟨front, back⟩ := sides
    obtain ⟨hchars, hback⟩ := Text.splitLast_eq_some_iff.mp htype
    have hsplit : Text.splitLast '.' (qualify package type).toList =
        some (package.toList ++ '.' :: front, back) := by
      rw [Text.splitLast_eq_some_iff, Import.toList_qualify, hchars]
      exact ⟨by simp, hback⟩
    rw [Import.parse?_eq_none_iff_of_splitLast hsplit]
    have hdot : '.' ∈ type.toList := by simp [hchars]
    have hne : type ≠ "" := by
      rintro rfl
      simp at hdot
    have hend : (∃ text : String, type = text ++ ".") ↔ back = [] := by
      constructor
      · rintro ⟨text, rfl⟩
        rw [Import.splitLast_trailing] at htype
        cases htype
        rfl
      · rintro rfl
        refine ⟨String.ofList front, String.toList_inj.mp ?_⟩
        simp [hchars]
    simp [hdot, hne, hend]

/-! ## Reported, or declared -/

namespace Manifest

/-- A unit declares a type in a package, or an entry of the classpath has it. -/
def HasType (m : Manifest) (package type : String) : Prop :=
  (∃ u ∈ m.units, u.package = package ∧ type ∈ u.types) ∨
    ∃ e ∈ m.classpath, e.package = package ∧ type ∈ e.types

/-- Every import without a package part stays unresolved, in its place, and is reported. -/
def ReportsPackageless (m : Manifest) : Prop :=
  ∀ u ∈ m.units, ∀ (log : Log) (i : Nat) (text : String), u.imports[i]? = some text →
    Import.Packageless text →
      (u.lower.attributeImports m.table log).1[i]? =
          some ⟨Import.unqualified text, .unresolved⟩ ∧
        cannotFind u.path text ∈ (u.lower.attributeImports m.table log).2.since log.size

variable {m : Manifest}

theorem mem_declaredTexts_iff_hasType {text : String} :
    text ∈ m.declaredTexts ↔
      ∃ package type, m.HasType package type ∧ qualify package type = text := by
  rw [mem_declaredTexts_iff]
  simp only [UnitEntry.declaredTexts, ClasspathEntry.declaredTexts, List.mem_map, HasType]
  constructor
  · rintro (⟨u, hu, type, htype, rfl⟩ | ⟨e, he, type, htype, rfl⟩)
    · exact ⟨u.package, type, .inl ⟨u, hu, rfl, htype⟩, rfl⟩
    · exact ⟨e.package, type, .inr ⟨e, he, rfl, htype⟩, rfl⟩
  · rintro ⟨_, type, ⟨u, hu, rfl, htype⟩ | ⟨e, he, rfl, htype⟩, rfl⟩
    · exact .inl ⟨u, hu, type, htype, rfl⟩
    · exact .inr ⟨e, he, type, htype, rfl⟩

/-- No type of a valid manifest is an exception. -/
theorem Valid.not_unsplit (h : m.Valid) {package type : String} (htype : m.HasType package type) :
    ¬ Unsplit package type := by
  have hnames : IsQualified package.toList ∧ IsIdentifier type.toList := by
    rcases htype with ⟨u, hu, rfl, htype⟩ | ⟨e, he, rfl, htype⟩
    · exact ⟨(valid_iff.mp h).packages u hu, (valid_iff.mp h).types u hu type htype⟩
    · exact ⟨(valid_iff.mp h).classpathPackages e he, h.classpathTypes he type htype⟩
  obtain ⟨hpackage, hidentifier⟩ := hnames
  rintro (⟨rfl, -⟩ | rfl | ⟨front, rfl⟩)
  · exact not_isIdentifier_nil (isQualified_iff.mp hpackage [] (List.mem_singleton_self []))
  · exact not_isIdentifier_nil hidentifier
  · apply hidentifier.dot_not_mem
    simp

/-- **When imports without a package part are reported**: no unit imports, under its qualified name,
a type whose qualified name cannot be split. -/
theorem reportsPackageless_iff (m : Manifest) :
    m.ReportsPackageless ↔
      ∀ package type, m.HasType package type → Unsplit package type →
        ∀ u ∈ m.units, qualify package type ∉ u.imports := by
  constructor
  · intro h package type htype hunsplit u hu hmem
    obtain ⟨i, hi⟩ := List.mem_iff_getElem?.mp hmem
    obtain ⟨hresolved, -⟩ := h u hu {} i _ hi (packageless_qualify_iff.mpr hunsplit)
    replace hresolved : (u.lower.resolutions m.table)[i]? = some ⟨_, .unresolved⟩ := hresolved
    rw [resolutions_lower, List.getElem?_map, hi, Option.map_some, Option.some.injEq,
      Resolution.mk.injEq, originOf_eq_iff, comesFrom_unresolved_iff] at hresolved
    exact hresolved.2 (mem_declaredTexts_iff_hasType.mpr ⟨package, type, htype, rfl⟩)
  · intro h u hu log i text hi hpackageless
    have hmem : text ∈ u.imports := List.mem_of_getElem? hi
    have hnowhere : m.ComesFrom text .unresolved := by
      rw [comesFrom_unresolved_iff, mem_declaredTexts_iff_hasType]
      rintro ⟨package, type, htype, rfl⟩
      exact h package type htype (packageless_qualify_iff.mp hpackageless) u hu hmem
    constructor
    · show (u.lower.resolutions m.table)[i]? = _
      rw [resolutions_lower, List.getElem?_map, hi, Option.map_some,
        originOf_eq_iff.mpr hnowhere, Import.ofText, Import.parse?_eq_none_iff.mpr hpackageless,
        Option.getD_none]
    · rw [Log.since, diagnostics_attributeImports, Log.size, List.drop_left]
      exact List.mem_map_of_mem (List.mem_filter.mpr ⟨hmem, decide_eq_true hnowhere⟩)

/-- A unit in the package without a name that imports its own type. -/
def namelessPackage : Manifest where
  units := [{ path := "A.java", package := "", imports := [".Util"], types := ["Util"] }]

/-- The import has no package part, yet it resolves and nothing is reported. -/
theorem packageless_import_resolves :
    Import.Packageless ".Util" ∧
      (∀ u ∈ namelessPackage.units, ∀ log : Log,
        u.lower.attributeImports namelessPackage.table log =
          ([⟨Import.unqualified ".Util", .source "A.java"⟩], log)) ∧
      ¬ namelessPackage.ReportsPackageless := by
  have hpackageless : Import.Packageless ".Util" := .inr (.inl ⟨"Util", by decide, by decide⟩)
  have hattributed : ∀ u ∈ namelessPackage.units, ∀ log : Log,
      u.lower.attributeImports namelessPackage.table log =
        ([⟨Import.unqualified ".Util", .source "A.java"⟩], log) := by
    intro u hu log
    cases List.mem_singleton.mp hu
    have hresolved : (UnitEntry.mk "A.java" "" [".Util"] ["Util"] []).lower.resolutions
        namelessPackage.table = [⟨Import.unqualified ".Util", .source "A.java"⟩] := by
      decide +kernel
    unfold CompilationUnit.attributeImports CompilationUnit.importErrors
    rw [hresolved]
    rfl
  refine ⟨hpackageless, hattributed, ?_⟩
  intro h
  obtain ⟨hresolved, -⟩ := h _ (List.mem_singleton_self _) {} 0 ".Util" rfl hpackageless
  rw [hattributed _ (List.mem_singleton_self _)] at hresolved
  cases hresolved

end Manifest

end AnalysisHost
