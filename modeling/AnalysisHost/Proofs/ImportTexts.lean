import AnalysisHost.Proofs.Undeclared

/-!
# What the text of an import resolves to

An import is a text that is split at its last dot and put together again, and the symbol table is
keyed by texts that are put together from a package and a type. None of that depends on how the
parts look: whatever a manifest holds, dots in odd places, empty packages or types that are
declared twice, the origin of an import follows from its text alone (`Manifest.ComesFrom`).

- `Import.qualified_ofText`: splitting a text loses nothing;
- `Manifest.originOf_eq_iff`: the table knows exactly the texts of the declarations, of units the
  last one first;
- `Manifest.attributes_texts`: what the attribute phase makes of the import texts of any unit.
-/

namespace AnalysisHost

/-! ## The texts of declarations -/

/-- The qualified names of the types that a unit declares. -/
def UnitEntry.declaredTexts (u : UnitEntry) : List String := u.types.map (qualify u.package)

/-- The qualified names of the types of a classpath entry. -/
def ClasspathEntry.declaredTexts (e : ClasspathEntry) : List String :=
  e.types.map (qualify e.package)

namespace Manifest

def declaredTexts (m : Manifest) : List String :=
  m.units.flatMap UnitEntry.declaredTexts ++ m.classpath.flatMap ClasspathEntry.declaredTexts

/-- Where a text comes from, in a manifest of whatever form. -/
inductive ComesFrom (m : Manifest) (text : String) : Origin → Prop
  /-- The last unit that declares the text counts. -/
  | source {front back : List UnitEntry} {u : UnitEntry} (hunits : m.units = front ++ u :: back)
      (hu : text ∈ u.declaredTexts) (hlast : ∀ v ∈ back, text ∉ v.declaredTexts) :
      ComesFrom m text (.source u.path)
  | classpath (hunits : ∀ u ∈ m.units, text ∉ u.declaredTexts)
      (hclasspath : ∃ e ∈ m.classpath, text ∈ e.declaredTexts) : ComesFrom m text .classpath
  | unresolved (hunits : ∀ u ∈ m.units, text ∉ u.declaredTexts)
      (hclasspath : ∀ e ∈ m.classpath, text ∉ e.declaredTexts) : ComesFrom m text .unresolved

variable {m : Manifest} {text : String}

theorem mem_declaredTexts_iff :
    text ∈ m.declaredTexts ↔
      (∃ u ∈ m.units, text ∈ u.declaredTexts) ∨ ∃ e ∈ m.classpath, text ∈ e.declaredTexts := by
  simp [declaredTexts]

theorem declared_table (m : Manifest) :
    m.table.declared =
      m.units.flatMap fun u => u.declaredTexts.map fun text => (text, u.path) := by
  simp [table, SymbolTable.build, lower, UnitEntry.lower, UnitEntry.declaredTexts,
    List.flatMap_map, Function.comp_def]

theorem classpath_table (m : Manifest) :
    m.table.classpath = m.classpath.flatMap ClasspathEntry.declaredTexts := rfl

/-! ## Origins -/

/-- What is found under a text among the declarations of one unit. -/
theorem find?_declaredTexts (u : UnitEntry) (text : String) :
    ((u.declaredTexts.map fun text => (text, u.path)).reverse.find? fun d =>
      decide (d.1 = text)) = if text ∈ u.declaredTexts then some (text, u.path) else none := by
  cases hfind : (u.declaredTexts.map fun text => (text, u.path)).reverse.find? fun d =>
      decide (d.1 = text) with
  | none =>
    have hnot : text ∉ u.declaredTexts := by
      intro hmem
      have hnone := List.find?_eq_none.mp hfind (text, u.path)
      simp [hmem] at hnone
    rw [if_neg hnot]
  | some d =>
    have hname := List.find?_some hfind
    have hmem := List.mem_of_find?_eq_some hfind
    grind

/-- In the table, the last unit with a text stands for it. -/
theorem declaringUnit?_eq_some_iff {path : String} :
    m.table.declaringUnit? text = some path ↔
      ∃ front u back, m.units = front ++ u :: back ∧ u.path = path ∧ text ∈ u.declaredTexts ∧
        ∀ v ∈ back, text ∉ v.declaredTexts := by
  -- Going through the table from behind is going through the units from behind.
  unfold SymbolTable.declaringUnit?
  rw [declared_table, List.reverse_flatMap, List.find?_flatMap, Option.map_eq_some_iff]
  simp only [Function.comp_apply, find?_declaredTexts, List.findSome?_eq_some_iff]
  constructor
  · rintro ⟨d, ⟨back, u, front, hunits, hu, hback⟩, rfl⟩
    refine ⟨front.reverse, u, back.reverse, ?_, ?_⟩
    · rw [← List.reverse_reverse m.units, hunits]
      simp
    · grind
  · rintro ⟨front, u, back, hunits, rfl, hu, hback⟩
    refine ⟨(text, u.path), ⟨back.reverse, u, front.reverse, ?_, ?_⟩, rfl⟩
    · simp [hunits]
    · grind

theorem declaringUnit?_eq_none_iff :
    m.table.declaringUnit? text = none ↔ ∀ u ∈ m.units, text ∉ u.declaredTexts := by
  unfold SymbolTable.declaringUnit?
  rw [Option.map_eq_none_iff, List.find?_eq_none, declared_table]
  simp only [List.mem_reverse, List.mem_flatMap, List.mem_map, decide_eq_true_eq]
  constructor
  · intro h u hu hmem
    exact h (text, u.path) ⟨u, hu, text, hmem, rfl⟩ rfl
  · rintro h d ⟨u, hu, _, hmem, rfl⟩ rfl
    exact h u hu hmem

/-- **The table knows where every text comes from.** -/
theorem originOf_eq_iff {o : Origin} : m.table.originOf text = o ↔ m.ComesFrom text o := by
  have hclasspath : text ∈ m.table.classpath ↔ ∃ e ∈ m.classpath, text ∈ e.declaredTexts := by
    rw [classpath_table, List.mem_flatMap]
  constructor
  · rintro rfl
    unfold SymbolTable.originOf
    split
    · next path hpath =>
      obtain ⟨front, u, back, hunits, rfl, hu, hback⟩ := declaringUnit?_eq_some_iff.mp hpath
      exact .source hunits hu hback
    · next hnone =>
      have hunits := declaringUnit?_eq_none_iff.mp hnone
      split
      · next hmem => exact .classpath hunits (hclasspath.mp hmem)
      · next hnot => exact .unresolved hunits fun e he hmem => hnot (hclasspath.mpr ⟨e, he, hmem⟩)
  · intro h
    unfold SymbolTable.originOf
    cases h with
    | source hunits hu hlast =>
      rw [declaringUnit?_eq_some_iff.mpr ⟨_, _, _, hunits, rfl, hu, hlast⟩]
    | classpath hunits hmem =>
      rw [declaringUnit?_eq_none_iff.mpr hunits]
      exact if_pos (hclasspath.mpr hmem)
    | unresolved hunits hnone =>
      rw [declaringUnit?_eq_none_iff.mpr hunits]
      refine if_neg fun hmem => ?_
      obtain ⟨e, he, htext⟩ := hclasspath.mp hmem
      exact hnone e he htext

instance (o : Origin) : Decidable (m.ComesFrom text o) := decidable_of_iff _ originOf_eq_iff

theorem comesFrom_unresolved_iff : m.ComesFrom text .unresolved ↔ text ∉ m.declaredTexts := by
  rw [mem_declaredTexts_iff]
  constructor
  · rintro (_ | _ | ⟨hunits, hclasspath⟩) (⟨u, hu, hmem⟩ | ⟨e, he, hmem⟩)
    · exact hunits u hu hmem
    · exact hclasspath e he hmem
  · intro hnot
    refine .unresolved ?_ ?_
    · exact fun u hu hmem => hnot (.inl ⟨u, hu, hmem⟩)
    · exact fun e he hmem => hnot (.inr ⟨e, he, hmem⟩)

/-- The table has one entry for each text that is declared. -/
theorem size_table (m : Manifest) : m.table.size = m.declaredTexts.toFinset.card := by
  have hnames : m.table.declared.map (·.1) ++ m.table.classpath = m.declaredTexts := by
    rw [declared_table, classpath_table, declaredTexts, List.map_flatMap]
    simp [Function.comp_def]
  rw [SymbolTable.size, SymbolTable.names, hnames, length_eraseDups]

/-! ## The attribute phase -/

/-- The error for an import text of a unit. -/
def cannotFind (path text : String) : Diagnostic where
  severity := .error
  source := "attribute"
  message := s!"cannot find symbol '{text}'"
  unit? := some path
  location? := some s!"import {text}"

theorem resolutions_lower (m : Manifest) (u : UnitEntry) :
    u.lower.resolutions m.table =
      u.imports.map fun text => ⟨Import.ofText text, m.table.originOf text⟩ := by
  simp [CompilationUnit.resolutions, UnitEntry.lower, SymbolTable.resolve,
    Import.qualified_ofText]

theorem importErrors_lower (m : Manifest) (u : UnitEntry) :
    u.lower.importErrors m.table =
      (u.imports.filter fun text => decide (m.ComesFrom text .unresolved)).map
        (cannotFind u.path) := by
  unfold CompilationUnit.importErrors
  rw [resolutions_lower, List.filter_map, List.map_map]
  simp only [Function.comp_def, originOf_eq_iff]
  refine List.map_congr_left fun text _ => ?_
  unfold CompilationUnit.unresolvedImport
  rw [Import.qualified_ofText]
  rfl

/-- The log gains the errors, recorded as they are. -/
theorem diagnostics_attributeImports (m : Manifest) (u : UnitEntry) (log : Log) :
    (u.lower.attributeImports m.table log).2.diagnostics =
      log.diagnostics ++
        (u.imports.filter fun text => decide (m.ComesFrom text .unresolved)).map
          (cannotFind u.path) := by
  show (log.reportAll (u.lower.importErrors m.table)).diagnostics = _
  rw [Log.diagnostics_reportAll, importErrors_lower, List.map_map]
  refine congrArg _ (List.map_congr_left fun text _ => ?_)
  apply Log.recorded_of_ne_warning
  show Severity.error ≠ _
  decide

/-- What the attribute phase makes of the imports of a unit. -/
structure AttributesTexts (m : Manifest) (u : UnitEntry) (log : Log) : Prop where
  /-- Each text has one resolution, in the place of the text. -/
  resolved : List.Forall₂ (fun text r => r.imported.qualified = text ∧
    ∀ o, r.origin = o ↔ m.ComesFrom text o) u.imports (u.lower.attributeImports m.table log).1
  /-- Each text that is declared nowhere is an error, and there are no others. -/
  logged : (u.lower.attributeImports m.table log).2.diagnostics =
    log.diagnostics ++
      (u.imports.filter fun text => decide (m.ComesFrom text .unresolved)).map (cannotFind u.path)

/-- **Imports are attributed by their texts**, in every manifest, and the symbol table has one entry
for each text that is declared. -/
theorem attributes_texts (m : Manifest) :
    (∀ u log, m.AttributesTexts u log) ∧ m.table.size = m.declaredTexts.toFinset.card := by
  refine ⟨fun u log => ⟨?_, m.diagnostics_attributeImports u log⟩, m.size_table⟩
  show List.Forall₂ _ u.imports (u.lower.resolutions m.table)
  rw [resolutions_lower, List.forall₂_map_right_iff, List.forall₂_same]
  exact fun text _ => ⟨Import.qualified_ofText text, fun _ => originOf_eq_iff⟩

end Manifest

end AnalysisHost
