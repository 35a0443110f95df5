import AnalysisHost.Analysis.StrictDeps
import AnalysisHost.Proofs.ImportGraph
import Mathlib.Data.Finset.Card

/-!
# Undeclared packages

The strict dependency check notes the uses of undeclared packages unit by unit, and asks at the end
which packages these were.

- `StrictDeps.missing_eq`: these are the packages of all uses, in the order of their first use;
- `Manifest.missing_eq_undeclared`: over a whole manifest they are `Manifest.undeclared`;
- `Manifest.Valid.mem_undeclared_iff`: what that list holds, in terms of the manifest.
-/

namespace AnalysisHost

/-! ## Removing duplicates -/

theorem eraseDups_concat {α : Type} [DecidableEq α] (as : List α) (a : α) :
    (as ++ [a]).eraseDups = if a ∈ as then as.eraseDups else as.eraseDups ++ [a] := by
  rw [List.eraseDups_append, List.cons_removeAll, List.nil_removeAll]
  by_cases h : a ∈ as
  · simp [h]
  · simp [h, List.eraseDups_cons]

theorem nodup_eraseDups {α : Type} [DecidableEq α] (as : List α) : as.eraseDups.Nodup := by
  induction as using List.reverseRecOn with
  | nil => exact List.nodup_nil
  | append_singleton as a ih =>
    rw [eraseDups_concat]
    split
    · exact ih
    · next hnot =>
      rw [Manifest.nodup_concat_iff ih, List.mem_eraseDups]
      exact hnot

/-- What is left without duplicates is counted as a set. -/
theorem length_eraseDups {α : Type} [DecidableEq α] (as : List α) :
    as.eraseDups.length = as.toFinset.card := by
  rw [← List.toFinset_card_of_nodup (nodup_eraseDups as)]
  congr 1
  ext a
  simp

/-- Duplicates may be removed before a map as well. -/
theorem eraseDups_map_eraseDups {α β : Type} [DecidableEq α] [DecidableEq β] (f : α → β)
    (as : List α) : (as.eraseDups.map f).eraseDups = (as.map f).eraseDups := by
  induction as using List.reverseRecOn with
  | nil => rfl
  | append_singleton as a ih =>
    rw [eraseDups_concat, List.map_append, List.map_singleton, eraseDups_concat]
    split
    · next hmem => rw [if_pos (List.mem_map_of_mem hmem), ih]
    · -- A new element may still have the image of an old one.
      rw [List.map_append, List.map_singleton, eraseDups_concat, ih]
      have hiff : f a ∈ as.eraseDups.map f ↔ f a ∈ as.map f := by
        simp only [List.mem_map, List.mem_eraseDups]
      simp only [hiff]

namespace StrictDeps

/-! ## Nested packages -/

/-- A package is another one, or is nested in it. -/
def Nested (outer package : String) : Prop :=
  package = outer ∨ ∃ rest, package = outer ++ "." ++ rest

theorem isWithin_iff {outer package : String} :
    isWithin outer package = true ↔ Nested outer package := by
  unfold isWithin Nested
  constructor
  · intro h
    split at h
    · next hafter =>
      have hchars := Text.after?_eq_some_iff.mp hafter
      rw [List.append_nil] at hchars
      left
      exact String.toList_inj.mp hchars
    · next rest hafter =>
      refine Or.inr ⟨String.ofList rest, String.toList_inj.mp ?_⟩
      rw [Text.after?_eq_some_iff.mp hafter, Text.toList_dotted, String.toList_ofList]
    · cases h
  · rintro (rfl | ⟨rest, rfl⟩)
    · rw [Text.after?_eq_some_iff.mpr (List.append_nil _).symm]
    · have hafter : Text.after? outer.toList (outer ++ "." ++ rest).toList =
          some ('.' :: rest.toList) := by
        rw [Text.after?_eq_some_iff, Text.toList_dotted]
      rw [hafter]
      rfl

instance (outer package : String) : Decidable (Nested outer package) :=
  decidable_of_iff _ isWithin_iff

theorem isUndeclared_iff {p : StrictDeps} {r : Resolution} :
    p.isUndeclared r = true ↔
      r.origin = .classpath ∧ ∀ d ∈ p.direct, ¬ Nested d r.imported.package := by
  unfold isUndeclared isDirect
  simp only [Bool.and_eq_true, decide_eq_true_eq, Bool.not_eq_true', List.any_eq_false,
    isWithin_iff]

/-! ## Uses -/

/-- The uses of undeclared packages in some units, in order. -/
def undeclaredUses (table : SymbolTable) (direct : List String) (units : List CompilationUnit) :
    List UndeclaredUse :=
  units.flatMap fun u =>
    ((u.resolutions table).filter ({ direct } : StrictDeps).isUndeclared).map fun r =>
      ⟨r.imported.package, u.path⟩

/-- Noting uses one by one leaves each of them once, in order. -/
theorem foldl_addUse {p : StrictDeps} {noted : List UndeclaredUse} (h : p.uses = noted.eraseDups)
    (uses : List UndeclaredUse) :
    uses.foldl addUse p = { p with uses := (noted ++ uses).eraseDups } := by
  induction uses generalizing p noted with
  | nil =>
    rw [List.append_nil, ← h]
    rfl
  | cons use uses ih =>
    rw [List.foldl_cons, List.append_cons]
    have hstep : (p.addUse use).uses = (noted ++ [use]).eraseDups := by
      rw [addUse, eraseDups_concat, h]
      simp only [List.mem_eraseDups]
      split
      · exact h
      · rfl
    have hrest : p.addUse use = { p with uses := (p.addUse use).uses } := by
      unfold addUse
      split <;> rfl
    rw [ih hstep, hrest]

/-- The undeclared packages are those of all uses, each once, in the order of their first use. -/
theorem missing_eq {p : StrictDeps} {noted : List UndeclaredUse} (h : p.uses = noted.eraseDups) :
    p.missing = (noted.map (·.package)).eraseDups := by
  rw [missing, h, eraseDups_map_eraseDups]

end StrictDeps

namespace Manifest

/-- The packages on the classpath that units import from although they are neither declared nor
nested in a declared one: each once, in the order of their first use. -/
def undeclared (m : Manifest) (direct : List String) : List String :=
  (((m.lower.flatMap (·.imports)).filter fun i =>
    decide (m.table.resolve i = .classpath ∧ ∀ d ∈ direct, ¬ StrictDeps.Nested d i.package)).map
      (·.package)).eraseDups

theorem missing_eq_undeclared {m : Manifest} {p : StrictDeps}
    (h : p.uses = (StrictDeps.undeclaredUses m.table p.direct m.lower).eraseDups) :
    p.missing = m.undeclared p.direct := by
  rw [StrictDeps.missing_eq h, undeclared, StrictDeps.undeclaredUses]
  congr 1
  -- Unit by unit, resolving imports first or filtering them first is the same.
  induction m.lower with
  | nil => rfl
  | cons u units ih =>
    rw [List.flatMap_cons, List.flatMap_cons, List.map_append, List.filter_append,
      List.map_append, ih]
    congr 1
    rw [CompilationUnit.resolutions, List.filter_map, List.map_map, List.map_map]
    refine congrArg (List.map _) (List.filter_congr ?_)
    intro i _
    rw [Bool.eq_iff_iff, decide_eq_true_iff]
    exact StrictDeps.isUndeclared_iff

/-- A unit imports a type of a package on the classpath that no unit declares, and the package is
neither declared nor nested in a declared one. -/
def IsUndeclared (m : Manifest) (direct : List String) (package : String) : Prop :=
  (∀ d ∈ direct, ¬ StrictDeps.Nested d package) ∧
    ∃ u ∈ m.units, ∃ e ∈ m.classpath, e.package = package ∧ ∃ type ∈ e.types,
      qualify package type ∈ u.imports ∧
        ¬ ∃ v ∈ m.units, ∃ t ∈ v.types, qualify v.package t = qualify package type

/-- **What is undeclared**: just the packages that a unit uses without their being declared. -/
theorem Valid.mem_undeclared_iff {m : Manifest} (hvalid : m.Valid) {direct : List String}
    {package : String} : package ∈ m.undeclared direct ↔ m.IsUndeclared direct package := by
  have hsource : ∀ qualified, (∃ d ∈ m.table.declared, d.1 = qualified) ↔
      ∃ v ∈ m.units, ∃ t ∈ v.types, qualify v.package t = qualified := by
    intro qualified
    rw [table, SymbolTable.mem_declared_build, Manifest.lower]
    simp only [List.mem_map, exists_exists_and_eq_and]
    rfl
  unfold undeclared IsUndeclared
  rw [List.mem_eraseDups, List.mem_map]
  constructor
  · rintro ⟨i, hi, rfl⟩
    obtain ⟨hi, hkept⟩ := List.mem_filter.mp hi
    obtain ⟨horigin, hdirect⟩ := of_decide_eq_true hkept
    obtain ⟨w, hw, hi⟩ := List.mem_flatMap.mp hi
    obtain ⟨u, hu, rfl⟩ := List.mem_map.mp hw
    obtain ⟨text, htext, rfl⟩ := List.mem_map.mp hi
    obtain ⟨hqualified, hpackage⟩ := Import.ofText_eq ((hvalid.unit hu).imports text htext)
    rw [SymbolTable.resolve_eq_classpath_iff, hqualified, hsource] at horigin
    obtain ⟨hnone, hclasspath⟩ := horigin
    obtain ⟨e, he, type, htype, heq⟩ := SymbolTable.mem_classpath_build.mp hclasspath
    -- As for types of the sources, the import names the package of the entry.
    have hdot := (hvalid.classpathTypes he type htype).dot_not_mem
    have hsame : (Import.ofText text).package = e.package := hpackage e.package type hdot heq
    have heq : qualify (Import.ofText text).package type = text := by
      rw [hsame]
      exact heq
    refine ⟨hdirect, u, hu, e, he, hsame.symm, type, htype, ?_, ?_⟩
    · rw [heq]
      exact htext
    · rw [heq]
      exact hnone
  · rintro ⟨hdirect, u, hu, e, he, rfl, type, htype, htext, hnone⟩
    obtain ⟨hqualified, hpackage⟩ := Import.ofText_eq ((hvalid.unit hu).imports _ htext)
    have hdot := (hvalid.classpathTypes he type htype).dot_not_mem
    have hsame := hpackage e.package type hdot rfl
    refine ⟨Import.ofText (qualify e.package type), ?_, hsame⟩
    rw [List.mem_filter, decide_eq_true_iff, SymbolTable.resolve_eq_classpath_iff, hqualified,
      hsource, hsame]
    refine ⟨?_, ⟨hnone, ?_⟩, hdirect⟩
    · exact List.mem_flatMap.mpr ⟨u.lower, List.mem_map_of_mem hu, List.mem_map_of_mem htext⟩
    · exact SymbolTable.mem_classpath_build.mpr ⟨e, he, type, htype, rfl⟩

end Manifest

end AnalysisHost
