import AnalysisHost.Proofs.CycleSearch
import Mathlib.Data.List.Cycle

/-!
# Counting cycles

The search keeps the cycles that it finds in canonical form, each form once, and it counts what it
keeps. That this is the number of cycles rests on two things: lists without repetition have the same
canonical form exactly if they are rotations of each other (`Cycle.canonical_eq_iff`), and a way
back never goes through a package twice (`ImportCycles.nodup_closed`). As a `Cycle` is a list up to
rotation, the number is stated as the number of different `Cycle`s among the lists.
-/

namespace AnalysisHost

namespace Cycle

/-! ## Canonical forms -/

theorem nodup_canonical {c : List String} (h : c.Nodup) : (canonical c).Nodup :=
  (isRotation_iff.mp (isRotation_canonical c)).nodup_iff.mp h

/-- The canonical form of a list that has members begins with the smallest of them. -/
theorem head?_canonical {c : List String} (h : c ≠ []) :
    ∃ first, (canonical c).head? = some first ∧ first ∈ c ∧ ∀ x ∈ c, first ≤ x := by
  have hmem := fun x => (isRotation_iff.mp (isRotation_canonical c)).mem_iff (a := x)
  obtain ⟨x, hx⟩ := List.exists_mem_of_ne_nil c h
  obtain ⟨first, rest, hcanonical⟩ :=
    List.exists_cons_of_ne_nil (List.ne_nil_of_mem ((hmem x).mp hx))
  have hhead : (canonical c).head? = some first := by rw [hcanonical, List.head?_cons]
  refine ⟨first, hhead, (hmem first).mpr (List.mem_of_head? hhead), ?_⟩
  intro y hy
  exact canonical_leastFirst c first hhead y ((hmem y).mp hy)

theorem canonical_canonical {c : List String} (h : c.Nodup) :
    canonical (canonical c) = canonical c :=
  (eq_of_isRotation (nodup_canonical h) (canonical_leastFirst c) (canonical_leastFirst _)
    (isRotation_canonical _)).symm

/-- **Lists without repetition have the same canonical form exactly if they are rotations of each
other.** -/
theorem canonical_eq_iff {c d : List String} (hc : c.Nodup) :
    canonical c = canonical d ↔ IsRotation c d := by
  have hcanonical := fun l => isRotation_iff.mp (isRotation_canonical l)
  rw [isRotation_iff]
  constructor
  · intro h
    have hcd : (canonical c).IsRotated d := by
      rw [h]
      exact (hcanonical d).symm
    exact (hcanonical c).trans hcd
  · intro h
    apply eq_of_isRotation (nodup_canonical hc) (canonical_leastFirst c) (canonical_leastFirst d)
    apply isRotation_iff.mpr
    exact (hcanonical c).symm.trans (h.trans (hcanonical d))

/-- Where a list has a member twice, its canonical form depends on where it begins. -/
example : canonical ["a", "a", "b"] ≠ canonical ["a", "b", "a"] ∧
    IsRotation ["a", "a", "b"] ["a", "b", "a"] :=
  ⟨by decide, ["a"], ["a", "b"], rfl, rfl⟩

/-- A list, read around from wherever one likes. -/
def upToRotation (c : List String) : Cycle String := ↑c

theorem upToRotation_eq_iff {c d : List String} :
    upToRotation c = upToRotation d ↔ IsRotation c d :=
  Cycle.coe_eq_coe.trans isRotation_iff.symm

theorem upToRotation_canonical (c : List String) : upToRotation (canonical c) = upToRotation c :=
  (upToRotation_eq_iff.mpr (isRotation_canonical c)).symm

/-- There are as many canonical forms as there are lists up to rotation. -/
theorem card_canonical {found : List (List String)} (h : ∀ c ∈ found, c.Nodup) :
    (found.map canonical).toFinset.card = (found.map upToRotation).toFinset.card := by
  have himage : (found.map upToRotation).toFinset =
      (found.map canonical).toFinset.image upToRotation := by
    ext cycle
    simp [upToRotation_canonical]
  rw [himage, Finset.card_image_of_injOn]
  intro x hx y hy hxy
  obtain ⟨c, hc, rfl⟩ := List.mem_map.mp (List.mem_toFinset.mp hx)
  obtain ⟨d, hd, rfl⟩ := List.mem_map.mp (List.mem_toFinset.mp hy)
  rw [canonical_eq_iff (h c hc), ← upToRotation_eq_iff]
  simpa only [upToRotation_canonical] using hxy

end Cycle

namespace ImportCycles

/-! ## Cycles that are kept -/

/-- The search keeps each form that it is given once. -/
theorem length_fresh (found : List (List String)) :
    (fresh [] found).length = found.toFinset.card := by
  have hnodup : (fresh [] found).Nodup := nodup_append_fresh List.nodup_nil found
  rw [← List.toFinset_card_of_nodup hnodup]
  congr 1
  ext cycle
  have hmem : cycle ∈ [] ++ fresh [] found ↔ cycle ∈ [] ∨ cycle ∈ found := mem_append_fresh
  simpa using hmem

theorem fresh_append (known found more : List (List String)) :
    fresh known (found ++ more) =
      fresh known found ++ fresh (known ++ fresh known found) more := by
  induction found generalizing known with
  | nil => rw [fresh_nil, List.append_nil]; rfl
  | cons first found ih =>
    rw [List.cons_append]
    by_cases hfirst : first ∈ known
    · rw [fresh_cons_of_mem hfirst, fresh_cons_of_mem hfirst, ih]
    · rw [fresh_cons_of_not_mem hfirst, fresh_cons_of_not_mem hfirst, ih, List.append_assoc]
      rfl

/-- What is found in a unit. -/
structure Batch where
  unit : String
  /-- The cycles, begun anywhere. -/
  cycles : List (List String)

/-- Note the cycles of one unit after another, until one of them aborts the run. -/
def noteAll (p : ImportCycles) (log : Log) :
    List Batch → Except Failure Unit × ImportCycles × Log
  | [] => (.ok (), p, log)
  | batch :: batches =>
    match noteCycles batch.unit p log (batch.cycles.map Cycle.canonical) with
    | (.ok (), p', log') => p'.noteAll log' batches
    | failed => failed

/-- What is kept after some units is what would be kept if all of it were found in one. -/
theorem cycles_noteAll {p : ImportCycles} (h : p.mode ≠ .fatal) (log : Log)
    (batches : List Batch) :
    (p.noteAll log batches).2.1.cycles =
      p.cycles ++ fresh p.cycles ((batches.flatMap Batch.cycles).map Cycle.canonical) := by
  induction batches generalizing p log with
  | nil => exact (List.append_nil _).symm
  | cons batch batches ih =>
    rw [noteAll, noteCycles_of_ne_fatal h]
    dsimp only
    rw [ih (by exact h), List.flatMap_cons, List.map_append, fresh_append, List.append_assoc]

/-- No package is in a cycle twice, for the way back goes through none twice. -/
theorem nodup_closed {g : PackageGraph} {package target : String} {back : List String}
    (h : g.path target package = some back) : (package :: back.dropLast).Nodup := by
  obtain ⟨-, -, hlast, hnodup⟩ := PackageGraph.path_eq_some h
  obtain ⟨front, rfl⟩ := List.getLast?_eq_some_iff.mp hlast
  rw [List.dropLast_concat]
  exact (List.perm_append_singleton package front).nodup_iff.mp hnodup

/-- What the edges of a unit close are canonical forms of lists without repetition. -/
theorem exists_nodup_of_addEdges (g : PackageGraph) (package : String) (targets : List String) :
    ∃ cycles : List (List String), (∀ c ∈ cycles, c.Nodup) ∧
      (addEdges package g targets).2 = cycles.map Cycle.canonical := by
  induction targets generalizing g with
  | nil => exact ⟨[], List.forall_mem_nil _, rfl⟩
  | cons target targets ih =>
    by_cases hedge : g.Adj package target
    · rw [addEdges_cons_of_hasEdge hedge]
      exact ih g
    · rw [addEdges_cons hedge]
      obtain ⟨cycles, hnodup, hrest⟩ := ih (g.addEdge package target)
      rw [hrest, closedCycle?]
      cases hpath : (g.addEdge package target).path target package with
      | none => exact ⟨cycles, hnodup, rfl⟩
      | some back =>
        exact ⟨_ :: cycles, List.forall_mem_cons.mpr ⟨nodup_closed hpath, hnodup⟩, rfl⟩

/-- What a new search that warns has kept after some units. -/
def kept (log : Log) (batches : List Batch) : List (List String) :=
  (({ mode := .warn } : ImportCycles).noteAll log batches).2.1.cycles

theorem length_kept (log : Log) {batches : List Batch}
    (h : ∀ batch ∈ batches, ∀ c ∈ batch.cycles, c.Nodup) :
    (kept log batches).length =
      ((batches.flatMap Batch.cycles).map Cycle.upToRotation).toFinset.card := by
  have hall : ∀ c ∈ batches.flatMap Batch.cycles, c.Nodup := by
    intro c hc
    obtain ⟨batch, hbatch, hmem⟩ := List.mem_flatMap.mp hc
    exact h batch hbatch c hmem
  rw [kept, cycles_noteAll (by decide), List.nil_append, length_fresh, Cycle.card_canonical hall]

end ImportCycles

namespace Cycle

/-- What the canonical form of a list says of it, and of another list. -/
structure Characterizes (c d : List String) : Prop where
  rotation : IsRotation c (canonical c)
  leastFirst (h : c ≠ []) : ∃ first, (canonical c).head? = some first ∧ first ∈ c ∧
    ∀ x ∈ c, first ≤ x
  idempotent : canonical (canonical c) = canonical c
  eq_iff : canonical c = canonical d ↔ IsRotation c d

/-- **Canonical forms count cycles.** For lists without repetition, and such are the lists that are
found, they tell rotations from other lists, and the forms that are kept over some units are as many
as the lists that were found there, up to rotation. -/
theorem canonical_counts {c d : List String} (hc : c.Nodup) (hd : d.Nodup)
    {batches : List ImportCycles.Batch}
    (hbatches : ∀ batch ∈ batches, ∀ cycle ∈ batch.cycles, cycle.Nodup) :
    Characterizes c d ∧ Characterizes d c ∧
      (∀ log, (ImportCycles.kept log batches).length =
        ((batches.flatMap ImportCycles.Batch.cycles).map upToRotation).toFinset.card) ∧
      ∀ g package targets, ∃ cycles : List (List String), (∀ cycle ∈ cycles, cycle.Nodup) ∧
        (ImportCycles.addEdges package g targets).2 = cycles.map canonical := by
  refine ⟨?_, ?_, fun log => ImportCycles.length_kept log hbatches,
    ImportCycles.exists_nodup_of_addEdges⟩
  · exact ⟨isRotation_canonical c, head?_canonical, canonical_canonical hc, canonical_eq_iff hc⟩
  · exact ⟨isRotation_canonical d, head?_canonical, canonical_canonical hd, canonical_eq_iff hd⟩

/-- Two cycles, each of which is found twice. -/
theorem canonical_counts_two :
    let batches : List ImportCycles.Batch :=
      [⟨"A.java", [["b", "a"], ["a", "b"]]⟩, ⟨"B.java", [["c", "a", "b"], ["b", "c", "a"]]⟩]
    canonical ["c", "a", "b"] = ["a", "b", "c"] ∧
      canonical ["c", "a", "b"] = canonical ["b", "c", "a"] ∧
      (ImportCycles.kept .empty batches).length = 2 := by
  intro batches
  have hnodup : ∀ batch ∈ batches, ∀ cycle ∈ batch.cycles, cycle.Nodup := by decide
  have hcounts := canonical_counts (c := ["c", "a", "b"]) (d := ["b", "c", "a"]) (by decide)
    (by decide) hnodup
  refine ⟨by decide, hcounts.1.eq_iff.mpr ⟨["c", "a"], ["b"], rfl, rfl⟩, ?_⟩
  rw [hcounts.2.2.1]
  decide

end Cycle

end AnalysisHost
