import AnalysisHost.Analysis.ImportCycles
import AnalysisHost.Proofs.Cycles

/-!
# What the search for import cycles finds

Edges are added one by one, unit by unit, and each new edge is followed by one search for a way
back. `survey` is what all of this comes to over some units, apart from the rest of a run: the
graph, and the cycles that were new when they were found, each with the unit that closed it.

- `adj_survey`: the edges are those of the units;
- `closes_of_mem_survey`: what is found is a cycle with the edges of its unit, and none without
  them;
- `pairwise_survey`: no cycle is found in two rotations;
- `findings_eq_nil_iff`: nothing is found exactly if the graph is acyclic.
-/

namespace AnalysisHost

namespace Cycle

/-- A way along some edges and one more: either along the old ones, or over the new one. -/
theorem transGen_or {R S : String → String → Prop} {a b : String}
    (hS : ∀ x y, S x y → R x y ∨ (x = a ∧ y = b)) {x y : String} (h : Relation.TransGen S x y) :
    Relation.TransGen R x y ∨ (Relation.ReflTransGen S x a ∧ Relation.ReflTransGen S b y) := by
  induction h with
  | single hxy =>
    rcases hS _ _ hxy with hold | ⟨rfl, rfl⟩
    · left
      exact Relation.TransGen.single hold
    · exact Or.inr ⟨Relation.ReflTransGen.refl, Relation.ReflTransGen.refl⟩
  | tail hxy hyz ih =>
    rcases ih with hold | ⟨hxa, hby⟩
    · rcases hS _ _ hyz with hedge | ⟨rfl, rfl⟩
      · left
        exact hold.tail hedge
      · exact Or.inr ⟨hxy.to_reflTransGen, Relation.ReflTransGen.refl⟩
    · exact Or.inr ⟨hxa, hby.tail hyz⟩

/-- One more edge closes no cycle if there is no way back. -/
theorem Acyclic.of_no_way_back {R S : String → String → Prop} {a b : String} (h : Acyclic R)
    (hS : ∀ x y, S x y → R x y ∨ (x = a ∧ y = b)) (hback : ¬ Relation.ReflTransGen S b a) :
    Acyclic S := by
  intro x hx
  rcases transGen_or hS hx with hold | ⟨hxa, hbx⟩
  · exact h x hold
  · apply hback
    exact hbx.trans hxa

/-- Edges that leave a package close a cycle: it is one with them, and none without them. -/
structure Closes (before after : String → String → Prop) (package : String)
    (cycle : List String) : Prop where
  elementary : IsElementary after cycle
  missing : ¬ IsElementary before cycle
  through : package ∈ cycle
  leastFirst : LeastFirst cycle

theorem Closes.mono {R R' S S' : String → String → Prop} {package : String} {cycle : List String}
    (h : Closes R S package cycle) (hR : ∀ a b, R' a b → R a b) (hS : ∀ a b, S a b → S' a b) :
    Closes R' S' package cycle where
  elementary := h.elementary.mono hS
  missing := fun hcycle => h.missing (hcycle.mono hR)
  through := h.through
  leastFirst := h.leastFirst

end Cycle

namespace ImportCycles

open AnalysisHost.Cycle

/-! ## One edge

A search starts from the target of the new edge. The way back that it finds is turned into the
canonical form, so what has to be shown of it goes through rotations. -/

/-- What is found for a new edge is the way back and the edge itself. -/
theorem closes_of_closedCycle? {g : PackageGraph} {package target : String} {cycle : List String}
    (h : closedCycle? (g.addEdge package target) package target = some cycle)
    (hnew : ¬ g.Adj package target) :
    Closes g.Adj (g.addEdge package target).Adj package cycle := by
  unfold closedCycle? at h
  obtain ⟨back, hpath, rfl⟩ := Option.map_eq_some_iff.mp h
  obtain ⟨hchain, hfirst, hlast, hnodup⟩ := PackageGraph.path_eq_some hpath
  have hne : back ≠ [] := by
    rintro rfl
    cases hfirst
  have hback : back = back.dropLast ++ [package] := by
    rw [List.getLast?_eq_some_getLast hne] at hlast
    rw [← Option.some.inj hlast, List.dropLast_append_getLast]
  have hrotation : IsRotation back (canonical (package :: back.dropLast)) := by
    have hcanonical := isRotation_iff.mp (isRotation_canonical (package :: back.dropLast))
    have hfront : back.IsRotated (package :: back.dropLast) := by
      rw [hback, List.dropLast_concat]
      exact List.isRotated_concat _ _
    apply isRotation_iff.mpr
    exact hfront.trans hcanonical
  -- Whatever has this cycle has the edge, which leads from its last member to its first.
  have hcloses : ∀ R, IsElementary R back → R package target :=
    fun R hR => hR.closes package hlast target hfirst
  refine ⟨?_, ?_, ?_, canonical_leastFirst _⟩
  · refine IsElementary.of_isRotation ⟨hne, hnodup, hchain, ?_⟩ hrotation
    intro x hx y hy
    rw [hlast] at hx
    rw [hfirst] at hy
    cases hx
    cases hy
    apply PackageGraph.adj_addEdge.mpr
    right
    exact ⟨rfl, rfl⟩
  · intro hcycle
    have hrotation' := isRotation_iff.mpr (isRotation_iff.mp hrotation).symm
    apply hnew
    exact hcloses _ (hcycle.of_isRotation hrotation')
  · apply (isRotation_iff.mp hrotation).mem_iff.mp
    rw [hback]
    apply List.mem_append_right
    exact List.mem_singleton_self package

/-! ## The edges of a unit -/

/-- An edge that is there already is not searched for. -/
theorem addEdges_cons_of_hasEdge {g : PackageGraph} {package target : String}
    (h : g.Adj package target) (targets : List String) :
    addEdges package g (target :: targets) = addEdges package g targets := by
  rw [addEdges, PackageGraph.hasEdge, decide_eq_true h]
  rfl

theorem addEdges_cons {g : PackageGraph} {package target : String}
    (h : ¬ g.Adj package target) (targets : List String) :
    addEdges package g (target :: targets) =
      ((addEdges package (g.addEdge package target) targets).1,
        (closedCycle? (g.addEdge package target) package target).toList ++
          (addEdges package (g.addEdge package target) targets).2) := by
  rw [addEdges, PackageGraph.hasEdge, decide_eq_false h]
  rfl

/-- The edges of a package are added, whatever is found on the way. -/
theorem adj_addEdges {g : PackageGraph} {package : String} {targets : List String} {a b : String} :
    (addEdges package g targets).1.Adj a b ↔ g.Adj a b ∨ (a = package ∧ b ∈ targets) := by
  induction targets generalizing g with
  | nil => simp [addEdges]
  | cons target targets ih =>
    by_cases h : g.Adj package target
    · rw [addEdges_cons_of_hasEdge h, ih, List.mem_cons]
      constructor
      · rintro (hold | ⟨ha, hb⟩)
        · exact Or.inl hold
        · exact Or.inr ⟨ha, Or.inr hb⟩
      · rintro (hold | ⟨rfl, rfl | hb⟩)
        · exact Or.inl hold
        · exact Or.inl h
        · exact Or.inr ⟨rfl, hb⟩
    · rw [addEdges_cons h, ih, PackageGraph.adj_addEdge, List.mem_cons]
      constructor
      · rintro ((hold | ⟨ha, hb⟩) | ⟨ha, hb⟩)
        · exact Or.inl hold
        · exact Or.inr ⟨ha, Or.inl hb⟩
        · exact Or.inr ⟨ha, Or.inr hb⟩
      · rintro (hold | ⟨ha, hb | hb⟩)
        · left
          left
          exact hold
        · left
          right
          exact ⟨ha, hb⟩
        · exact Or.inr ⟨ha, hb⟩

/-- Every cycle found is closed by the edges that are added. -/
theorem closes_of_mem_addEdges {g : PackageGraph} {package : String} {targets : List String}
    {cycle : List String} (h : cycle ∈ (addEdges package g targets).2) :
    Closes g.Adj (addEdges package g targets).1.Adj package cycle := by
  induction targets generalizing g with
  | nil => cases h
  | cons target targets ih =>
    by_cases hedge : g.Adj package target
    · rw [addEdges_cons_of_hasEdge hedge] at h ⊢
      exact ih h
    · rw [addEdges_cons hedge] at h ⊢
      rcases List.mem_append.mp h with hfound | hrest
      · -- The edges to come do not break the cycle of this one.
        have hcloses := closes_of_closedCycle? (Option.mem_toList.mp hfound) hedge
        exact hcloses.mono (fun _ _ hadj => hadj) fun _ _ hadj => adj_addEdges.mpr (Or.inl hadj)
      · refine (ih hrest).mono ?_ fun _ _ hadj => hadj
        intro _ _ hadj
        exact PackageGraph.adj_addEdge.mpr (Or.inl hadj)

/-- An acyclic graph stays acyclic if nothing is found: the last edge of a cycle would have had a
way back. -/
theorem acyclic_addEdges {g : PackageGraph} {package : String} {targets : List String}
    (hacyclic : Acyclic g.Adj) (h : (addEdges package g targets).2 = []) :
    Acyclic (addEdges package g targets).1.Adj := by
  induction targets generalizing g with
  | nil => exact hacyclic
  | cons target targets ih =>
    by_cases hedge : g.Adj package target
    · rw [addEdges_cons_of_hasEdge hedge] at h ⊢
      exact ih hacyclic h
    · rw [addEdges_cons hedge] at h ⊢
      obtain ⟨hfound, hrest⟩ := List.append_eq_nil_iff.mp h
      refine ih ?_ hrest
      refine hacyclic.of_no_way_back (fun x y => PackageGraph.adj_addEdge.mp) ?_
      cases hpath : (g.addEdge package target).path target package with
      | none => exact PackageGraph.path_eq_none hpath
      | some back =>
        rw [closedCycle?, hpath] at hfound
        cases hfound

/-! ## New cycles

A cycle that has been found before is not found again. The known ones are carried along, and `known
++ fresh known found` is what is known afterwards. -/

/-- The cycles that are not known yet, each once. -/
def fresh (known : List (List String)) : List (List String) → List (List String)
  | [] => []
  | cycle :: cycles =>
    if cycle ∈ known then fresh known cycles else cycle :: fresh (known ++ [cycle]) cycles

theorem fresh_nil (known : List (List String)) : fresh known [] = [] := rfl

theorem fresh_cons_of_mem {known : List (List String)} {cycle : List String} (h : cycle ∈ known)
    (cycles : List (List String)) : fresh known (cycle :: cycles) = fresh known cycles := if_pos h

theorem fresh_cons_of_not_mem {known : List (List String)} {cycle : List String}
    (h : cycle ∉ known) (cycles : List (List String)) :
    fresh known (cycle :: cycles) = cycle :: fresh (known ++ [cycle]) cycles := if_neg h

/-- What is known or found is all that is known in the end. -/
theorem mem_append_fresh {known found : List (List String)} {cycle : List String} :
    cycle ∈ known ++ fresh known found ↔ cycle ∈ known ∨ cycle ∈ found := by
  induction found generalizing known with
  | nil => rw [fresh_nil, List.append_nil, or_iff_left List.not_mem_nil]
  | cons first found ih =>
    by_cases hfirst : first ∈ known
    · rw [fresh_cons_of_mem hfirst, ih, List.mem_cons]
      constructor
      · rintro (hknown | hfound)
        · exact .inl hknown
        · exact .inr (.inr hfound)
      · rintro (hknown | rfl | hfound)
        · exact .inl hknown
        · exact .inl hfirst
        · exact .inr hfound
    · rw [fresh_cons_of_not_mem hfirst, List.append_cons, ih, List.mem_append,
        List.mem_singleton, List.mem_cons, or_assoc]

theorem mem_of_mem_fresh {known found : List (List String)} {cycle : List String}
    (h : cycle ∈ fresh known found) : cycle ∈ found := by
  induction found generalizing known with
  | nil => cases h
  | cons first found ih =>
    by_cases hfirst : first ∈ known
    · rw [fresh_cons_of_mem hfirst] at h
      apply List.mem_cons_of_mem
      exact ih h
    · rw [fresh_cons_of_not_mem hfirst] at h
      rcases List.mem_cons.mp h with rfl | hrest
      · exact List.mem_cons_self
      · apply List.mem_cons_of_mem
        exact ih hrest

/-- What is known stays free of duplicates. -/
theorem nodup_append_fresh {known : List (List String)} (h : known.Nodup)
    (found : List (List String)) : (known ++ fresh known found).Nodup := by
  induction found generalizing known with
  | nil =>
    rw [fresh_nil, List.append_nil]
    exact h
  | cons first found ih =>
    by_cases hfirst : first ∈ known
    · rw [fresh_cons_of_mem hfirst]
      exact ih h
    · rw [fresh_cons_of_not_mem hfirst, List.append_cons]
      apply ih
      refine List.Nodup.append h (List.nodup_singleton first) ?_
      intro x hx hmem
      cases List.mem_singleton.mp hmem
      exact hfirst hx

theorem fresh_nil_eq_nil_iff {found : List (List String)} : fresh [] found = [] ↔ found = [] := by
  cases found with
  | nil => exact Iff.rfl
  | cons first found => simp [fresh_cons_of_not_mem]

/-- The text of a warning, such as `import cycle: a -> b -> a`. -/
def cycleText (cycle : List String) : String :=
  "import cycle: " ++ " -> ".intercalate (cycle ++ cycle.head?.toList)

/-- The warning about a cycle, on the unit that closed it. -/
def cycleWarning (unit : String) (cycle : List String) : Diagnostic where
  severity := .warning
  source := "import-cycles"
  message := cycleText cycle
  unit? := some unit

theorem warning_cycleMessage (unit : String) (cycle : List String) :
    (Diagnostic.warning analysisName (cycleMessage cycle)).inUnit unit =
      cycleWarning unit cycle := rfl

/-- Where cycles are not fatal, each new one is noted and reported. -/
theorem noteCycles_of_ne_fatal {p : ImportCycles} (h : p.mode ≠ .fatal) (unit : String) (log : Log)
    (found : List (List String)) :
    noteCycles unit p log found =
      (.ok (), { p with cycles := p.cycles ++ fresh p.cycles found },
        log.reportAll ((fresh p.cycles found).map (cycleWarning unit))) := by
  induction found generalizing p log with
  | nil =>
    rw [noteCycles, fresh_nil, List.append_nil]
    rfl
  | cons first found ih =>
    rw [noteCycles]
    by_cases hfirst : first ∈ p.cycles
    · rw [if_pos hfirst, fresh_cons_of_mem hfirst]
      exact ih h log
    · rw [if_neg hfirst, fresh_cons_of_not_mem hfirst]
      dsimp only
      split
      · next hmode => exact absurd hmode h
      · have hnext : ({ p with cycles := p.cycles ++ [first] } : ImportCycles).mode ≠ .fatal := h
        rw [warning_cycleMessage, ih hnext]
        dsimp only
        rw [List.append_assoc]
        rfl

/-- Where cycles are fatal, the first one ends the run. -/
theorem noteCycles_of_fatal {p : ImportCycles} (h : p.mode = .fatal) (hnone : p.cycles = [])
    (unit : String) (log : Log) (cycle : List String) (found : List (List String)) :
    (noteCycles unit p log (cycle :: found)).1 =
      .error (.escalate .error "illegal import cycle") := by
  rw [noteCycles, hnone, if_neg List.not_mem_nil, h]

/-! ## The units of a run -/

/-- What has been found over some units. -/
structure Survey where
  graph : PackageGraph := .empty
  /-- The cycles in the order in which they were found, each with the unit that closed it. -/
  findings : List (CompilationUnit × List String) := []

def Survey.cycles (s : Survey) : List (List String) := s.findings.map (·.2)

/-- The packages that a unit imports from. -/
def unitTargets (table : SymbolTable) (u : CompilationUnit) : List String :=
  targets u.package (u.resolutions table)

/-- The cycles that the edges of another unit close, as far as they are new. -/
def Survey.new (table : SymbolTable) (s : Survey) (u : CompilationUnit) : List (List String) :=
  fresh s.cycles (addEdges u.package s.graph (unitTargets table u)).2

/-- Go on to another unit. -/
def Survey.add (table : SymbolTable) (s : Survey) (u : CompilationUnit) : Survey where
  graph := (addEdges u.package s.graph (unitTargets table u)).1
  findings := s.findings ++ (s.new table u).map (u, ·)

def survey (table : SymbolTable) (units : List CompilationUnit) : Survey :=
  units.foldl (Survey.add table) {}

variable {table : SymbolTable} {units : List CompilationUnit}

theorem survey_concat (table : SymbolTable) (units : List CompilationUnit) (u : CompilationUnit) :
    survey table (units ++ [u]) = (survey table units).add table u := by
  rw [survey, List.foldl_append]
  rfl

theorem cycles_survey_concat (table : SymbolTable) (units : List CompilationUnit)
    (u : CompilationUnit) :
    (survey table (units ++ [u])).cycles =
      (survey table units).cycles ++ (survey table units).new table u := by
  rw [survey_concat, Survey.cycles, Survey.add, List.map_append, List.map_map]
  exact congrArg _ (List.map_id _)

theorem adj_survey {a b : String} :
    (survey table units).graph.Adj a b ↔
      ∃ u ∈ units, u.package = a ∧ b ∈ unitTargets table u := by
  induction units using List.reverseRecOn with
  | nil => simp [survey, PackageGraph.Adj, PackageGraph.empty]
  | append_singleton units u ih =>
    rw [survey_concat, Survey.add]
    dsimp only
    rw [adj_addEdges, ih]
    constructor
    · rintro (⟨v, hv, hpackage⟩ | ⟨rfl, hb⟩)
      · exact ⟨v, List.mem_append_left _ hv, hpackage⟩
      · exact ⟨u, List.mem_append_right _ (List.mem_singleton_self u), rfl, hb⟩
    · rintro ⟨v, hv, hpackage, hb⟩
      rcases List.mem_append.mp hv with hv | hv
      · exact Or.inl ⟨v, hv, hpackage, hb⟩
      · cases List.mem_singleton.mp hv
        exact Or.inr ⟨hpackage.symm, hb⟩

theorem adj_survey_of_subset {some all : List CompilationUnit} (h : some ⊆ all) {a b : String}
    (hadj : (survey table some).graph.Adj a b) : (survey table all).graph.Adj a b := by
  obtain ⟨u, hu, hrest⟩ := adj_survey.mp hadj
  exact adj_survey.mpr ⟨u, h hu, hrest⟩

/-- Whatever is found is closed by the edges of its unit. -/
theorem closes_of_mem_survey {finding : CompilationUnit × List String}
    (h : finding ∈ (survey table units).findings) :
    ∃ k, units[k]? = some finding.1 ∧
      Closes (survey table (units.take k)).graph.Adj (survey table (units.take (k + 1))).graph.Adj
        finding.1.package finding.2 := by
  induction units using List.reverseRecOn with
  | nil => cases h
  | append_singleton units u ih =>
    rw [survey_concat, Survey.add] at h
    rcases List.mem_append.mp h with hold | hnew
    · -- Another unit behind the others does not change what they have closed.
      obtain ⟨k, hk, hcloses⟩ := ih hold
      have hlt : k < units.length := (List.getElem?_eq_some_iff.mp hk).1
      refine ⟨k, ?_, ?_⟩
      · rw [List.getElem?_append_left hlt]
        exact hk
      · rw [List.take_append_of_le_length hlt, List.take_append_of_le_length (Nat.le_of_lt hlt)]
        exact hcloses
    · obtain ⟨cycle, hcycle, rfl⟩ := List.mem_map.mp hnew
      refine ⟨units.length, List.getElem?_concat_length, ?_⟩
      rw [List.take_left, ← List.length_singleton (a := u), ← List.length_append, List.take_length,
        survey_concat]
      apply closes_of_mem_addEdges
      exact mem_of_mem_fresh hcycle

theorem isElementary_of_mem_survey {finding : CompilationUnit × List String}
    (h : finding ∈ (survey table units).findings) :
    IsElementary (survey table units).graph.Adj finding.2 := by
  obtain ⟨k, -, hcloses⟩ := closes_of_mem_survey h
  exact hcloses.elementary.mono fun _ _ => adj_survey_of_subset (List.take_subset _ _)

/-- No cycle is found in two rotations. -/
theorem pairwise_survey :
    (survey table units).cycles.Pairwise fun c d => ¬ IsRotation c d := by
  have hnodup : (survey table units).cycles.Nodup := by
    induction units using List.reverseRecOn with
    | nil => exact List.nodup_nil
    | append_singleton units u ih =>
      rw [cycles_survey_concat]
      exact nodup_append_fresh ih _
  -- All are in canonical form, where different cycles are no rotations of each other.
  refine hnodup.imp_of_mem ?_
  intro c d hc hd hne hrotation
  obtain ⟨⟨u, _⟩, hu, rfl⟩ := List.mem_map.mp hc
  obtain ⟨⟨v, _⟩, hv, rfl⟩ := List.mem_map.mp hd
  obtain ⟨_, _, hcloses⟩ := closes_of_mem_survey hu
  obtain ⟨_, _, hcloses'⟩ := closes_of_mem_survey hv
  exact hne (eq_of_isRotation hcloses.elementary.nodup hcloses.leastFirst hcloses'.leastFirst
    hrotation)

/-- Where nothing has been found, whatever is closed is new. -/
theorem new_eq_nil_iff {s : Survey} (h : s.findings = []) (u : CompilationUnit) :
    s.new table u = [] ↔ (addEdges u.package s.graph (unitTargets table u)).2 = [] := by
  rw [Survey.new, Survey.cycles, h]
  exact fresh_nil_eq_nil_iff

theorem findings_survey_concat_eq_nil_iff (u : CompilationUnit) :
    (survey table (units ++ [u])).findings = [] ↔
      (survey table units).findings = [] ∧
        (addEdges u.package (survey table units).graph (unitTargets table u)).2 = [] := by
  rw [survey_concat, Survey.add]
  dsimp only
  rw [List.append_eq_nil_iff, List.map_eq_nil_iff]
  constructor
  · rintro ⟨hold, hnew⟩
    exact ⟨hold, (new_eq_nil_iff hold u).mp hnew⟩
  · rintro ⟨hold, hnew⟩
    exact ⟨hold, (new_eq_nil_iff hold u).mpr hnew⟩

/-- Where nothing is found over some units, nothing is found over the first of them. -/
theorem findings_eq_nil_of_append {front back : List CompilationUnit}
    (h : (survey table (front ++ back)).findings = []) : (survey table front).findings = [] := by
  induction back using List.reverseRecOn with
  | nil => rw [List.append_nil] at h; exact h
  | append_singleton back u ih =>
    rw [← List.append_assoc] at h
    exact ih ((findings_survey_concat_eq_nil_iff u).mp h).1

/-- **Nothing is found exactly if the graph is acyclic.** -/
theorem findings_eq_nil_iff :
    (survey table units).findings = [] ↔ Acyclic (survey table units).graph.Adj := by
  constructor
  · intro h
    induction units using List.reverseRecOn with
    | nil =>
      intro a ha
      obtain ⟨b, hadj, -⟩ := Relation.TransGen.head'_iff.mp ha
      obtain ⟨u, hu, -⟩ := adj_survey.mp hadj
      cases hu
    | append_singleton units u ih =>
      obtain ⟨hold, hnew⟩ := (findings_survey_concat_eq_nil_iff u).mp h
      rw [survey_concat]
      exact acyclic_addEdges (ih hold) hnew
  · intro hacyclic
    by_contra hne
    obtain ⟨finding, hfinding⟩ := List.exists_mem_of_ne_nil _ hne
    exact (isElementary_of_mem_survey hfinding).not_acyclic hacyclic

end ImportCycles

end AnalysisHost
