import AnalysisHost.Proofs.CycleSearch

/-!
# The search for import cycles, edge by edge

Every edge that is not there yet is followed by one search, which finds at most one cycle. So of the
cycles that appear with an edge no more than one can be found, and one of them is
(`ImportCycles.exists_found?`). As every cycle appears with some edge, and with that edge only, all
of them are found exactly if no edge makes two appear at once: `ImportCycles.finds_each_iff`.
-/

namespace AnalysisHost

/-! ## Graphs with some edges -/

/-- A package leads to another one along some edges. -/
def Among (es : List (String × String)) (a b : String) : Prop := (a, b) ∈ es

namespace PackageGraph

/-- Add edges one by one. -/
def addAll (g : PackageGraph) (es : List (String × String)) : PackageGraph :=
  es.foldl (fun g e => g.addEdge e.1 e.2) g

theorem addAll_append (g : PackageGraph) (es fs : List (String × String)) :
    g.addAll (es ++ fs) = (g.addAll es).addAll fs := List.foldl_append

theorem addEdge_of_adj {g : PackageGraph} {a b : String} (h : g.Adj a b) : g.addEdge a b = g :=
  dif_pos h

theorem adj_addAll {g : PackageGraph} {es : List (String × String)} {a b : String} :
    (g.addAll es).Adj a b ↔ g.Adj a b ∨ Among es a b := by
  induction es generalizing g with
  | nil => simp [addAll, Among]
  | cons e es ih =>
    show ((g.addEdge e.1 e.2).addAll es).Adj a b ↔ _
    rw [ih, adj_addEdge, Among, Among, List.mem_cons, or_assoc, Prod.ext_iff]

theorem adj_addAll_empty {es : List (String × String)} {a b : String} :
    (empty.addAll es).Adj a b ↔ Among es a b := by
  rw [adj_addAll]
  simp [empty, Adj]

end PackageGraph

namespace Cycle

/-- A cycle is there with some edges, and not without them. -/
def Appears (before after : String → String → Prop) (cycle : List String) : Prop :=
  IsElementary after cycle ∧ ¬ IsElementary before cycle

theorem IsElementary.isRotation_iff {R : String → String → Prop} {c d : List String}
    (h : IsRotation c d) : IsElementary R c ↔ IsElementary R d := by
  have hback : IsRotation d c := Cycle.isRotation_iff.mpr (Cycle.isRotation_iff.mp h).symm
  exact ⟨fun hc => hc.of_isRotation h, fun hd => hd.of_isRotation hback⟩

theorem Appears.of_isRotation {R S : String → String → Prop} {c d : List String}
    (hc : Appears R S c) (h : IsRotation c d) : Appears R S d := by
  rw [Appears, ← IsElementary.isRotation_iff h, ← IsElementary.isRotation_iff h]
  exact hc

/-- Along a cycle, each member leads to each other one. -/
theorem IsElementary.reaches {R : String → String → Prop} {c : List String} (hc : IsElementary R c)
    {x y : String} (hx : x ∈ c) (hy : y ∈ c) : Relation.ReflTransGen R x y := by
  obtain ⟨front, back, rfl⟩ := List.append_of_mem hx
  -- Begun with `x`, the cycle has a piece that ends with `y`.
  have hrotation : IsRotation (front ++ x :: back) (x :: back ++ front) := ⟨front, _, rfl, rfl⟩
  have hfrom := hc.of_isRotation hrotation
  have hy : y ∈ x :: (back ++ front) := (Cycle.isRotation_iff.mp hrotation).mem_iff.mp hy
  obtain ⟨before, behind, hsplit⟩ := List.append_of_mem hy
  have hchain := hfrom.chain
  rw [List.cons_append, hsplit, List.append_cons] at hchain
  have hreach := List.relationReflTransGen_of_exists_isChain _ hchain.left_of_append
    (by simp)
  rw [List.getLast_concat] at hreach
  cases before with
  | nil =>
    obtain ⟨rfl, -⟩ := List.cons.inj hsplit
    exact Relation.ReflTransGen.refl
  | cons z before =>
    obtain ⟨rfl, -⟩ := List.cons.inj hsplit
    exact hreach

/-- Each member of a cycle leads on. -/
theorem IsElementary.exists_next {R : String → String → Prop} {c : List String}
    (hc : IsElementary R c) {x : String} (hx : x ∈ c) : ∃ y, R x y := by
  obtain ⟨front, back, rfl⟩ := List.append_of_mem hx
  have hfrom := hc.of_isRotation ⟨front, x :: back, rfl, rfl⟩
  cases hrest : back ++ front with
  | nil =>
    rw [List.cons_append, hrest] at hfrom
    exact ⟨x, hfrom.closes x rfl x rfl⟩
  | cons y rest =>
    rw [List.cons_append, hrest] at hfrom
    exact ⟨y, (List.isChain_cons_cons.mp hfrom.chain).1⟩

/-- A cycle that appears with an edge has a way back from its end to its beginning. -/
theorem Appears.way_back {R S : String → String → Prop} {a b : String} {c : List String}
    (h : Appears R S c) (hS : ∀ x y, S x y → R x y ∨ (x = a ∧ y = b)) :
    Relation.ReflTransGen S b a := by
  by_contra hback
  -- No step of the cycle is along the new edge, as the cycle would lead back.
  have hold : ∀ x ∈ c, ∀ y ∈ c, S x y → R x y := by
    intro x hx y hy hxy
    rcases hS x y hxy with hR | ⟨rfl, rfl⟩
    · exact hR
    · exact absurd (h.1.reaches hy hx) hback
  apply h.2
  refine ⟨h.1.ne_nil, h.1.nodup, ?_, ?_⟩
  · exact h.1.chain.imp_of_mem_imp fun x y hx hy => hold x hx y hy
  · intro x hx y hy
    exact hold x (List.mem_of_getLast? hx) y (List.mem_of_head? hy) (h.1.closes x hx y hy)

end Cycle

namespace ImportCycles

open AnalysisHost.Cycle

/-! ## One edge -/

/-- The cycle that is found when an edge is added. An edge that is there already finds nothing. -/
def found? (g : PackageGraph) (e : String × String) : Option (List String) :=
  if g.Adj e.1 e.2 then none else closedCycle? (g.addEdge e.1 e.2) e.1 e.2

theorem among_concat {es : List (String × String)} {e : String × String} {a b : String} :
    Among (es ++ [e]) a b ↔ Among es a b ∨ (a = e.1 ∧ b = e.2) := by
  rw [Among, Among, List.mem_append, List.mem_singleton, Prod.ext_iff]

/-- What is found with an edge appears with it. -/
theorem appears_of_found? {es : List (String × String)} {e : String × String} {cycle : List String}
    (h : found? (PackageGraph.empty.addAll es) e = some cycle) :
    Appears (Among es) (Among (es ++ [e])) cycle := by
  unfold found? at h
  split at h
  · cases h
  · next hnew =>
    have hcloses := closes_of_closedCycle? h hnew
    constructor
    · refine hcloses.elementary.mono fun a b hadj => ?_
      rw [PackageGraph.adj_addEdge, PackageGraph.adj_addAll_empty] at hadj
      exact among_concat.mpr hadj
    · intro hold
      apply hcloses.missing
      exact hold.mono fun a b hadj => PackageGraph.adj_addAll_empty.mpr hadj

/-- If any cycle appears with an edge, then one is found. -/
theorem exists_found? {es : List (String × String)} {e : String × String} {cycle : List String}
    (h : Appears (Among es) (Among (es ++ [e])) cycle) :
    ∃ found, found? (PackageGraph.empty.addAll es) e = some found := by
  let g := (PackageGraph.empty.addAll es).addEdge e.1 e.2
  have hg : ∀ a b, Among (es ++ [e]) a b ↔ g.Adj a b := by
    intro a b
    rw [among_concat, PackageGraph.adj_addEdge, PackageGraph.adj_addAll_empty]
  have hnew : ¬ (PackageGraph.empty.addAll es).Adj e.1 e.2 := by
    intro hadj
    rw [PackageGraph.adj_addAll_empty] at hadj
    apply h.2
    refine h.1.mono fun a b hab => ?_
    rcases among_concat.mp hab with hold | ⟨rfl, rfl⟩
    · exact hold
    · exact hadj
  have hback : Relation.ReflTransGen g.Adj e.2 e.1 := by
    refine Relation.ReflTransGen.mono (fun a b => (hg a b).mp) _ _ ?_
    exact h.way_back fun a b => among_concat.mp
  rw [found?, if_neg hnew, closedCycle?]
  cases hpath : g.path e.2 e.1 with
  | none => exact absurd hback (PackageGraph.path_eq_none hpath)
  | some way => exact ⟨_, rfl⟩

/-! ## Edges one by one -/

/-- The cycles that are found when edges are added one by one. -/
def foundAlong (g : PackageGraph) : List (String × String) → List (List String)
  | [] => []
  | e :: es => (found? g e).toList ++ foundAlong (g.addEdge e.1 e.2) es

theorem foundAlong_append (g : PackageGraph) (es fs : List (String × String)) :
    foundAlong g (es ++ fs) = foundAlong g es ++ foundAlong (g.addAll es) fs := by
  induction es generalizing g with
  | nil => rfl
  | cons e es ih =>
    rw [List.cons_append, foundAlong, foundAlong, ih, List.append_assoc]
    rfl

/-- The edges of a unit are added one by one. -/
theorem addEdges_eq (package : String) (g : PackageGraph) (targets : List String) :
    addEdges package g targets =
      (g.addAll (targets.map (package, ·)), foundAlong g (targets.map (package, ·))) := by
  induction targets generalizing g with
  | nil => rfl
  | cons target targets ih =>
    by_cases h : g.Adj package target
    · rw [addEdges_cons_of_hasEdge h, ih, List.map_cons, foundAlong, found?, if_pos h,
        PackageGraph.addEdge_of_adj h]
      show _ = ((g.addEdge package target).addAll _, _)
      rw [PackageGraph.addEdge_of_adj h]
      rfl
    · rw [addEdges_cons h, ih, List.map_cons, foundAlong, found?, if_neg h]
      rfl

/-- What is found is found with one of the edges. -/
theorem mem_foundAlong_iff {g : PackageGraph} {es : List (String × String)} {cycle : List String} :
    cycle ∈ foundAlong g es ↔
      ∃ front e back, es = front ++ e :: back ∧ found? (g.addAll front) e = some cycle := by
  constructor
  · intro h
    induction es generalizing g with
    | nil => cases h
    | cons e es ih =>
      rcases List.mem_append.mp h with hfirst | hrest
      · exact ⟨[], e, es, rfl, Option.mem_toList.mp hfirst⟩
      · obtain ⟨front, f, back, rfl, hfound⟩ := ih hrest
        exact ⟨e :: front, f, back, rfl, hfound⟩
  · rintro ⟨front, e, back, rfl, hfound⟩
    rw [foundAlong_append]
    apply List.mem_append_right
    apply List.mem_append_left
    exact Option.mem_toList.mpr hfound

/-! ## The edges of some units -/

/-- The edges of some units, in the order in which they are added. -/
def edges (table : SymbolTable) (units : List CompilationUnit) : List (String × String) :=
  units.flatMap fun u => (unitTargets table u).map (u.package, ·)

theorem edges_concat (table : SymbolTable) (units : List CompilationUnit) (u : CompilationUnit) :
    edges table (units ++ [u]) = edges table units ++ (unitTargets table u).map (u.package, ·) := by
  rw [edges, List.flatMap_append, List.flatMap_singleton]
  rfl

variable {table : SymbolTable} {units : List CompilationUnit}

/-- The graph of a survey is built from the edges of its units, in their order. -/
theorem graph_survey :
    (survey table units).graph = PackageGraph.empty.addAll (edges table units) := by
  induction units using List.reverseRecOn with
  | nil => rfl
  | append_singleton units u ih =>
    rw [survey_concat, Survey.add, addEdges_eq, ih, edges_concat, PackageGraph.addAll_append]

/-- What is found over some units is what is found along their edges. -/
theorem mem_cycles_survey_iff {cycle : List String} :
    cycle ∈ (survey table units).cycles ↔
      cycle ∈ foundAlong PackageGraph.empty (edges table units) := by
  induction units using List.reverseRecOn with
  | nil => exact Iff.rfl
  | append_singleton units u ih =>
    rw [cycles_survey_concat, Survey.new, mem_append_fresh, addEdges_eq, edges_concat,
      foundAlong_append, List.mem_append, ih, graph_survey]

/-! ## Every cycle

A cycle appears with the last of its edges to be added, and every edge finds one of the cycles that
appear with it, if there are any. -/

/-- A cycle appears with one of the edges. -/
theorem exists_appears {es : List (String × String)} {cycle : List String}
    (h : IsElementary (Among es) cycle) :
    ∃ front e back, es = front ++ e :: back ∧
      Appears (Among front) (Among (front ++ [e])) cycle := by
  induction es using List.reverseRecOn with
  | nil =>
    have hcloses := h.closes _ (List.getLast?_eq_some_getLast h.ne_nil) _
      (List.head?_eq_some_head h.ne_nil)
    cases hcloses
  | append_singleton es e ih =>
    by_cases hold : IsElementary (Among es) cycle
    · obtain ⟨front, f, back, rfl, happears⟩ := ih hold
      exact ⟨front, f, back ++ [e], by simp, happears⟩
    · exact ⟨es, e, [], rfl, h, hold⟩

/-- A cycle appears with one edge only. -/
theorem appears_unique {front front' back back' : List (String × String)} {e e' : String × String}
    {cycle : List String} (h : front ++ e :: back = front' ++ e' :: back')
    (happears : Appears (Among front) (Among (front ++ [e])) cycle)
    (happears' : Appears (Among front') (Among (front' ++ [e'])) cycle) :
    front = front' ∧ e = e' := by
  -- Were one edge behind the other, the cycle would be there already.
  have hbehind : ∀ {front front' : List (String × String)} {e : String × String}
      {between : List (String × String)}, front' = front ++ e :: between →
      IsElementary (Among (front ++ [e])) cycle → IsElementary (Among front') cycle := by
    rintro front _ e between rfl hcycle
    refine hcycle.mono fun a b hab => ?_
    rw [Among, List.append_cons]
    exact List.mem_append_left _ hab
  rcases List.append_eq_append_iff.mp h with ⟨between, hfront, hrest⟩ | ⟨between, hfront, hrest⟩
  · cases between with
    | nil =>
      rw [List.append_nil] at hfront
      cases hrest
      exact ⟨hfront.symm, rfl⟩
    | cons f between =>
      cases hrest
      exact absurd (hbehind hfront happears.1) happears'.2
  · cases between with
    | nil =>
      rw [List.append_nil] at hfront
      cases hrest
      exact ⟨hfront, rfl⟩
    | cons f between =>
      cases hrest
      exact absurd (hbehind hfront happears'.1) happears.2

/-- **When every cycle is found**: no edge makes two of them appear. -/
theorem finds_each_iff (es : List (String × String)) :
    (∀ cycle, IsElementary (Among es) cycle →
        ∃ found ∈ foundAlong PackageGraph.empty es, IsRotation found cycle) ↔
      ∀ front e back, es = front ++ e :: back → ∀ c d,
        Appears (Among front) (Among (front ++ [e])) c →
          Appears (Among front) (Among (front ++ [e])) d → IsRotation c d := by
  constructor
  · intro h front e back hes c d hc hd
    -- What is found for a cycle that appears with an edge is found with that edge.
    have hfound : ∀ cycle, Appears (Among front) (Among (front ++ [e])) cycle →
        ∃ found, found? (PackageGraph.empty.addAll front) e = some found ∧
          IsRotation found cycle := by
      intro cycle happears
      have hcycle : IsElementary (Among es) cycle := by
        refine happears.1.mono fun a b hab => ?_
        rw [hes, Among, List.append_cons]
        exact List.mem_append_left _ hab
      obtain ⟨found, hmem, hrotation⟩ := h cycle hcycle
      obtain ⟨front', e', back', hes', hfound⟩ := mem_foundAlong_iff.mp hmem
      have happears' := (appears_of_found? hfound).of_isRotation hrotation
      obtain ⟨rfl, rfl⟩ := appears_unique (hes.symm.trans hes') happears happears'
      exact ⟨found, hfound, hrotation⟩
    obtain ⟨found, hfirst, hrotation⟩ := hfound c hc
    obtain ⟨found', hsecond, hrotation'⟩ := hfound d hd
    rw [hfirst] at hsecond
    cases hsecond
    rw [isRotation_iff] at hrotation hrotation' ⊢
    exact hrotation.symm.trans hrotation'
  · intro h cycle hcycle
    obtain ⟨front, e, back, rfl, happears⟩ := exists_appears hcycle
    obtain ⟨found, hfound⟩ := exists_found? happears
    refine ⟨found, mem_foundAlong_iff.mpr ⟨front, e, back, rfl, hfound⟩, ?_⟩
    exact h front e back rfl found cycle (appears_of_found? hfound) happears

end ImportCycles

end AnalysisHost
