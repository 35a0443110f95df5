import AnalysisHost.PackageGraph
import Mathlib.Data.List.Chain
import Mathlib.Data.List.Perm.Subperm
import Mathlib.Data.List.Nodup
import Mathlib.Logic.Relation

/-!
# The search for a path

`PackageGraph.path` searches in rounds. What a round leaves is described by `Searching`: the paths
of the frontier are simple paths from the start, and every package seen so far is either the end of
one of them or has had its neighbours seen too.

- `path_eq_some`: what is found is a simple path between the two ends;
- `path_eq_none`: where nothing is found, there is no way at all.

The second needs the number of rounds: each round sees a new package, and all that can be seen are
the start and the ends of edges.
-/

namespace AnalysisHost.PackageGraph

variable {g : PackageGraph}

/-- A walk is a chain of edges that is not empty. -/
theorem walk_iff {walk : List String} : g.Walk walk ↔ walk ≠ [] ∧ walk.IsChain g.Adj := by
  constructor
  · intro h
    induction h with
    | single a => exact ⟨List.cons_ne_nil _ _, List.isChain_singleton a⟩
    | cons hadj _ ih => exact ⟨List.cons_ne_nil _ _, List.IsChain.cons_cons hadj ih.2⟩
  · rintro ⟨hne, hchain⟩
    induction hchain with
    | nil => exact absurd rfl hne
    | singleton a => exact Walk.single a
    | cons_cons hadj _ ih => exact Walk.cons hadj (ih (List.cons_ne_nil _ _))

/-! ## One round -/

theorem extend_cons (seen : List String) (a : String) (path : List String)
    (paths : List (List String)) :
    g.extend seen ((a :: path) :: paths) =
      (((g.successors a).filter fun b => decide (b ∉ seen)).map (fun b => b :: a :: path) ++
          (g.extend (seen ++ (g.successors a).filter fun b => decide (b ∉ seen)) paths).1,
        (g.extend (seen ++ (g.successors a).filter fun b => decide (b ∉ seen)) paths).2) := rfl

theorem nodup_successors (g : PackageGraph) (a : String) : (g.successors a).Nodup := by
  unfold successors
  apply List.Nodup.map_on
  · rintro ⟨a₁, b₁⟩ h₁ ⟨a₂, b₂⟩ h₂ heq
    have ha₁ : a₁ = a := of_decide_eq_true (List.mem_filter.mp h₁).2
    have ha₂ : a₂ = a := of_decide_eq_true (List.mem_filter.mp h₂).2
    have hb : b₁ = b₂ := heq
    rw [ha₁, ha₂, hb]
  · exact g.nodup_edges.filter _

/-- A path of the next round is one of this round, with an edge to a package not seen before. -/
theorem exists_of_mem_extend {seen : List String} {paths : List (List String)} {q : List String}
    (h : q ∈ (g.extend seen paths).1) :
    ∃ a path b, a :: path ∈ paths ∧ q = b :: a :: path ∧ g.Adj a b ∧ b ∉ seen := by
  induction paths generalizing seen with
  | nil => cases h
  | cons p paths ih =>
    cases p with
    | nil =>
      obtain ⟨a, path, b, hmem, hrest⟩ := ih h
      exact ⟨a, path, b, List.mem_cons_of_mem _ hmem, hrest⟩
    | cons a path =>
      rw [extend_cons] at h
      rcases List.mem_append.mp h with h | h
      · obtain ⟨b, hb, rfl⟩ := List.mem_map.mp h
        obtain ⟨hsucc, hfresh⟩ := List.mem_filter.mp hb
        exact ⟨a, path, b, List.mem_cons_self, rfl, mem_successors.mp hsucc,
          of_decide_eq_true hfresh⟩
      · obtain ⟨c, rest, b, hmem, hq, hadj, hfresh⟩ := ih h
        refine ⟨c, rest, b, List.mem_cons_of_mem _ hmem, hq, hadj, ?_⟩
        intro hseen
        apply hfresh
        exact List.mem_append_left _ hseen

/-- What has been seen after a round: what was seen before, and the ends of the paths found. -/
theorem mem_seen_extend {seen : List String} {paths : List (List String)} {x : String} :
    x ∈ (g.extend seen paths).2 ↔ x ∈ seen ∨ ∃ path, x :: path ∈ (g.extend seen paths).1 := by
  induction paths generalizing seen with
  | nil =>
    constructor
    · exact Or.inl
    · rintro (h | ⟨path, h⟩)
      · exact h
      · cases h
  | cons p paths ih =>
    cases p with
    | nil => exact ih
    | cons a path =>
      -- What is seen after the first path is what the others begin with.
      rw [extend_cons]
      dsimp only
      rw [ih, List.mem_append]
      constructor
      · rintro ((h | h) | ⟨rest, h⟩)
        · exact Or.inl h
        · exact Or.inr ⟨a :: path, List.mem_append_left _ (List.mem_map_of_mem h)⟩
        · exact Or.inr ⟨rest, List.mem_append_right _ h⟩
      · rintro (h | ⟨rest, h⟩)
        · left
          left
          exact h
        · rcases List.mem_append.mp h with h | h
          · obtain ⟨b, hb, heq⟩ := List.mem_map.mp h
            cases heq
            left
            right
            exact hb
          · exact Or.inr ⟨rest, h⟩

/-- A round sees all neighbours of the ends of its paths. -/
theorem mem_seen_extend_of_adj {seen : List String} {paths : List (List String)} {a b : String}
    {path : List String} (hpath : a :: path ∈ paths) (hadj : g.Adj a b) :
    b ∈ (g.extend seen paths).2 := by
  induction paths generalizing seen with
  | nil => cases hpath
  | cons p paths ih =>
    rcases List.mem_cons.mp hpath with rfl | hmem
    · rw [extend_cons]
      show b ∈ (g.extend _ paths).2
      apply mem_seen_extend.mpr
      left
      by_cases hseen : b ∈ seen
      · exact List.mem_append_left _ hseen
      · apply List.mem_append_right
        exact List.mem_filter.mpr ⟨mem_successors.mpr hadj, decide_eq_true hseen⟩
    · cases p with
      | nil => exact ih hmem
      | cons c rest => exact ih hmem

theorem nodup_seen_extend {seen : List String} (paths : List (List String)) (h : seen.Nodup) :
    (g.extend seen paths).2.Nodup := by
  induction paths generalizing seen with
  | nil => exact h
  | cons p paths ih =>
    cases p with
    | nil => exact ih h
    | cons a path =>
      apply ih
      refine List.Nodup.append h ((g.nodup_successors a).filter _) ?_
      intro x hx hfresh
      exact of_decide_eq_true (List.mem_filter.mp hfresh).2 hx

/-- A round sees one new package for each path that it finds. -/
theorem length_seen_extend (seen : List String) (paths : List (List String)) :
    (g.extend seen paths).2.length = seen.length + (g.extend seen paths).1.length := by
  induction paths generalizing seen with
  | nil => rfl
  | cons p paths ih =>
    cases p with
    | nil => exact ih seen
    | cons a path =>
      rw [extend_cons]
      dsimp only
      rw [ih, List.length_append, List.length_append, List.length_map]
      omega

/-! ## All rounds

The invariant of the search. `Searching.extend` keeps it through a round, so it holds wherever the
search stops: at the goal, without a frontier, or out of rounds. -/

/-- A search for a way from `start` to `goal` that has seen some packages and has some paths on its
frontier. -/
structure Searching (g : PackageGraph) (start goal : String) (seen : List String)
    (paths : List (List String)) : Prop where
  /-- Backwards, a path of the frontier leads from the start to its head. -/
  walks : ∀ p ∈ paths,
    p ≠ [] ∧ p.reverse.IsChain g.Adj ∧ p.getLast? = some start ∧ p.Nodup ∧ p ⊆ seen
  start_seen : start ∈ seen
  nodup : seen.Nodup
  /-- Whatever is seen, other than the start, is the end of an edge. -/
  bounded : seen ⊆ start :: g.edges.map (·.2)
  /-- What is no longer on the frontier is not the goal, and its neighbours are seen. -/
  settled : ∀ a ∈ seen, (∃ path, a :: path ∈ paths) ∨ (a ≠ goal ∧ ∀ b, g.Adj a b → b ∈ seen)

namespace Searching

variable {start goal : String} {seen : List String} {paths : List (List String)}

/-- At first the start is seen, and it is on the frontier. -/
theorem init (g : PackageGraph) (start goal : String) :
    Searching g start goal [start] [[start]] where
  walks := by
    intro p hp
    cases List.mem_singleton.mp hp
    exact ⟨List.cons_ne_nil _ _, List.isChain_singleton start, rfl, List.nodup_singleton start,
      List.Subset.refl _⟩
  start_seen := List.mem_singleton_self start
  nodup := List.nodup_singleton start
  bounded := by
    intro x hx
    cases List.mem_singleton.mp hx
    exact List.mem_cons_self
  settled := by
    intro a ha
    cases List.mem_singleton.mp ha
    exact Or.inl ⟨[], List.mem_singleton_self _⟩

/-- The next round, if the goal is not on the frontier. -/
theorem extend (h : Searching g start goal seen paths)
    (hgoal : ∀ p ∈ paths, p.head? ≠ some goal) :
    Searching g start goal (g.extend seen paths).2 (g.extend seen paths).1 where
  walks := by
    intro q hq
    have hsub : q ⊆ (g.extend seen paths).2 := by
      obtain ⟨a, path, b, hmem, rfl, -, -⟩ := exists_of_mem_extend hq
      intro x hx
      rcases List.mem_cons.mp hx with rfl | hx
      · apply mem_seen_extend.mpr
        right
        exact ⟨_, hq⟩
      · apply mem_seen_extend.mpr
        left
        exact (h.walks _ hmem).2.2.2.2 hx
    -- A path of the next round is one edge longer than one of this round.
    obtain ⟨a, path, b, hmem, rfl, hadj, hfresh⟩ := exists_of_mem_extend hq
    obtain ⟨-, hchain, hlast, hnodup, hseen⟩ := h.walks _ hmem
    refine ⟨List.cons_ne_nil _ _, ?_, ?_, ?_, hsub⟩
    · rw [List.reverse_cons]
      refine List.IsChain.append hchain (List.isChain_singleton b) ?_
      intro x hx y hy
      rw [List.getLast?_reverse] at hx
      cases hx
      cases hy
      exact hadj
    · rw [List.getLast?_cons_cons]
      exact hlast
    · exact List.nodup_cons.mpr ⟨fun hb => hfresh (hseen hb), hnodup⟩
  start_seen := mem_seen_extend.mpr (Or.inl h.start_seen)
  nodup := nodup_seen_extend paths h.nodup
  bounded := by
    intro x hx
    rcases mem_seen_extend.mp hx with hx | ⟨path, hx⟩
    · exact h.bounded hx
    · obtain ⟨a, rest, b, -, heq, hadj, -⟩ := exists_of_mem_extend hx
      cases heq
      apply List.mem_cons_of_mem
      exact List.mem_map_of_mem (f := (·.2)) hadj
  settled := by
    intro a ha
    rcases mem_seen_extend.mp ha with hseen | hnew
    · right
      rcases h.settled a hseen with ⟨path, hpath⟩ | ⟨hne, hclosed⟩
      · -- The frontier of this round is settled by it.
        refine ⟨?_, fun b hadj => mem_seen_extend_of_adj hpath hadj⟩
        rintro rfl
        exact hgoal _ hpath rfl
      · exact ⟨hne, fun b hadj => mem_seen_extend.mpr (Or.inl (hclosed b hadj))⟩
    · exact Or.inl hnew

/-- Where all neighbours of what is seen are seen, and the goal is not, there is no way to it. -/
theorem not_reachable (h : Searching g start goal seen paths)
    (hclosed : ∀ a ∈ seen, ∀ b, g.Adj a b → b ∈ seen) (hgoal : goal ∉ seen) :
    ¬ Relation.ReflTransGen g.Adj start goal := by
  intro hreach
  have hseen : ∀ b, Relation.ReflTransGen g.Adj start b → b ∈ seen := by
    intro b hb
    induction hb with
    | refl => exact h.start_seen
    | tail _ hadj ih => exact hclosed _ ih _ hadj
  apply hgoal
  exact hseen goal hreach

/-- A goal that is not on the frontier has not been seen. -/
theorem goal_not_mem (h : Searching g start goal seen paths)
    (hgoal : ∀ p ∈ paths, p.head? ≠ some goal) : goal ∉ seen := by
  intro hmem
  rcases h.settled goal hmem with ⟨path, hpath⟩ | ⟨hne, -⟩
  · exact hgoal _ hpath rfl
  · exact hne rfl

/-- Where nothing is left on the frontier, the search has been everywhere. -/
theorem not_reachable_of_nil (h : Searching g start goal seen []) :
    ¬ Relation.ReflTransGen g.Adj start goal := by
  apply h.not_reachable
  · intro a ha b hadj
    rcases h.settled a ha with ⟨path, hpath⟩ | ⟨-, hclosed⟩
    · cases hpath
    · exact hclosed b hadj
  · apply h.goal_not_mem
    intro p hp
    cases hp

/-- When as many packages are seen as there can be, all of them are. -/
theorem mem_seen_of_full (h : Searching g start goal seen paths)
    (hfull : g.edgeCount + 1 ≤ seen.length) {a b : String} (hadj : g.Adj a b) : b ∈ seen := by
  have hsub : seen.Subperm (start :: g.edges.map (·.2)) := List.subperm_of_subset h.nodup h.bounded
  have hperm := hsub.perm_of_length_le (by
    rw [List.length_cons, List.length_map]
    exact hfull)
  apply hperm.mem_iff.mpr
  apply List.mem_cons_of_mem
  exact List.mem_map_of_mem (f := (·.2)) hadj

end Searching

/-! ## The search -/

theorem not_goal_of_find? {goal : String} {paths : List (List String)}
    (h : (paths.find? fun p => decide (p.head? = some goal)) = none) :
    ∀ p ∈ paths, p.head? ≠ some goal := by
  intro p hp hhead
  exact List.find?_eq_none.mp h p hp (decide_eq_true hhead)

theorem found_spec {start goal : String} {seen p : List String} {paths : List (List String)}
    (h : Searching g start goal seen paths)
    (hfind : (paths.find? fun p => decide (p.head? = some goal)) = some p) :
    p.reverse.IsChain g.Adj ∧ p.reverse.head? = some start ∧ p.reverse.getLast? = some goal ∧
      p.reverse.Nodup := by
  obtain ⟨-, hchain, hlast, hnodup, -⟩ := h.walks p (List.mem_of_find?_eq_some hfind)
  have hhead : p.head? = some goal := by simpa using List.find?_some hfind
  refine ⟨hchain, ?_, ?_, List.nodup_reverse.mpr hnodup⟩
  · rw [List.head?_reverse]
    exact hlast
  · rw [List.getLast?_reverse]
    exact hhead

section Rounds

variable {start goal : String} {rounds : Nat} {seen : List String} {paths : List (List String)}

theorem search_of_found {p : List String}
    (h : (paths.find? fun p => decide (p.head? = some goal)) = some p) :
    g.search goal rounds seen paths = some p.reverse := by
  unfold search
  rw [h]

theorem search_zero_of_none (h : (paths.find? fun p => decide (p.head? = some goal)) = none) :
    g.search goal 0 seen paths = none := by
  unfold search
  rw [h]

theorem search_succ_of_none (h : (paths.find? fun p => decide (p.head? = some goal)) = none) :
    g.search goal (rounds + 1) seen paths =
      if (g.extend seen paths).1 = [] then none
      else g.search goal rounds (g.extend seen paths).2 (g.extend seen paths).1 := by
  rw [search, h]
  dsimp only
  rcases g.extend seen paths with ⟨_ | ⟨p, ps⟩, seen'⟩
  · rfl
  · rfl

/-- **What the search returns** is a simple path to the goal, whatever the number of rounds. -/
theorem search_eq_some (h : Searching g start goal seen paths) {path : List String}
    (hsearch : g.search goal rounds seen paths = some path) :
    path.IsChain g.Adj ∧ path.head? = some start ∧ path.getLast? = some goal ∧ path.Nodup := by
  induction rounds generalizing seen paths with
  | zero =>
    cases hfind : paths.find? fun p => decide (p.head? = some goal) with
    | some p =>
      rw [search_of_found hfind] at hsearch
      cases hsearch
      exact found_spec h hfind
    | none =>
      rw [search_zero_of_none hfind] at hsearch
      cases hsearch
  | succ rounds ih =>
    cases hfind : paths.find? fun p => decide (p.head? = some goal) with
    | some p =>
      rw [search_of_found hfind] at hsearch
      cases hsearch
      exact found_spec h hfind
    | none =>
      rw [search_succ_of_none hfind] at hsearch
      split at hsearch
      · cases hsearch
      · apply ih _ hsearch
        exact h.extend (not_goal_of_find? hfind)

/-- **Where it returns nothing** after enough rounds, the goal cannot be reached. -/
theorem search_eq_none (h : Searching g start goal seen paths)
    (hrounds : g.edgeCount + 1 ≤ rounds + seen.length)
    (hsearch : g.search goal rounds seen paths = none) :
    ¬ Relation.ReflTransGen g.Adj start goal := by
  induction rounds generalizing seen paths with
  | zero =>
    cases hfind : paths.find? fun p => decide (p.head? = some goal) with
    | some p =>
      rw [search_of_found hfind] at hsearch
      cases hsearch
    | none =>
      -- As many packages have been seen as there can be, so what is seen is closed.
      apply h.not_reachable
      · intro a _ b hadj
        exact h.mem_seen_of_full (by omega) hadj
      · apply h.goal_not_mem
        exact not_goal_of_find? hfind
  | succ rounds ih =>
    cases hfind : paths.find? fun p => decide (p.head? = some goal) with
    | some p =>
      rw [search_of_found hfind] at hsearch
      cases hsearch
    | none =>
      have hnext := h.extend (not_goal_of_find? hfind)
      rw [search_succ_of_none hfind] at hsearch
      split at hsearch
      · next hnil =>
        rw [hnil] at hnext
        exact hnext.not_reachable_of_nil
      · next hne =>
        -- One round less is left, and at least one more package has been seen.
        refine ih hnext ?_ hsearch
        have hpos := List.length_pos_of_ne_nil hne
        rw [length_seen_extend]
        omega

end Rounds

/-- **What is found is a simple path.** -/
theorem path_eq_some {start goal : String} {path : List String}
    (h : g.path start goal = some path) :
    path.IsChain g.Adj ∧ path.head? = some start ∧ path.getLast? = some goal ∧ path.Nodup :=
  search_eq_some (Searching.init g start goal) h

/-- **Where nothing is found, there is no way.** -/
theorem path_eq_none {start goal : String} (h : g.path start goal = none) :
    ¬ Relation.ReflTransGen g.Adj start goal := by
  refine search_eq_none (Searching.init g start goal) ?_ h
  rw [List.length_singleton]

end AnalysisHost.PackageGraph
