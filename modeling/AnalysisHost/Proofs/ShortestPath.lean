import AnalysisHost.Proofs.PathSearch
import Mathlib.Data.List.Basic

/-!
# No way is shorter

What `PathSearch` leaves open of `PackageGraph.path` is the length of what is found. Round `n` of
the search holds paths of `n` edges. A package that `n` edges lead to has been seen by then, so a
goal that is found in round `n` is not less than `n` edges away.

- `Round`: what holds of a round, `Round.init` and `Round.extend`;
- `finds_shortest_path`: a path is found if and only if the goal can be reached, and then it
  `IsShortest`.
-/

namespace AnalysisHost.PackageGraph

variable {g : PackageGraph} {start goal : String}

/-- A walk between two packages that repeats none, and than which no other walk between the two is
shorter. -/
structure IsShortest (g : PackageGraph) (start goal : String) (path : List String) : Prop where
  walk : g.Walk path
  head : path.head? = some start
  last : path.getLast? = some goal
  nodup : path.Nodup
  shortest : ∀ walk : List String, g.Walk walk → walk.head? = some start →
    walk.getLast? = some goal → path.length ≤ walk.length

theorem Walk.length_pos {walk : List String} (h : g.Walk walk) : 0 < walk.length := by
  apply List.length_pos_iff.mpr
  exact (walk_iff.mp h).1

/-- A way along edges, as a relation between its ends. -/
theorem reachable_iff : g.Reachable start goal ↔ Relation.ReflTransGen g.Adj start goal := by
  constructor
  · rintro ⟨walk, hwalk, hhead, hlast⟩
    obtain ⟨hne, hchain⟩ := walk_iff.mp hwalk
    have hreach := List.relationReflTransGen_of_exists_isChain walk hchain hne
    rw [List.head?_eq_some_head hne] at hhead
    rw [List.getLast?_eq_some_getLast hne] at hlast
    cases hhead
    cases hlast
    exact hreach
  · intro h
    obtain ⟨walk, hne, hchain, hhead, hlast⟩ :=
      List.exists_isChain_ne_nil_of_relationReflTransGen h
    refine ⟨walk, walk_iff.mpr ⟨hne, hchain⟩, ?_, ?_⟩
    · rw [List.head?_eq_some_head hne, hhead]
    · rw [List.getLast?_eq_some_getLast hne, hlast]

/-! ## The rounds of a search -/

/-- Round `n` of a search for a way from `start` to `goal`. -/
structure Round (g : PackageGraph) (start goal : String) (n : Nat) (seen : List String)
    (paths : List (List String)) : Prop extends Searching g start goal seen paths where
  length : ∀ p ∈ paths, p.length = n + 1
  /-- Whatever a walk of at most `n` edges leads to has been seen. -/
  near : ∀ walk : List String, g.Walk walk → walk.head? = some start → walk.length ≤ n + 1 →
    ∀ a, walk.getLast? = some a → a ∈ seen
  /-- No walk of less than `n` edges leads to the goal. -/
  far : ∀ walk : List String, g.Walk walk → walk.head? = some start →
    walk.getLast? = some goal → n + 1 ≤ walk.length

namespace Round

variable {n : Nat} {seen : List String} {paths : List (List String)}

theorem init (g : PackageGraph) (start goal : String) : Round g start goal 0 [start] [[start]] where
  toSearching := Searching.init g start goal
  length := by
    intro p hp
    rw [List.mem_singleton.mp hp]
    rfl
  near := by
    intro walk hwalk hhead hlength a hlast
    -- A walk of no edge ends where it begins.
    cases hwalk with
    | single b =>
      cases hhead
      cases hlast
      exact List.mem_singleton_self _
    | cons hadj hrest => simp at hlength
  far := by
    intro walk hwalk _ _
    exact hwalk.length_pos

/-- Where the goal is not on the frontier, the walks that lead to it are longer. -/
theorem lt_length (h : Round g start goal n seen paths) (hgoal : ∀ p ∈ paths, p.head? ≠ some goal)
    {walk : List String} (hwalk : g.Walk walk) (hhead : walk.head? = some start)
    (hlast : walk.getLast? = some goal) : n + 1 < walk.length := by
  apply Nat.lt_of_not_le
  intro hle
  apply h.goal_not_mem hgoal
  exact h.near walk hwalk hhead hle goal hlast

/-- A round sees the neighbours of all that was seen before it. -/
theorem mem_seen_of_adj (h : Round g start goal n seen paths) {a b : String} (ha : a ∈ seen)
    (hadj : g.Adj a b) : b ∈ (g.extend seen paths).2 := by
  rcases h.settled a ha with ⟨path, hpath⟩ | ⟨-, hclosed⟩
  · exact mem_seen_extend_of_adj hpath hadj
  · apply mem_seen_extend.mpr
    left
    exact hclosed b hadj

theorem extend (h : Round g start goal n seen paths) (hgoal : ∀ p ∈ paths, p.head? ≠ some goal) :
    Round g start goal (n + 1) (g.extend seen paths).2 (g.extend seen paths).1 where
  toSearching := h.toSearching.extend hgoal
  length := by
    intro q hq
    obtain ⟨a, path, b, hmem, rfl, -, -⟩ := exists_of_mem_extend hq
    have hlength := h.length _ hmem
    simp only [List.length_cons] at hlength ⊢
    omega
  near := by
    intro walk hwalk hhead hlength b hlast
    -- The last edge of the walk leaves a package that the walk before it leads to.
    obtain ⟨hne, hchain⟩ := walk_iff.mp hwalk
    obtain ⟨front, rfl⟩ := List.getLast?_eq_some_iff.mp hlast
    cases hfront : front.getLast? with
    | none =>
      rw [List.getLast?_eq_none_iff] at hfront
      subst hfront
      cases hhead
      exact mem_seen_extend.mpr (Or.inl h.start_seen)
    | some a =>
      have hfront_ne : front ≠ [] := by
        rintro rfl
        cases hfront
      obtain ⟨hfront_chain, -, hadj⟩ := List.isChain_append.mp hchain
      have ha : a ∈ seen := by
        apply h.near front (walk_iff.mpr ⟨hfront_ne, hfront_chain⟩) _ _ a hfront
        · rwa [List.head?_append_of_ne_nil _ hfront_ne] at hhead
        · rw [List.length_append, List.length_singleton] at hlength
          omega
      apply h.mem_seen_of_adj ha
      exact hadj a hfront b rfl
  far := by
    intro walk hwalk hhead hlast
    exact h.lt_length hgoal hwalk hhead hlast

/-- What is found in a round is a shortest path. -/
theorem isShortest (h : Round g start goal n seen paths) {p : List String}
    (hfind : (paths.find? fun p => decide (p.head? = some goal)) = some p) :
    g.IsShortest start goal p.reverse := by
  obtain ⟨hchain, hhead, hlast, hnodup⟩ := found_spec h.toSearching hfind
  have hmem := List.mem_of_find?_eq_some hfind
  have hne : p.reverse ≠ [] := by
    intro hnil
    exact (h.walks p hmem).1 (List.reverse_eq_nil_iff.mp hnil)
  refine ⟨walk_iff.mpr ⟨hne, hchain⟩, hhead, hlast, hnodup, ?_⟩
  intro walk hwalk hwalkHead hwalkLast
  rw [List.length_reverse, h.length p hmem]
  exact h.far walk hwalk hwalkHead hwalkLast

end Round

/-- The first round that holds the goal ends the search. -/
theorem isShortest_of_search {rounds n : Nat} {seen : List String} {paths : List (List String)}
    (h : Round g start goal n seen paths) {path : List String}
    (hsearch : g.search goal rounds seen paths = some path) : g.IsShortest start goal path := by
  induction rounds generalizing n seen paths with
  | zero =>
    cases hfind : paths.find? fun p => decide (p.head? = some goal) with
    | some p =>
      rw [search_of_found hfind] at hsearch
      cases hsearch
      exact h.isShortest hfind
    | none =>
      rw [search_zero_of_none hfind] at hsearch
      cases hsearch
  | succ rounds ih =>
    cases hfind : paths.find? fun p => decide (p.head? = some goal) with
    | some p =>
      rw [search_of_found hfind] at hsearch
      cases hsearch
      exact h.isShortest hfind
    | none =>
      rw [search_succ_of_none hfind] at hsearch
      split at hsearch
      · cases hsearch
      · have hnext := h.extend (not_goal_of_find? hfind)
        exact ih hnext hsearch

theorem isSome_path : (g.path start goal).isSome ↔ g.Reachable start goal := by
  rw [reachable_iff]
  constructor
  · intro h
    obtain ⟨path, hpath⟩ := Option.isSome_iff_exists.mp h
    have hshortest := isShortest_of_search (Round.init g start goal) hpath
    exact reachable_iff.mp ⟨path, hshortest.walk, hshortest.head, hshortest.last⟩
  · intro hreach
    cases hpath : g.path start goal with
    | some path => rfl
    | none => exact absurd hreach (path_eq_none hpath)

/-- **The search finds a shortest path wherever there is a way at all**, from a package to itself
included, which is a way of no edge. -/
theorem finds_shortest_path (g : PackageGraph) (start goal : String) :
    ((g.path start goal).isSome ↔ g.Reachable start goal) ∧
      ∀ path, g.path start goal = some path → g.IsShortest start goal path := by
  constructor
  · exact isSome_path
  · intro path hpath
    exact isShortest_of_search (Round.init g start goal) hpath

-- Round the cycle of three packages, not back along the edge.
example :
    let g := (((empty.addEdge "a" "b").addEdge "b" "c").addEdge "c" "a").addEdge "b" "d"
    g.path "b" "a" = some ["b", "c", "a"] ∧ g.path "d" "d" = some ["d"] ∧
      g.path "d" "a" = none := by
  decide

end AnalysisHost.PackageGraph
