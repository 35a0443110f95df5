/-!
# The graph of packages

Which package imports from which. Edges keep the order in which they were added, and no edge is
there twice.

`path` looks for a shortest path, breadth first: round `k` holds one path of `k` edges to every
package that is `k` edges away, in the order in which these were discovered. Every round but the
first discovers something new, so there are no more rounds than edges.

Beside the search stand the notions that it is judged by: `Walk`, a way along edges, and
`IsCycle`, an elementary cycle.
-/

namespace AnalysisHost

/-- Import edges between packages. -/
structure PackageGraph where
  /-- The edges in the order in which they were added. -/
  edges : List (String × String) := []
  nodup_edges : edges.Nodup := by exact List.nodup_nil

namespace PackageGraph

def empty : PackageGraph := {}

def Adj (g : PackageGraph) (a b : String) : Prop := (a, b) ∈ g.edges

instance (g : PackageGraph) (a b : String) : Decidable (g.Adj a b) :=
  inferInstanceAs (Decidable ((a, b) ∈ g.edges))

def hasEdge (g : PackageGraph) (a b : String) : Bool := decide (g.Adj a b)

/-- Add an edge, unless it is there already. -/
def addEdge (g : PackageGraph) (a b : String) : PackageGraph :=
  if h : (a, b) ∈ g.edges then g
  else
    { edges := g.edges ++ [(a, b)]
      nodup_edges := by
        refine List.pairwise_append.2 ⟨g.nodup_edges, List.pairwise_singleton _ _, ?_⟩
        intro x hx y hy
        rw [List.mem_singleton] at hy
        intro e
        exact h (hy ▸ e ▸ hx) }

def edgeCount (g : PackageGraph) : Nat := g.edges.length

/-- The packages that a package imports from, in the order in which the edges were added. -/
def successors (g : PackageGraph) (a : String) : List String :=
  (g.edges.filter fun e => decide (e.1 = a)).map (·.2)

@[simp] theorem mem_successors {g : PackageGraph} {a b : String} :
    b ∈ g.successors a ↔ g.Adj a b := by
  simp [successors, Adj]

@[simp] theorem adj_addEdge {g : PackageGraph} {a b c d : String} :
    (g.addEdge a b).Adj c d ↔ g.Adj c d ∨ (c = a ∧ d = b) := by
  unfold addEdge Adj
  split
  · next h =>
    constructor
    · exact Or.inl
    · rintro (h' | ⟨rfl, rfl⟩)
      · exact h'
      · exact h
  · simp

/-! ### Searching -/

/-- Extend the paths of a round by one edge, to packages not seen before. Paths are kept backwards,
so the package that a path leads to is its head. The result is the next round and all packages seen
so far. -/
def extend (g : PackageGraph) (seen : List String) :
    List (List String) → List (List String) × List String
  | [] => ([], seen)
  | [] :: paths => extend g seen paths
  | (a :: path) :: paths =>
    let fresh := (g.successors a).filter fun b => decide (b ∉ seen)
    let (more, seen) := extend g (seen ++ fresh) paths
    (fresh.map (fun b => b :: a :: path) ++ more, seen)

/-- Search round by round, for at most `rounds` more of them. -/
def search (g : PackageGraph) (goal : String) :
    (rounds : Nat) → (seen : List String) → List (List String) → Option (List String)
  | rounds, seen, paths =>
    match paths.find? fun p => decide (p.head? = some goal) with
    | some p => some p.reverse
    | none =>
      match rounds with
      | 0 => none
      | rounds + 1 =>
        match g.extend seen paths with
        | ([], _) => none
        | (paths@(_ :: _), seen) => search g goal rounds seen paths

/-- A shortest path between two packages, both ends included. -/
def path (g : PackageGraph) (start goal : String) : Option (List String) :=
  g.search goal g.edgeCount [start] [[start]]

/-! ### Walks and cycles -/

/-- A walk: a non-empty list of packages with an edge between every two neighbours. -/
inductive Walk (g : PackageGraph) : List String → Prop
  | single (a : String) : Walk g [a]
  | cons {a b : String} {rest : List String} :
      g.Adj a b → Walk g (b :: rest) → Walk g (a :: b :: rest)

/-- A goal can be reached from a start by zero or more edges. -/
def Reachable (g : PackageGraph) (start goal : String) : Prop :=
  ∃ walk, g.Walk walk ∧ walk.head? = some start ∧ walk.getLast? = some goal

/-- An elementary cycle: distinct packages, an edge from each to the next, and one from the last
back to the first. -/
def IsCycle (g : PackageGraph) (cycle : List String) : Prop :=
  cycle.Nodup ∧ ∃ first last, cycle.head? = some first ∧ cycle.getLast? = some last ∧
    g.Walk cycle ∧ g.Adj last first

end PackageGraph

end AnalysisHost
