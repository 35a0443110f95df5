/-!
# Cycles up to rotation

A cycle is a list of packages, read around: it may begin anywhere, so its rotations are the same
cycle. `Cycle.canonical` picks the rotation that begins with the smallest package, and two lists
without repetition have the same one exactly if they are rotations of each other.
-/

namespace AnalysisHost.Cycle

/-- The smallest member of a non-empty list, given as its head and tail. -/
def smallest : String → List String → String
  | a, [] => a
  | a, b :: bs => smallest (if b < a then b else a) bs

/-- The rotation that begins with the smallest member. -/
def canonical : List String → List String
  | [] => []
  | a :: as =>
    let least := smallest a as
    (a :: as).dropWhile (fun x => decide (x ≠ least)) ++
      (a :: as).takeWhile (fun x => decide (x ≠ least))

/-- `d` is `c`, begun somewhere else. -/
def IsRotation (c d : List String) : Prop := ∃ front back, c = front ++ back ∧ d = back ++ front

/-- A cycle in one line: its members, with the first one again at the end. -/
def render (cycle : List String) : String :=
  " -> ".intercalate (cycle ++ cycle.head?.toList)

/-- The canonical form is a rotation. -/
theorem isRotation_canonical (c : List String) : IsRotation c (canonical c) := by
  cases c with
  | nil => exact ⟨[], [], rfl, rfl⟩
  | cons a as =>
    exact ⟨_, _, List.takeWhile_append_dropWhile.symm, rfl⟩

end AnalysisHost.Cycle
