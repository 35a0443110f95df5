import AnalysisHost.Cycle
import AnalysisHost.Proofs.PathSearch
import Mathlib.Data.List.Rotate
import Mathlib.Data.List.TakeWhile

/-!
# Elementary cycles

A list of packages is an elementary cycle of a relation if no package is there twice, each is
related to the next, and the last to the first (`Cycle.IsElementary`). Where such a list begins does
not matter.

- `Cycle.canonical_leastFirst`: the canonical form begins with the smallest member;
- `Cycle.eq_of_isRotation`: two lists that do are rotations of each other only if they are the same;
- `PackageGraph.exists_isElementary_iff`: there is an elementary cycle exactly if some package can
  be reached from itself.
-/

namespace AnalysisHost

namespace Cycle

/-- An elementary cycle of a relation. -/
structure IsElementary (R : String → String → Prop) (cycle : List String) : Prop where
  ne_nil : cycle ≠ []
  nodup : cycle.Nodup
  chain : cycle.IsChain R
  closes : ∀ last ∈ cycle.getLast?, ∀ first ∈ cycle.head?, R last first

/-- A list begins with its smallest member. -/
def LeastFirst (cycle : List String) : Prop := ∀ first ∈ cycle.head?, ∀ x ∈ cycle, first ≤ x

/-! ## Rotations -/

theorem isRotation_iff {c d : List String} : IsRotation c d ↔ c.IsRotated d := by
  constructor
  · rintro ⟨front, back, rfl, rfl⟩
    exact List.isRotated_append
  · rintro ⟨n, rfl⟩
    exact ⟨c.take (n % c.length), c.drop (n % c.length), (List.take_append_drop _ _).symm,
      List.rotate_eq_drop_append_take_mod⟩

theorem IsElementary.of_isRotation {R : String → String → Prop} {c d : List String}
    (hc : IsElementary R c) (h : IsRotation c d) : IsElementary R d := by
  have hrotated := isRotation_iff.mp h
  obtain ⟨front, back, rfl, rfl⟩ := h
  cases front with
  | nil => rw [List.append_nil]; exact hc
  | cons a front =>
    cases back with
    | nil => rw [List.append_nil] at hc; exact hc
    | cons b back =>
      obtain ⟨hfront, hback, hjoin⟩ := List.isChain_append.mp hc.chain
      refine ⟨List.cons_ne_nil _ _, hrotated.nodup_iff.mp hc.nodup, ?_, ?_⟩
      · -- The seam is where the cycle was closed.
        refine List.IsChain.append hback hfront ?_
        intro x hx y hy
        apply hc.closes x
        · rw [List.getLast?_append_of_ne_nil _ (List.cons_ne_nil _ _)]
          exact hx
        · exact hy
      · intro x hx y hy
        rw [List.getLast?_append_of_ne_nil _ (List.cons_ne_nil _ _)] at hx
        exact hjoin x hx y hy

theorem IsElementary.mono {R S : String → String → Prop} {c : List String}
    (hc : IsElementary R c) (h : ∀ a b, R a b → S a b) : IsElementary S c where
  ne_nil := hc.ne_nil
  nodup := hc.nodup
  chain := hc.chain.imp h
  closes := fun x hx y hy => h x y (hc.closes x hx y hy)

/-! ## Canonical forms -/

theorem smallest_spec (a : String) (as : List String) :
    smallest a as ∈ a :: as ∧ ∀ x ∈ a :: as, smallest a as ≤ x := by
  induction as generalizing a with
  | nil =>
    refine ⟨List.mem_singleton_self a, ?_⟩
    intro x hx
    cases List.mem_singleton.mp hx
    exact String.le_refl _
  | cons b bs ih =>
    obtain ⟨hmem, hle⟩ := ih (if b < a then b else a)
    have hhead := hle _ List.mem_cons_self
    show smallest (if b < a then b else a) bs ∈ a :: b :: bs ∧ _
    refine ⟨?_, ?_⟩
    · rcases List.mem_cons.mp hmem with heq | hmem
      · rw [heq]
        split
        · exact List.mem_cons_of_mem _ List.mem_cons_self
        · exact List.mem_cons_self
      · apply List.mem_cons_of_mem
        exact List.mem_cons_of_mem _ hmem
    · intro x hx
      show smallest (if b < a then b else a) bs ≤ x
      rcases List.mem_cons.mp hx with rfl | hx
      · refine String.le_trans hhead ?_
        split
        · next hlt => exact Std.le_of_lt hlt
        · exact String.le_refl _
      · rcases List.mem_cons.mp hx with rfl | hx
        · refine String.le_trans hhead ?_
          split
          · exact String.le_refl _
          · next hlt => exact String.not_lt.mp hlt
        · exact hle x (List.mem_cons_of_mem _ hx)

/-- The canonical form begins with its smallest member. -/
theorem canonical_leastFirst (c : List String) : LeastFirst (canonical c) := by
  cases c with
  | nil => intro first hfirst; cases hfirst
  | cons a as =>
    obtain ⟨hmem, hle⟩ := smallest_spec a as
    intro first hfirst x hx
    have hx : x ∈ a :: as :=
      (isRotation_iff.mp (isRotation_canonical (a :: as))).mem_iff.mpr hx
    -- The canonical form begins where everything else has been dropped.
    suffices hhead : first = smallest a as by
      rw [hhead]
      exact hle x hx
    have hne : (a :: as).dropWhile (fun x => decide (x ≠ smallest a as)) ≠ [] := by
      intro hnil
      have hall := List.dropWhile_eq_nil_iff.mp hnil (smallest a as) hmem
      exact of_decide_eq_true hall rfl
    have hhead := List.head?_dropWhile_not (fun x => decide (x ≠ smallest a as)) (a :: as)
    rw [canonical, List.head?_append_of_ne_nil _ hne] at hfirst
    rw [hfirst] at hhead
    simpa using hhead

/-- A list without repetition has no other rotation that begins with the same member. -/
theorem eq_of_isRotation_of_head? {c d : List String} (hnodup : c.Nodup) (h : IsRotation c d)
    (hhead : c.head? = d.head?) : c = d := by
  obtain ⟨front, back, rfl, rfl⟩ := h
  cases front with
  | nil => rw [List.nil_append, List.append_nil]
  | cons a front =>
    cases back with
    | nil => rw [List.nil_append, List.append_nil]
    | cons b back =>
      -- The two heads are different members of a list without repetition.
      have hab : a = b := Option.some.inj hhead
      have hdisjoint := (List.nodup_append.mp hnodup).2.2
      exact absurd hab (hdisjoint a List.mem_cons_self b List.mem_cons_self)

/-- **Canonical forms tell cycles apart**: lists without repetition that begin with their smallest
member are rotations of each other only if they are equal. -/
theorem eq_of_isRotation {c d : List String} (hnodup : c.Nodup) (hc : LeastFirst c)
    (hd : LeastFirst d) (h : IsRotation c d) : c = d := by
  have hmem := fun x => (isRotation_iff.mp h).mem_iff (a := x)
  apply eq_of_isRotation_of_head? hnodup h
  cases c with
  | nil =>
    cases d with
    | nil => rfl
    | cons b ds => exact absurd ((hmem b).mpr List.mem_cons_self) List.not_mem_nil
  | cons a cs =>
    cases d with
    | nil => exact absurd ((hmem a).mp List.mem_cons_self) List.not_mem_nil
    | cons b ds =>
      have hab : a ≤ b := hc a rfl b ((hmem b).mpr List.mem_cons_self)
      have hba : b ≤ a := hd b rfl a ((hmem a).mp List.mem_cons_self)
      exact congrArg some (String.le_antisymm hab hba)

/-! ## Cycles and reachability -/

/-- No package can be reached from itself. -/
def Acyclic (R : String → String → Prop) : Prop := ∀ a, ¬ Relation.TransGen R a a

/-- A cycle leads back to where it begins. -/
theorem IsElementary.not_acyclic {R : String → String → Prop} {c : List String}
    (hc : IsElementary R c) : ¬ Acyclic R := by
  intro hacyclic
  have hreach := List.relationReflTransGen_of_exists_isChain c hc.chain hc.ne_nil
  have hcloses := hc.closes _ (List.getLast?_eq_some_getLast hc.ne_nil) _
    (List.head?_eq_some_head hc.ne_nil)
  apply hacyclic
  exact Relation.TransGen.tail' hreach hcloses

end Cycle

namespace PackageGraph

variable {g : PackageGraph}

theorem isCycle_iff {cycle : List String} : g.IsCycle cycle ↔ Cycle.IsElementary g.Adj cycle := by
  constructor
  · rintro ⟨hnodup, first, last, hfirst, hlast, hwalk, hadj⟩
    obtain ⟨hne, hchain⟩ := walk_iff.mp hwalk
    refine ⟨hne, hnodup, hchain, ?_⟩
    intro x hx y hy
    rw [hlast] at hx
    rw [hfirst] at hy
    cases hx
    cases hy
    exact hadj
  · rintro ⟨hne, hnodup, hchain, hcloses⟩
    cases cycle with
    | nil => exact absurd rfl hne
    | cons a as =>
      have hlast := List.getLast?_eq_some_getLast hne
      exact ⟨hnodup, a, _, rfl, hlast, walk_iff.mpr ⟨hne, hchain⟩, hcloses _ hlast a rfl⟩

/-- **A cyclic graph has an elementary cycle.** The search finds a simple way back. -/
theorem exists_isElementary_iff :
    (∃ cycle, Cycle.IsElementary g.Adj cycle) ↔ ¬ Cycle.Acyclic g.Adj := by
  constructor
  · rintro ⟨cycle, hcycle⟩
    exact hcycle.not_acyclic
  · intro hcyclic
    unfold Cycle.Acyclic at hcyclic
    push Not at hcyclic
    obtain ⟨a, hreach⟩ := hcyclic
    -- The last edge of the way is the one that closes the cycle.
    obtain ⟨b, hreach, hadj⟩ := Relation.TransGen.tail'_iff.mp hreach
    cases hpath : g.path a b with
    | none => exact absurd hreach (path_eq_none hpath)
    | some way =>
      obtain ⟨hchain, hfirst, hlast, hnodup⟩ := path_eq_some hpath
      refine ⟨way, ?_, hnodup, hchain, ?_⟩
      · rintro rfl
        cases hfirst
      · intro x hx y hy
        rw [hlast] at hx
        rw [hfirst] at hy
        cases hx
        cases hy
        exact hadj

end PackageGraph

end AnalysisHost
