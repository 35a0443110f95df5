/-!
# Cutting text at a character

Text is cut as a list of characters. Three cuts are enough for the whole library:

* `after? p s` — what follows `p` at the front of `s`;
* `segments sep s` — all pieces between separators, empty pieces included;
* `splitLast sep s` — the two sides of the last separator.

Each comes with the equation that pins it down: `after?_eq_some_iff`, `join_segments` and
`splitLast_eq_some_iff`.
-/

namespace AnalysisHost.Text

/-! ### What follows a given beginning -/

/-- What follows `p` in a text that begins with `p`. -/
def after? : List Char → List Char → Option (List Char)
  | [], s => some s
  | _ :: _, [] => none
  | p :: ps, c :: cs => if p = c then after? ps cs else none

theorem after?_eq_some_iff {p s r : List Char} : after? p s = some r ↔ s = p ++ r := by
  induction p generalizing s with
  | nil => simp [after?, eq_comm]
  | cons a ps ih =>
    cases s with
    | nil => simp [after?]
    | cons c cs =>
      by_cases h : a = c
      · subst h; simp [after?, ih]
      · have h' : ¬ c = a := fun e => h e.symm
        simp [after?, h, h']

/-! ### Pieces between separators -/

/-- Put a character in front of the first piece. -/
def consFirst (c : Char) : List (List Char) → List (List Char)
  | [] => [[c]]
  | w :: ws => (c :: w) :: ws

/-- The pieces between separators. A text without a separator is one piece, so there is always at
least one, and neighbouring separators enclose an empty one. -/
def segments (sep : Char) : List Char → List (List Char)
  | [] => [[]]
  | c :: cs => if c = sep then [] :: segments sep cs else consFirst c (segments sep cs)

def join (sep : Char) : List (List Char) → List Char
  | [] => []
  | [w] => w
  | w :: v :: ws => w ++ sep :: join sep (v :: ws)

theorem segments_ne_nil (sep : Char) (s : List Char) : segments sep s ≠ [] := by
  cases s with
  | nil => simp [segments]
  | cons c cs =>
    simp only [segments]
    split
    · simp
    · cases segments sep cs <;> simp [consFirst]

theorem join_consFirst (sep c : Char) {ws : List (List Char)} (h : ws ≠ []) :
    join sep (consFirst c ws) = c :: join sep ws := by
  cases ws with
  | nil => exact absurd rfl h
  | cons w ws => cases ws <;> simp [consFirst, join]

/-- Nothing is lost by cutting: the pieces, joined again, are the text. -/
theorem join_segments (sep : Char) (s : List Char) : join sep (segments sep s) = s := by
  induction s with
  | nil => rfl
  | cons c cs ih =>
    simp only [segments]
    split
    · next h =>
      cases hs : segments sep cs with
      | nil => exact absurd hs (segments_ne_nil sep cs)
      | cons w ws => rw [join, ← hs, ih, h]; rfl
    · rw [join_consFirst sep c (segments_ne_nil sep cs), ih]

/-! ### The two sides of the last separator -/

/-- What stands before and after the last separator, if there is one. -/
def splitLast (sep : Char) : List Char → Option (List Char × List Char)
  | [] => none
  | c :: cs =>
    match splitLast sep cs with
    | some (before, behind) => some (c :: before, behind)
    | none => if c = sep then some ([], cs) else none

theorem splitLast_eq_none_iff {sep : Char} {s : List Char} : splitLast sep s = none ↔ sep ∉ s := by
  induction s with
  | nil => simp [splitLast]
  | cons c cs ih =>
    simp only [splitLast]
    cases h : splitLast sep cs with
    | none =>
      have := ih.1 h
      by_cases hc : c = sep
      · simp [hc]
      · have hc' : ¬ sep = c := fun e => hc e.symm
        simp [hc, hc', this]
    | some x =>
      have : sep ∈ cs := Classical.byContradiction fun hn => by simp [ih.2 hn] at h
      simp [this]

/-- The cut is at the last separator: it is put back between the two sides, and the second side
has none. -/
theorem splitLast_eq_some_iff {sep : Char} {s a b : List Char} :
    splitLast sep s = some (a, b) ↔ s = a ++ sep :: b ∧ sep ∉ b := by
  induction s generalizing a with
  | nil => simp [splitLast]
  | cons c cs ih =>
    simp only [splitLast]
    cases h : splitLast sep cs with
    | some x =>
      obtain ⟨a', b'⟩ := x
      have hcs := (ih (a := a')).1
      constructor
      · intro e
        simp only [Option.some.injEq, Prod.mk.injEq] at e
        obtain ⟨rfl, rfl⟩ := e
        have := (ih (a := a')).1 h
        exact ⟨by simp [this.1], this.2⟩
      · rintro ⟨e, hb⟩
        cases a with
        | nil =>
          simp only [List.nil_append, List.cons.injEq] at e
          have : splitLast sep cs = none := splitLast_eq_none_iff.2 (e.2 ▸ hb)
          simp [this] at h
        | cons a₀ as =>
          simp only [List.cons_append, List.cons.injEq] at e
          have := (ih (a := as)).2 ⟨e.2, hb⟩
          rw [h] at this
          simp only [Option.some.injEq, Prod.mk.injEq] at this
          simp [this, e.1]
    | none =>
      have hn := splitLast_eq_none_iff.1 h
      constructor
      · intro e
        by_cases hc : c = sep
        · simp only [hc, if_true, Option.some.injEq, Prod.mk.injEq] at e
          obtain ⟨rfl, rfl⟩ := e
          exact ⟨by simp [hc], hn⟩
        · simp [hc] at e
      · rintro ⟨e, hb⟩
        cases a with
        | nil =>
          simp only [List.nil_append, List.cons.injEq] at e
          simp [e.1, e.2]
        | cons a₀ as =>
          simp only [List.cons_append, List.cons.injEq] at e
          exact absurd (by simp [e.2]) hn

end AnalysisHost.Text
