/-!
# Reading and what is left

A reader takes something from the front of a text and says what is left. That what is left is
shorter is part of the answer, so a reader that calls others on what they leave always comes to an
end.
-/

namespace AnalysisHost.Toml

/-- A text shorter than `s`. -/
abbrev Shorter (s : List Char) := { r : List Char // r.length < s.length }

/-- A text no longer than `s`. -/
abbrev NoLonger (s : List Char) := { r : List Char // r.length ≤ s.length }

/-- Nothing is taken, and everything is left. -/
def untouched (s : List Char) : NoLonger s := ⟨s, Nat.le_refl _⟩

/-- What a reader takes from the front of `s`, and what is left. -/
abbrev Parsed (α : Type) (s : List Char) := Option (α × Shorter s)

theorem length_dropWhile_le (p : Char → Bool) (s : List Char) :
    (s.dropWhile p).length ≤ s.length := by
  induction s with
  | nil => simp
  | cons c cs ih =>
    rw [List.dropWhile_cons]
    split
    · exact Nat.le_succ_of_le ih
    · exact Nat.le_refl _

/-- What is left behind a character is shorter. -/
theorem shorter_tail (r : List Char) : r.length < r.length + 1 := Nat.lt_succ_self _

/-- What is left behind two characters is shorter. -/
theorem shorter_tail_tail (r : List Char) : r.length < r.length + 1 + 1 :=
  Nat.lt_succ_of_lt (shorter_tail r)

/-- What is no longer than the rest is no longer than the whole. -/
theorem noLonger_tail {c : Char} {r s : List Char} (h : r.length ≤ s.length) :
    r.length ≤ (c :: s).length :=
  Nat.le_succ_of_le h

/-- What is left is shorter if something is taken, whatever is skipped before it and behind it. -/
theorem shorter_of_skipped {s r₁ r₂ r₃ : List Char} (before : r₁.length ≤ s.length)
    (taken : r₂.length < r₁.length) (behind : r₃.length ≤ r₂.length) : r₃.length < s.length :=
  Nat.lt_of_le_of_lt behind (Nat.lt_of_lt_of_le taken before)

/-! ### What may stand between other things -/

def isWs (c : Char) : Bool := c == ' ' || c == '\t'

/-- A character that text may hold: no control character but the tab. -/
def isText (c : Char) : Bool := c == '\t' || (0x20 ≤ c.toNat && c.toNat != 0x7F)

def skipWs (s : List Char) : NoLonger s := ⟨s.dropWhile isWs, length_dropWhile_le isWs s⟩

/-- Take the rest of a comment, whose mark has been taken, up to the end of the line. -/
def comment (s : List Char) : Option (NoLonger s) :=
  if (s.takeWhile fun c => c != '\n' && c != '\x0d').all isText then
    some ⟨s.dropWhile fun c => c != '\n' && c != '\x0d', length_dropWhile_le _ s⟩
  else none

/-- Take a line break: a line feed, after a carriage return if one likes. -/
def newline (s : List Char) : Option (Shorter s) :=
  match s with
  | '\n' :: r => some ⟨r, shorter_tail r⟩
  | '\x0d' :: '\n' :: r => some ⟨r, shorter_tail_tail r⟩
  | _ => none

def skipTrivia (s : List Char) : Option (NoLonger s) :=
  match s with
  | [] => some ⟨[], Nat.le_refl _⟩
  | c :: cs =>
    if isWs c then do
      let ⟨r, h⟩ ← skipTrivia cs
      return ⟨r, Nat.le_succ_of_le h⟩
    else if c = '#' then do
      let ⟨r, h⟩ ← comment cs
      let ⟨r', h'⟩ ← skipTrivia r
      return ⟨r', Nat.le_succ_of_le (Nat.le_trans h' h)⟩
    else if c = '\n' ∨ c = '\x0d' then do
      let ⟨r, h⟩ ← newline (c :: cs)
      let ⟨r', h'⟩ ← skipTrivia r
      return ⟨r', Nat.le_trans h' (Nat.le_of_lt h)⟩
    else some ⟨c :: cs, Nat.le_refl _⟩
termination_by s.length
decreasing_by
  · exact shorter_tail cs
  · exact Nat.lt_succ_of_le h
  · exact h

/-- Take the end of a line: blanks, perhaps a comment, and a line break or the end of the text. -/
def lineEnd (s : List Char) : Option (NoLonger s) := do
  let ⟨r, h⟩ := skipWs s
  let ⟨r, h⟩ ← (match r, h with
    | '#' :: r, h => (comment r).map fun ⟨r', h'⟩ =>
        (⟨r', Nat.le_trans h' (Nat.le_of_lt h)⟩ : NoLonger s)
    | r, h => some ⟨r, h⟩)
  match r, h with
  | [], h => return ⟨[], h⟩
  | r, h =>
    let ⟨r', h'⟩ ← newline r
    return ⟨r', Nat.le_trans (Nat.le_of_lt h') h⟩

end AnalysisHost.Toml
