/-!
# Blank characters

The characters with the Unicode property *White_Space*, and trimming by them. The class is wider
than the six ASCII blanks: it holds the no-break space, the ideographic space and the typographic
spaces, but not the zero-width ones.
-/

namespace AnalysisHost.Text

/-- The characters with the property White_Space. -/
def isBlank (c : Char) : Bool :=
  let n := c.toNat
  (0x9 ≤ n && n ≤ 0xD) || n == 0x20 || n == 0x85 || n == 0xA0 || n == 0x1680 ||
  (0x2000 ≤ n && n ≤ 0x200A) || n == 0x2028 || n == 0x2029 || n == 0x202F || n == 0x205F ||
  n == 0x3000

def trimEnd : List Char → List Char
  | [] => []
  | c :: cs =>
    match trimEnd cs with
    | [] => if isBlank c then [] else [c]
    | d :: ds => c :: d :: ds

def trim (s : List Char) : List Char := trimEnd (s.dropWhile isBlank)

/-- Trimming the end drops blanks and nothing else. -/
theorem trimEnd_append_blanks (s : List Char) :
    ∃ b, s = trimEnd s ++ b ∧ ∀ c ∈ b, isBlank c = true := by
  induction s with
  | nil => exact ⟨[], rfl, by simp⟩
  | cons c cs ih =>
    obtain ⟨b, hb, hall⟩ := ih
    simp only [trimEnd]
    cases h : trimEnd cs with
    | nil =>
      rw [h, List.nil_append] at hb
      by_cases hc : isBlank c = true
      · exact ⟨c :: cs, by simp [hc], by simpa [hc, hb] using hall⟩
      · exact ⟨b, by simp [hc, ← hb], hall⟩
    | cons d ds =>
      exact ⟨b, by rw [h] at hb; simp [← hb], hall⟩

/-- What is left does not end in a blank. -/
theorem isBlank_getLast?_trimEnd (s : List Char) :
    ∀ c, (trimEnd s).getLast? = some c → isBlank c = false := by
  induction s with
  | nil => simp [trimEnd]
  | cons a cs ih =>
    intro c
    simp only [trimEnd]
    cases h : trimEnd cs with
    | nil =>
      by_cases ha : isBlank a = true
      · simp [ha]
      · intro hc
        simp only [ha] at hc
        simp at hc
        rw [← hc]; simpa using ha
    | cons d ds =>
      rw [h] at ih
      intro hc
      exact ih c (by simpa using hc)

end AnalysisHost.Text
