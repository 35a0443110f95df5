import AnalysisHost.Manifest.Span
import AnalysisHost.Proofs.NameForms
import Mathlib

/-!
# The lines that a search leads to

A text is searched from its front, and finds do not overlap. What has no line break in it is found
line by line, though (`occurrences_append`): a find never begins on one line and ends on another, so
no find on a line is lost to one on the line above. The lines of all finds follow from the number of
finds on each line (`map_lineAt_occurrences`), and whether the first two are on given lines from the
number of those above the second (`spread_eq_iff`).
-/

namespace AnalysisHost.Span

/-! ## Lines and bytes

Finds are places in bytes, and what is claimed of them is about lines. `lineAt` leads from the one
to the other, and goes along with putting texts together. -/

/-- The line on which a byte of a text lies, counted from zero. -/
def lineAt : Nat → List Char → Nat
  | 0, _ => 0
  | _ + 1, [] => 0
  | n + 1, c :: cs => (if c = '\n' then 1 else 0) + lineAt (n + 1 - c.utf8Size) cs

/-- The length of a text in bytes. -/
def bytes (s : List Char) : Nat := (s.map Char.utf8Size).sum

theorem bytes_cons (c : Char) (cs : List Char) : bytes (c :: cs) = c.utf8Size + bytes cs := by
  simp [bytes]

theorem bytes_append (s t : List Char) : bytes (s ++ t) = bytes s + bytes t := by
  simp [bytes]

theorem bytes_eq_zero_iff {s : List Char} : bytes s = 0 ↔ s = [] := by
  cases s with
  | nil => simp [bytes]
  | cons c cs =>
    have hpos := Char.utf8Size_pos c
    rw [bytes_cons]
    simp only [List.cons_ne_nil, iff_false]
    omega

/-- This is the length that texts are measured by where labels are made. -/
theorem bytes_toList (s : String) : bytes s.toList = s.utf8ByteSize := by
  induction s using String.push_induction with
  | empty => rfl
  | push s c ih =>
    rw [String.toList_push, bytes_append, ih, String.utf8ByteSize_push]
    simp [bytes]

theorem lineAt_zero (s : List Char) : lineAt 0 s = 0 := by
  cases s <;> rfl

/-- A character takes a step down the text, and one down the lines if it breaks them. -/
theorem lineAt_cons (c : Char) (cs : List Char) (n : Nat) :
    lineAt (c.utf8Size + n) (c :: cs) = (if c = '\n' then 1 else 0) + lineAt n cs := by
  have hpos := Char.utf8Size_pos c
  obtain ⟨k, hk⟩ : ∃ k, c.utf8Size + n = k + 1 := ⟨c.utf8Size + n - 1, by omega⟩
  have hrest : k + 1 - c.utf8Size = n := by omega
  rw [hk, lineAt, hrest]

/-- A place behind some text is as many lines down as the text has line breaks. -/
theorem lineAt_append (s t : List Char) (n : Nat) :
    lineAt (bytes s + n) (s ++ t) = s.count '\n' + lineAt n t := by
  induction s with
  | nil => simp [bytes]
  | cons c cs ih =>
    rw [bytes_cons, Nat.add_assoc, List.cons_append, lineAt_cons, ih, List.count_cons]
    simp only [beq_iff_eq]
    omega

/-- Up to the end of its line, and just behind it, a place is on the first line. -/
theorem lineAt_of_le {s : List Char} (hs : '\n' ∉ s) {n : Nat} (hn : n ≤ bytes s) (t : List Char) :
    lineAt n (s ++ t) = 0 := by
  induction s generalizing n with
  | nil =>
    obtain rfl : n = 0 := by simpa [bytes] using hn
    exact lineAt_zero t
  | cons c cs ih =>
    obtain ⟨hc, hcs⟩ := List.ne_and_not_mem_of_not_mem_cons hs
    rw [bytes_cons] at hn
    cases n with
    | zero => exact lineAt_zero _
    | succ k =>
      rw [List.cons_append, lineAt, if_neg (Ne.symm hc), Nat.zero_add]
      exact ih hcs (by omega)

/-! ## Finds

A find covers the characters that it is made of, and no other find begins there. So a search carries
along how many characters are still covered, and the lemmas are about every such number. -/

variable {needle : List Char}

/-- Where a search begins to count only moves its finds. -/
theorem occurrences_shift (covered offset d : Nat) (s : List Char) :
    occurrences needle covered (offset + d) s =
      (occurrences needle covered offset s).map (· + d) := by
  induction s generalizing covered offset with
  | nil => rfl
  | cons c cs ih =>
    have hnext : offset + d + c.utf8Size = offset + c.utf8Size + d := by omega
    cases covered with
    | succ covered => rw [occurrences, occurrences, hnext, ih]
    | zero =>
      simp only [occurrences, hnext, ih]
      split <;> rfl

/-- A find is in the text that is searched. -/
theorem bounds_of_mem_occurrences {covered offset o : Nat} {s : List Char}
    (h : o ∈ occurrences needle covered offset s) : offset ≤ o ∧ o < offset + bytes s := by
  induction s generalizing covered offset with
  | nil => cases h
  | cons c cs ih =>
    have hpos := Char.utf8Size_pos c
    rw [bytes_cons]
    cases covered with
    | succ covered =>
      rw [occurrences] at h
      have := ih h
      omega
    | zero =>
      rw [occurrences] at h
      split at h
      · rcases List.mem_cons.mp h with rfl | h
        · omega
        · have := ih h
          omega
      · have := ih h
        omega

/-- Finds come in order, so no two of them are at one place. -/
theorem pairwise_occurrences (needle : List Char) (covered offset : Nat) (s : List Char) :
    (occurrences needle covered offset s).Pairwise (· < ·) := by
  induction s generalizing covered offset with
  | nil => exact .nil
  | cons c cs ih =>
    cases covered with
    | succ covered => exact ih covered _
    | zero =>
      rw [occurrences]
      split
      · refine List.pairwise_cons.mpr ⟨fun o ho => ?_, ih _ _⟩
        have hpos := Char.utf8Size_pos c
        have := (bounds_of_mem_occurrences ho).1
        omega
      · exact ih _ _

/-- What stands somewhere in a text is found, since nothing is covered at the beginning. -/
theorem occurrences_ne_nil (hne : needle ≠ []) {s : List Char} (h : needle <:+: s) (offset : Nat) :
    occurrences needle 0 offset s ≠ [] := by
  induction s generalizing offset with
  | nil => exact absurd (List.infix_nil.mp h) hne
  | cons c cs ih =>
    rw [occurrences]
    split
    · exact List.cons_ne_nil _ _
    · next hnot =>
      refine ih ?_ _
      rcases List.infix_cons_iff.mp h with hfront | hlater
      · exact absurd (List.isPrefixOf_iff_prefix.mpr hfront) hnot
      · exact hlater

/-- A match does not go past the end of a line if there is no line break in what is looked for. -/
theorem isPrefixOf_append_newline (hneedle : '\n' ∉ needle) (s t : List Char) :
    needle.isPrefixOf (s ++ '\n' :: t) = needle.isPrefixOf s := by
  induction needle generalizing s with
  | nil => rfl
  | cons a as ih =>
    obtain ⟨ha, has⟩ := List.ne_and_not_mem_of_not_mem_cons hneedle
    cases s with
    | nil => simp [List.isPrefixOf, Ne.symm ha]
    | cons c cs => simp [List.isPrefixOf, ih has]

/-- What has no line break is found on one side of a line break or on the other. -/
theorem occurrences_append (hneedle : '\n' ∉ needle) (hne : needle ≠ []) {covered : Nat}
    {s : List Char} (hcovered : covered ≤ s.length) (offset : Nat) (t : List Char) :
    occurrences needle covered offset (s ++ '\n' :: t) =
      occurrences needle covered offset s ++ occurrences needle 0 (offset + bytes s + 1) t := by
  induction s generalizing covered offset with
  | nil =>
    obtain rfl : covered = 0 := by simpa using hcovered
    have hbreak : needle.isPrefixOf ('\n' :: t) = false := by
      rw [← List.nil_append ('\n' :: t), isPrefixOf_append_newline hneedle]
      cases needle with
      | nil => exact absurd rfl hne
      | cons a as => rfl
    simp only [List.nil_append, occurrences, hbreak]
    rfl
  | cons c cs ih =>
    rw [bytes_cons, ← Nat.add_assoc]
    cases covered with
    | succ covered =>
      rw [List.cons_append, occurrences, occurrences]
      exact ih (by simpa using hcovered) _
    | zero =>
      have hfront := isPrefixOf_append_newline hneedle (c :: cs) t
      rw [List.cons_append] at hfront ⊢
      simp only [occurrences, hfront]
      split
      · next hfound =>
        -- A find is as long as the needle, and the needle is over before the line is.
        have hlength := (List.isPrefixOf_iff_prefix.mp hfound).length_le
        rw [List.length_cons] at hlength
        rw [ih (by omega), List.cons_append]
      · exact ih (Nat.zero_le _) _

/-! ## Finds by lines

The search of a whole text is the searches of its lines put one behind the other
(`occurrences_append`). So the lines of all finds are known from how many there are on each. -/

/-- The lines of finds, if there are so many on each line. -/
def spread : List Nat → List Nat
  | [] => []
  | m :: ms => List.replicate m 0 ++ (spread ms).map (· + 1)

/-- The finds on a line without line breaks are on the first line of the text that it begins. -/
theorem map_lineAt_occurrences_line {l : List Char} (hl : '\n' ∉ l) (t : List Char) :
    (occurrences needle 0 0 l).map (fun o => lineAt (o + 1) (l ++ t)) =
      List.replicate (occurrences needle 0 0 l).length 0 := by
  rw [List.eq_replicate_iff, List.length_map]
  refine ⟨rfl, ?_⟩
  intro n hn
  obtain ⟨o, ho, rfl⟩ := List.mem_map.mp hn
  have := (bounds_of_mem_occurrences ho).2
  exact lineAt_of_le hl (by omega) t

/-- One line further down, everything is as it is without that line. -/
theorem lineAt_behind_line {l : List Char} (hl : '\n' ∉ l) (t : List Char) (n : Nat) :
    lineAt (bytes l + 1 + n) (l ++ '\n' :: t) = lineAt n t + 1 := by
  have hbreak : '\n'.utf8Size = 1 := rfl
  rw [Nat.add_assoc, lineAt_append, List.count_eq_zero_of_not_mem hl, ← hbreak, lineAt_cons,
    if_pos rfl]
  omega

/-- **The lines of all finds.** -/
theorem map_lineAt_occurrences (hneedle : '\n' ∉ needle) (hne : needle ≠ [])
    {lines : List (List Char)} (hlines : ∀ l ∈ lines, '\n' ∉ l) :
    (occurrences needle 0 0 (Text.join '\n' lines)).map
        (fun o => lineAt (o + 1) (Text.join '\n' lines)) =
      spread (lines.map fun l => (occurrences needle 0 0 l).length) := by
  induction lines with
  | nil => rfl
  | cons l rest ih =>
    obtain ⟨hl, hrest⟩ := List.forall_mem_cons.mp hlines
    cases rest with
    | nil => simpa [Text.join, spread] using map_lineAt_occurrences_line hl []
    | cons v ws =>
      have hbelow := ih hrest
      generalize htail : Text.join '\n' (v :: ws) = tail at hbelow
      have hjoin : Text.join '\n' (l :: v :: ws) = l ++ '\n' :: tail := by rw [← htail]; rfl
      have hshift : 0 + bytes l + 1 = 0 + (bytes l + 1) := by omega
      rw [hjoin, occurrences_append hneedle hne (Nat.zero_le _), List.map_append,
        map_lineAt_occurrences_line hl, hshift, occurrences_shift, List.map_map, List.map_cons,
        spread, ← hbelow, List.map_map]
      congr 1
      apply List.map_congr_left
      intro o _
      have hoffset : o + (bytes l + 1) + 1 = bytes l + 1 + (o + 1) := by omega
      rw [Function.comp_apply, hoffset, lineAt_behind_line hl]
      rfl

/-! ## Counting finds

Here lines are only numbers: how many finds there are on each of them. The row of the lines of all
finds is `spread`, and its first two members are what labels are made of. -/

/-- There are as many lines in the row as there are finds. -/
theorem length_spread (ms : List Nat) : (spread ms).length = ms.sum := by
  induction ms with
  | nil => rfl
  | cons m ms ih => simp [spread, ih]

/-- There is a find on a line. -/
def Hit (ms : List Nat) (line : Nat) : Prop := ∃ m, ms[line]? = some m ∧ 0 < m

theorem hit_cons_zero {m : Nat} {ms : List Nat} : Hit (m :: ms) 0 ↔ ∃ k, m = k + 1 := by
  simp only [Hit, List.getElem?_cons_zero, Option.some.injEq, exists_eq_left']
  exact ⟨fun h => ⟨m - 1, by omega⟩, fun ⟨k, hk⟩ => by omega⟩

/-- Below the first line, the lines are counted without it. -/
theorem hit_cons_succ {m line : Nat} {ms : List Nat} : Hit (m :: ms) (line + 1) ↔ Hit ms line := by
  simp only [Hit, List.getElem?_cons_succ]

/-- Above a line there is a find if a line above it has one. -/
theorem sum_take_pos {ms : List Nat} {line below : Nat} (h : Hit ms line) (hlt : line < below) :
    0 < (ms.take below).sum := by
  obtain ⟨m, hm, hpos⟩ := h
  have hmem : m ∈ ms.take below :=
    List.mem_of_getElem? ((List.getElem?_take_of_lt hlt).trans hm)
  exact List.sum_pos_iff_exists_pos_nat.mpr ⟨m, hmem, hpos⟩

theorem two_le_sum {ms : List Nat} {first second : Nat} (hlt : first < second)
    (hfirst : Hit ms first) (hsecond : Hit ms second) : 2 ≤ ms.sum := by
  have habove := sum_take_pos hfirst hlt
  have hbelow : 0 < (ms.drop second).sum := by
    obtain ⟨m, hm, hpos⟩ := hsecond
    have hmem : m ∈ ms.drop second := List.mem_of_getElem? (i := 0) (by simpa using hm)
    exact List.sum_pos_iff_exists_pos_nat.mpr ⟨m, hmem, hpos⟩
  rw [← List.take_append_drop second ms, List.sum_append]
  omega

/-- The first find is on a line that has one exactly if there is none above it. -/
theorem spread_zero_iff {ms : List Nat} {line : Nat} (h : Hit ms line) :
    (spread ms)[0]? = some line ↔ (ms.take line).sum = 0 := by
  induction ms generalizing line with
  | nil =>
    obtain ⟨_, hnone, -⟩ := h
    cases hnone
  | cons n ms ih =>
    cases line with
    | zero =>
      obtain ⟨k, rfl⟩ := hit_cons_zero.mp h
      simp [spread, List.replicate_succ]
    | succ line =>
      have ih := ih (hit_cons_succ.mp h)
      cases n with
      | zero => simpa [spread] using ih
      | succ k => simp [spread, List.replicate_succ]

/-- The first two finds are on two lines that have some exactly if there is just one above the
second line. -/
theorem spread_eq_iff {ms : List Nat} {first second : Nat} (hlt : first < second)
    (hfirst : Hit ms first) (hsecond : Hit ms second) :
    ((spread ms)[0]? = some first ∧ (spread ms)[1]? = some second) ↔ (ms.take second).sum = 1 := by
  induction ms generalizing first second with
  | nil =>
    obtain ⟨_, hnone, -⟩ := hfirst
    cases hnone
  | cons n ms ih =>
    obtain ⟨second, rfl⟩ : ∃ k, second = k + 1 := ⟨second - 1, by omega⟩
    have hbelow := hit_cons_succ.mp hsecond
    cases first with
    | zero =>
      -- What is found on the first line comes first; a second find there is one too many.
      obtain ⟨k, rfl⟩ := hit_cons_zero.mp hfirst
      cases k with
      | zero => simpa [spread, List.replicate_succ] using spread_zero_iff hbelow
      | succ k =>
        simp [spread, List.replicate_succ]
        omega
    | succ first =>
      have hlt := Nat.lt_of_succ_lt_succ hlt
      have habove := hit_cons_succ.mp hfirst
      cases n with
      | zero => simpa [spread] using ih hlt habove hbelow
      | succ k =>
        have hsome := sum_take_pos habove hlt
        simp [spread, List.replicate_succ]
        omega

/-- If two lines have finds, there are two finds, and it is the number of those above the second
line that says whether they are the first two. -/
theorem exists_first_two {finds ms : List Nat} {line : Nat → Nat} (h : finds.map line = spread ms)
    {first second : Nat} (hlt : first < second) (hfirst : Hit ms first) (hsecond : Hit ms second) :
    ∃ o o' os, finds = o :: o' :: os ∧
      (line o = first ∧ line o' = second ↔ (ms.take second).sum = 1) := by
  have htwo := two_le_sum hlt hfirst hsecond
  have hlength := congrArg List.length h
  rw [List.length_map, length_spread] at hlength
  rcases finds with _ | ⟨o, _ | ⟨o', os⟩⟩
  · rw [List.length_nil] at hlength
    omega
  · rw [List.length_singleton] at hlength
    omega
  · refine ⟨o, o', os, rfl, ?_⟩
    rw [← spread_eq_iff hlt hfirst hsecond, ← h]
    simp

/-! ## Pieces that hold a text

Lines are the pieces of a text between its line breaks. What stands behind some text and has no
separator in it is found in one piece, and this is which. -/

/-- What has no separator in it stands at the front of the first piece. -/
theorem exists_segments_append {sep : Char} (hneedle : sep ∉ needle) (s : List Char) :
    ∃ w ws, Text.segments sep (needle ++ s) = (needle ++ w) :: ws := by
  induction needle with
  | nil =>
    cases hs : Text.segments sep s with
    | nil => exact absurd hs (Text.segments_ne_nil sep s)
    | cons w ws => exact ⟨w, ws, hs⟩
  | cons c cs ih =>
    obtain ⟨hc, hcs⟩ := List.ne_and_not_mem_of_not_mem_cons hneedle
    obtain ⟨w, ws, hrest⟩ := ih hcs
    refine ⟨w, ws, ?_⟩
    rw [List.cons_append, Text.segments, if_neg (Ne.symm hc), hrest]
    rfl

/-- What has no separator in it stands in the piece that as many separators lead to as are in front
of it. -/
theorem exists_segment {sep : Char} (hneedle : sep ∉ needle) (before behind : List Char) :
    ∃ piece, (Text.segments sep (before ++ (needle ++ behind)))[before.count sep]? = some piece ∧
      needle <:+: piece := by
  induction before with
  | nil =>
    obtain ⟨w, ws, hpieces⟩ := exists_segments_append hneedle behind
    refine ⟨needle ++ w, by rw [List.nil_append, hpieces]; rfl, ?_⟩
    exact (List.prefix_append needle w).isInfix
  | cons c cs ih =>
    obtain ⟨piece, hpiece, hheld⟩ := ih
    rw [List.cons_append, Text.segments]
    split
    · next hc =>
      refine ⟨piece, ?_, hheld⟩
      rw [hc, List.count_cons_self]
      exact hpiece
    · next hc =>
      rw [List.count_cons_of_ne hc]
      cases hpieces : Text.segments sep (cs ++ (needle ++ behind)) with
      | nil => exact absurd hpieces (Text.segments_ne_nil sep _)
      | cons w ws =>
        rw [hpieces] at hpiece
        cases hcount : cs.count sep with
        | zero =>
          rw [hcount] at hpiece
          cases hpiece
          exact ⟨c :: piece, rfl, List.infix_cons hheld⟩
        | succ n =>
          rw [hcount] at hpiece
          exact ⟨piece, hpiece, hheld⟩

end AnalysisHost.Span
