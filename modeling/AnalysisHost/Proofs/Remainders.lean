import AnalysisHost.Toml.Document
import Mathlib

/-!
# What readers leave

A reader takes something from the front of a text, so what it leaves is an end of the text. The
readers of keys and of text on one line take no line break (`OnLine`); a line of a document ends
with one, or with the document. From this it follows where lines stand: `located` reads the lines of
a text as `statements` does and keeps the text from where each of them begins, and
`located_spec` says that they stand one below the other.
-/

namespace AnalysisHost.Toml

/-! ## Readers that stay on a line

Keys, escapes, comments and text between single or double quotes stand on one line. The lemmas go
from the smallest reader to the readers of keys, and each follows the cases of its reader. -/

/-- What is left of a text if what is taken from its front has no line break in it. -/
def OnLine (s r : List Char) : Prop := ∃ taken, s = taken ++ r ∧ '\n' ∉ taken

theorem OnLine.refl (s : List Char) : OnLine s s := ⟨[], rfl, List.not_mem_nil⟩

/-- One reader behind the other: neither takes a line break, so both together take none. -/
theorem OnLine.trans {s r t : List Char} (h : OnLine s r) (h' : OnLine r t) : OnLine s t := by
  obtain ⟨taken, rfl, htaken⟩ := h
  obtain ⟨more, rfl, hmore⟩ := h'
  exact ⟨taken ++ more, (List.append_assoc ..).symm, by simp [htaken, hmore]⟩

theorem OnLine.cons {c : Char} (hc : c ≠ '\n') {s r : List Char} (h : OnLine s r) :
    OnLine (c :: s) r := by
  obtain ⟨taken, rfl, htaken⟩ := h
  exact ⟨c :: taken, rfl, by simp [htaken, hc.symm]⟩

theorem OnLine.suffix {s r : List Char} (h : OnLine s r) : r <:+ s := by
  obtain ⟨taken, rfl, -⟩ := h
  exact List.suffix_append taken r

/-- What is dropped as long as a test holds is on one line if a line break fails the test. -/
theorem onLine_dropWhile {p : Char → Bool} (hp : p '\n' = false) (s : List Char) :
    OnLine s (s.dropWhile p) := by
  refine ⟨s.takeWhile p, List.takeWhile_append_dropWhile.symm, ?_⟩
  intro h
  rw [List.all_eq_true.mp List.all_takeWhile _ h] at hp
  cases hp

theorem onLine_skipWs (s : List Char) : OnLine s (skipWs s).1 := onLine_dropWhile (by decide) s

theorem onLine_comment {s : List Char} {r : NoLonger s} (h : comment s = some r) :
    OnLine s r.1 := by
  unfold comment at h
  split at h
  · cases h
    exact onLine_dropWhile (by decide) s
  · cases h

/-- The digits of an escape are on its line, however many of them are asked for. -/
theorem onLine_hexDigits {count number n : Nat} {s : List Char} {r : NoLonger s}
    (h : hexDigits count number s = some (n, r)) : OnLine s r.1 := by
  fun_induction hexDigits count number s generalizing n with
  | case1 =>
    cases h
    exact OnLine.refl _
  | case2 => cases h
  | case3 number count c cs ih =>
    obtain ⟨digit, hdigit, h⟩ := Option.bind_eq_some_iff.mp h
    obtain ⟨⟨n', r₁⟩, hr₁, heq⟩ := Option.bind_eq_some_iff.mp h
    cases heq
    refine (ih _ hr₁).cons ?_
    rintro rfl
    cases hdigit

theorem onLine_numbered {count : Nat} {mark c : Char} (hmark : mark ≠ '\n') {s : List Char}
    {r : Shorter (mark :: s)} (h : escape.numbered count mark s = some (c, r)) :
    OnLine (mark :: s) r.1 := by
  obtain ⟨⟨number, r₁⟩, hr₁, h⟩ := Option.bind_eq_some_iff.mp h
  obtain ⟨c, -, heq⟩ := Option.bind_eq_some_iff.mp h
  cases heq
  exact (onLine_hexDigits hr₁).cons hmark

/-- Every escape stands on one line, those with a number in them included. -/
theorem onLine_escape {s : List Char} {c : Char} {r : Shorter s} (h : escape s = some (c, r)) :
    OnLine s r.1 := by
  unfold escape at h
  split at h
  case h_9 | h_10 | h_11 => exact onLine_numbered (by decide) h
  case h_12 => cases h
  all_goals
    cases h
    exact (OnLine.refl _).cons (by decide)

/-- Text is made of characters that are no line breaks. -/
theorem ne_newline_of_isText {c : Char} (h : isText c = true) : c ≠ '\n' := by
  rintro rfl
  exact absurd h (by decide)

/-- Text between double quotes ends on its line: a line break is none of its characters. -/
theorem onLine_basicText {s text : List Char} {r : Shorter s} (h : basicText s = some (text, r)) :
    OnLine s r.1 := by
  fun_induction basicText s generalizing text with
  | case1 => cases h
  | case2 r =>
    cases h
    exact (OnLine.refl _).cons (by decide)
  | case3 s ih =>
    obtain ⟨⟨c, r₁⟩, hr₁, h⟩ := Option.bind_eq_some_iff.mp h
    obtain ⟨⟨text, r₂⟩, hr₂, heq⟩ := Option.bind_eq_some_iff.mp h
    cases heq
    exact ((onLine_escape hr₁).trans (ih _ r₁.2 hr₂)).cons (by decide)
  | case4 c s _ _ htext ih =>
    obtain ⟨⟨text, r₁⟩, hr₁, heq⟩ := Option.bind_eq_some_iff.mp h
    cases heq
    exact (ih hr₁).cons (ne_newline_of_isText htext)
  | case5 => cases h

theorem onLine_literalText {s text : List Char} {r : Shorter s}
    (h : literalText s = some (text, r)) : OnLine s r.1 := by
  fun_induction literalText s generalizing text with
  | case1 => cases h
  | case2 r =>
    cases h
    exact (OnLine.refl _).cons (by decide)
  | case3 c s _ htext ih =>
    obtain ⟨⟨text, r₁⟩, hr₁, heq⟩ := Option.bind_eq_some_iff.mp h
    cases heq
    exact (ih hr₁).cons (ne_newline_of_isText htext)
  | case4 => cases h

theorem onLine_quotedLine {s : List Char} {text : String} {r : Shorter s}
    (h : quotedLine s = some (text, r)) : OnLine s r.1 := by
  unfold quotedLine at h
  split at h
  · obtain ⟨⟨text, r₁⟩, hr₁, heq⟩ := Option.bind_eq_some_iff.mp h
    cases heq
    exact (onLine_basicText hr₁).cons (by decide)
  · obtain ⟨⟨text, r₁⟩, hr₁, heq⟩ := Option.bind_eq_some_iff.mp h
    cases heq
    exact (onLine_literalText hr₁).cons (by decide)
  · cases h

/-- A key is bare or quoted, and goes over no line either way. -/
theorem onLine_simpleKey {s : List Char} {name : String} {r : Shorter s}
    (h : simpleKey s = some (name, r)) : OnLine s r.1 := by
  unfold simpleKey at h
  split at h
  · cases h
  · split at h
    · next c cs hbare =>
      cases h
      refine (onLine_dropWhile (by decide) cs).cons ?_
      rintro rfl
      exact absurd hbare (by decide)
    · split at h
      · cases h
      · exact onLine_quotedLine h

theorem onLine_mark {c : Char} (hc : c ≠ '\n') {s : List Char} {r : Shorter s}
    (h : mark c s = some r) : OnLine s r.1 := by
  unfold mark at h
  split at h
  · cases h
  · split at h
    · next heq =>
      cases h
      subst heq
      exact (onLine_skipWs _).cons hc
    · cases h

theorem onLine_dot {s : List Char} {r : Shorter s} (h : dot s = some r) : OnLine s r.1 := by
  obtain ⟨r₁, hr₁, rfl⟩ := Option.map_eq_some_iff.mp h
  exact (onLine_skipWs s).trans (onLine_mark (by decide) hr₁)

theorem onLine_dottedKey {s : List Char} {path : List String} {r : Shorter s}
    (h : dottedKey s = some (path, r)) : OnLine s r.1 := by
  fun_induction dottedKey s generalizing path with
  | case1 => cases h
  | case2 s first r₁ _ hfirst hdot =>
    cases h
    exact onLine_simpleKey hfirst
  | case3 => cases h
  | case4 s first r₁ _ hfirst next _ hdot path' last _ hrest ih =>
    cases h
    exact (onLine_simpleKey hfirst).trans ((onLine_dot hdot).trans (ih hrest))

/-- A key with dots in it stands on one line, with the blanks around the dots. -/
theorem onLine_key {s : List Char} {path : List String} {r : Shorter s}
    (h : key s = some (path, r)) : OnLine s r.1 :=
  onLine_dottedKey (Option.filter_eq_some_iff.mp h).1

/-! ## Readers that go over lines

Blank lines, text in triple quotes and values may go over lines. Of these it is enough to know that
they leave an end of the text (`<:+`). -/

/-- What is left behind a character is left, too. -/
theorem suffix_behind {c : Char} {r s : List Char} (h : c :: r <:+ s) : r <:+ s :=
  (List.suffix_cons c r).trans h

theorem length_behind {c : Char} {r s : List Char} (h : c :: r <:+ s) : r.length < s.length :=
  h.length_le

/-- A line break may have a carriage return in front of it. -/
theorem newline_eq {s : List Char} {r : Shorter s} (h : newline s = some r) :
    ∃ taken, s = taken ++ '\n' :: r.1 := by
  unfold newline at h
  split at h
  · cases h
    exact ⟨[], rfl⟩
  · cases h
    exact ⟨['\x0d'], rfl⟩
  · cases h

theorem suffix_newline {s : List Char} {r : Shorter s} (h : newline s = some r) : r.1 <:+ s := by
  obtain ⟨taken, hs⟩ := newline_eq h
  exact suffix_behind ⟨taken, hs.symm⟩

/-- Blank lines and comments are skipped over any number of lines. -/
theorem suffix_skipTrivia {s : List Char} {r : NoLonger s} (h : skipTrivia s = some r) :
    r.1 <:+ s := by
  fun_induction skipTrivia s with
  | case1 =>
    cases h
    exact List.suffix_rfl
  | case2 c cs _ ih =>
    obtain ⟨r₁, hr₁, heq⟩ := Option.bind_eq_some_iff.mp h
    cases heq
    exact (ih hr₁).trans (List.suffix_cons c cs)
  | case3 cs _ ih =>
    obtain ⟨r₁, hr₁, h⟩ := Option.bind_eq_some_iff.mp h
    obtain ⟨r₂, hr₂, heq⟩ := Option.bind_eq_some_iff.mp h
    cases heq
    exact (ih _ r₁.2 hr₂).trans ((onLine_comment hr₁).suffix.trans (List.suffix_cons _ cs))
  | case4 c cs _ _ _ ih =>
    obtain ⟨r₁, hr₁, h⟩ := Option.bind_eq_some_iff.mp h
    obtain ⟨r₂, hr₂, heq⟩ := Option.bind_eq_some_iff.mp h
    cases heq
    exact (ih _ r₁.2 hr₂).trans (suffix_newline hr₁)
  | case5 =>
    cases h
    exact List.suffix_rfl

theorem suffix_skipFirstNewline (s : List Char) : (skipFirstNewline s).1 <:+ s := by
  unfold skipFirstNewline
  split
  · next h => exact suffix_newline h
  · exact List.suffix_rfl

theorem suffix_skipSpace (s : List Char) : (skipSpace s).1 <:+ s := by
  fun_induction skipSpace s with
  | case1 r r' _ heq ih =>
    rw [heq] at ih
    exact ih.trans ⟨[_, _], rfl⟩
  | case2 c r _ _ r' _ heq ih =>
    rw [heq] at ih
    exact ih.trans (List.suffix_cons c r)
  | case3 => exact List.suffix_rfl
  | case4 => exact List.suffix_rfl

theorem suffix_lineJoin {s : List Char} {r : Shorter s} (h : lineJoin s = some r) : r.1 <:+ s := by
  obtain ⟨r₂, hr₂, heq⟩ := Option.bind_eq_some_iff.mp h
  cases heq
  exact (suffix_skipSpace r₂.1).trans ((suffix_newline hr₂).trans (onLine_skipWs s).suffix)

/-- Quotes that stand in front of the closing ones are part of the text. -/
theorem suffix_closing {quote : Char} {s text : List Char} {r : Shorter s}
    (h : closing quote s = some (text, r)) : r.1 <:+ s := by
  unfold closing at h
  repeat' split at h
  all_goals cases h
  · exact ⟨[_, _, _, _, _], rfl⟩
  · exact ⟨[_, _, _, _], rfl⟩
  · exact ⟨[_, _, _], rfl⟩
  · exact ⟨[_, _, _, _], rfl⟩
  · exact ⟨[_, _, _], rfl⟩
  · exact ⟨[_, _, _], rfl⟩

/-- Text over several lines, by the recursion of its reader: each case takes an escape, a joined
line or a character and goes on with what is left. -/
theorem suffix_basicLines {s text : List Char} {r : Shorter s}
    (h : basicLines s = some (text, r)) : r.1 <:+ s := by
  fun_induction basicLines s generalizing text with
  | case1 s closed hclosing =>
    cases h
    exact suffix_closing hclosing
  | case2 => cases h
  | case3 s r₁ _ hjoin _ ih =>
    obtain ⟨⟨text, r₂⟩, hr₂, heq⟩ := Option.bind_eq_some_iff.mp h
    cases heq
    exact (ih hr₂).trans ((suffix_lineJoin hjoin).trans (List.suffix_cons _ s))
  | case4 s _ _ ih =>
    obtain ⟨⟨c, r₁⟩, hr₁, h⟩ := Option.bind_eq_some_iff.mp h
    obtain ⟨⟨text, r₂⟩, hr₂, heq⟩ := Option.bind_eq_some_iff.mp h
    cases heq
    exact (ih _ r₁.2 hr₂).trans ((onLine_escape hr₁).suffix.trans (List.suffix_cons _ s))
  | case5 s _ ih =>
    obtain ⟨⟨text, r₁⟩, hr₁, heq⟩ := Option.bind_eq_some_iff.mp h
    cases heq
    exact (ih hr₁).trans ⟨[_, _], rfl⟩
  | case6 c s _ _ _ _ ih =>
    obtain ⟨⟨text, r₁⟩, hr₁, heq⟩ := Option.bind_eq_some_iff.mp h
    cases heq
    exact (ih hr₁).trans (List.suffix_cons c s)
  | case7 => cases h

theorem suffix_literalLines {s text : List Char} {r : Shorter s}
    (h : literalLines s = some (text, r)) : r.1 <:+ s := by
  fun_induction literalLines s generalizing text with
  | case1 s closed hclosing =>
    cases h
    exact suffix_closing hclosing
  | case2 => cases h
  | case3 s _ ih =>
    obtain ⟨⟨text, r₁⟩, hr₁, heq⟩ := Option.bind_eq_some_iff.mp h
    cases heq
    exact (ih hr₁).trans ⟨[_, _], rfl⟩
  | case4 c s _ _ _ ih =>
    obtain ⟨⟨text, r₁⟩, hr₁, heq⟩ := Option.bind_eq_some_iff.mp h
    cases heq
    exact (ih hr₁).trans (List.suffix_cons c s)
  | case5 => cases h

theorem suffix_quoted {s : List Char} {text : String} {r : Shorter s}
    (h : quoted s = some (text, r)) : r.1 <:+ s := by
  unfold quoted at h
  split at h
  · next s =>
    obtain ⟨⟨text, r₁⟩, hr₁, heq⟩ := Option.bind_eq_some_iff.mp h
    cases heq
    exact ((suffix_basicLines hr₁).trans (suffix_skipFirstNewline s)).trans ⟨[_, _, _], rfl⟩
  · next s =>
    obtain ⟨⟨text, r₁⟩, hr₁, heq⟩ := Option.bind_eq_some_iff.mp h
    cases heq
    exact ((suffix_literalLines hr₁).trans (suffix_skipFirstNewline s)).trans ⟨[_, _, _], rfl⟩
  · exact (onLine_quotedLine h).suffix

/-- Numbers, dates and truth values are read as one run of characters. -/
theorem suffix_scalar {s : List Char} {text : String} {r : Shorter s}
    (h : scalar s = some (text, r)) : r.1 <:+ s := by
  unfold scalar at h
  dsimp only at h
  split at h
  · cases h
    exact List.drop_suffix _ s
  · cases h

theorem suffix_equalitySign {s : List Char} {r : Shorter s} (h : equalitySign s = some r) :
    r.1 <:+ s := by
  unfold equalitySign at h
  repeat' split at h
  all_goals cases h
  next hbefore _ _ _ hmark _ _ _ hbehind =>
  exact (suffix_skipTrivia hbehind).trans
    ((onLine_mark (by decide) hmark).suffix.trans (suffix_skipTrivia hbefore))

/-! ### Values

Values, the items of lists and the fields of tables are read by each other, and the three lemmas
follow them. What is still left at a recursive call is shorter because it is an end of the text. -/

mutual

/-- A value takes the front of a text, whatever it is made of. -/
theorem suffix_value {depth : Nat} {s : List Char} {v : Value} {r : Shorter s}
    (h : value depth s = some (v, r)) : r.1 <:+ s := by
  rw [value.eq_def] at h
  repeat' split at h
  all_goals try cases h
  · next hitems => exact (suffix_items hitems).trans (List.suffix_cons _ _)
  · next hfields => exact (suffix_fields hfields).trans (List.suffix_cons _ _)
  · obtain ⟨⟨text, r⟩, hquoted, heq⟩ := Option.map_eq_some_iff.mp h
    cases heq
    exact suffix_quoted hquoted
  · obtain ⟨⟨text, r⟩, hscalar, heq⟩ := Option.map_eq_some_iff.mp h
    cases heq
    exact suffix_scalar hscalar
termination_by (depth, 2 * s.length)

theorem suffix_items {depth : Nat} {s : List Char} {vs : List Value} {r : Shorter s}
    (h : items depth s = some (vs, r)) : r.1 <:+ s := by
  rw [items.eq_def] at h
  dsimp only at h
  repeat' split at h
  all_goals try cases h
  · exact suffix_behind (suffix_skipTrivia ‹skipTrivia s = some _›)
  · have hitem := suffix_skipTrivia ‹skipTrivia s = some _›
    have hshorter := length_behind hitem
    have hvalue := suffix_value ‹value depth _ = some _›
    have hbracket := suffix_skipTrivia ‹skipTrivia _ = some _›
    exact suffix_behind (hbracket.trans (hvalue.trans hitem))
  · have hitem := suffix_skipTrivia ‹skipTrivia s = some _›
    have hshorter := length_behind hitem
    have hvalue := suffix_value ‹value depth _ = some _›
    have hcomma := suffix_skipTrivia ‹skipTrivia _ = some _›
    have hbehind := hcomma.trans (hvalue.trans hitem)
    have hshorter := length_behind hbehind
    have hitems := suffix_items ‹items depth _ = some _›
    exact hitems.trans (suffix_behind hbehind)
termination_by (depth, 2 * s.length + 1)

theorem suffix_fields {depth : Nat} {entries entries' : Entries} {s : List Char} {r : Shorter s}
    (h : fields depth entries s = some (entries', r)) : r.1 <:+ s := by
  rw [fields.eq_def] at h
  dsimp only at h
  repeat' split at h
  all_goals try cases h
  · exact suffix_behind (suffix_skipTrivia ‹skipTrivia s = some _›)
  · have hfield := suffix_skipTrivia ‹skipTrivia s = some _›
    have hkey := (onLine_key ‹key _ = some _›).suffix
    have hsign := (suffix_equalitySign ‹equalitySign _ = some _›).trans (hkey.trans hfield)
    have hshorter := hsign.length_le
    have hvalue := suffix_value ‹value depth _ = some _›
    have hbrace := suffix_skipTrivia ‹skipTrivia _ = some _›
    exact suffix_behind (hbrace.trans (hvalue.trans hsign))
  · have hfield := suffix_skipTrivia ‹skipTrivia s = some _›
    have hkey := (onLine_key ‹key _ = some _›).suffix
    have hsign := (suffix_equalitySign ‹equalitySign _ = some _›).trans (hkey.trans hfield)
    have hshorter := hsign.length_le
    have hvalue := suffix_value ‹value depth _ = some _›
    have hcomma := suffix_skipTrivia ‹skipTrivia _ = some _›
    have hbehind := hcomma.trans (hvalue.trans hsign)
    have hshorter := length_behind hbehind
    have hfields := suffix_fields ‹fields depth _ _ = some _›
    exact hfields.trans (suffix_behind hbehind)
termination_by (depth, 2 * s.length + 1)

end

/-- No value is written as an array of tables. -/
theorem value_ne_tables {depth : Nat} {s : List Char} {v : Value} {r : Shorter s}
    (h : value depth s = some (v, r)) (ts : List Entries) : v ≠ .tables ts := by
  rw [value.eq_def] at h
  repeat' split at h
  all_goals try cases h
  · exact Value.noConfusion
  · exact Value.noConfusion
  · obtain ⟨_, -, heq⟩ := Option.map_eq_some_iff.mp h
    cases heq
    exact Value.noConfusion
  · obtain ⟨_, -, heq⟩ := Option.map_eq_some_iff.mp h
    cases heq
    exact Value.noConfusion

/-! ## Lines of a document

A line is a header or an assignment, with a line break or the end of the document behind it. So what
begins behind a line has fewer line breaks left than the line has. -/

theorem suffix_closeHeader {double : Bool} {s : List Char} {r : Shorter s}
    (h : closeHeader double s = some r) : r.1 <:+ s := by
  unfold closeHeader at h
  split at h
  · cases h
    exact List.suffix_cons _ _
  · cases h
    exact ⟨[_, _], rfl⟩
  · cases h

theorem suffix_header {double : Bool} {s : List Char} {path : List String} {r : Shorter s}
    (h : header double s = some (path, r)) : r.1 <:+ s := by
  obtain ⟨⟨path, r₂⟩, hkey, h⟩ := Option.bind_eq_some_iff.mp h
  obtain ⟨r₄, hclose, heq⟩ := Option.bind_eq_some_iff.mp h
  cases heq
  have hpath := (onLine_key hkey).suffix.trans (onLine_skipWs s).suffix
  exact (suffix_closeHeader hclose).trans ((onLine_skipWs _).suffix.trans hpath)

/-- A line of a document is a header or an assignment, and its text is cut off the front. -/
theorem suffix_statement {s : List Char} {st : Statement} {r : Shorter s}
    (h : statement s = some (st, r)) : r.1 <:+ s := by
  unfold statement at h
  split at h
  · obtain ⟨⟨path, r⟩, hheader, heq⟩ := Option.bind_eq_some_iff.mp h
    cases heq
    exact (suffix_header hheader).trans ⟨[_, _], rfl⟩
  · obtain ⟨⟨path, r⟩, hheader, heq⟩ := Option.bind_eq_some_iff.mp h
    cases heq
    exact (suffix_header hheader).trans (List.suffix_cons _ _)
  · obtain ⟨⟨path, r₁⟩, hkey, h⟩ := Option.bind_eq_some_iff.mp h
    obtain ⟨r₃, hmark, h⟩ := Option.bind_eq_some_iff.mp h
    obtain ⟨⟨v, r₄⟩, hvalue, heq⟩ := Option.bind_eq_some_iff.mp h
    cases heq
    exact (suffix_value hvalue).trans ((onLine_mark (by decide) hmark).suffix.trans
      ((onLine_skipWs _).suffix.trans (onLine_key hkey).suffix))

/-- The text from the value on, where a line sets a key. -/
def written? (s : List Char) : Option (List Char) := do
  let (_, ⟨r₁, _⟩) ← key s
  let ⟨r₂, _⟩ ← mark '=' (skipWs r₁).1
  return r₂

/-- A key and the first character of its value stand on one line. -/
theorem written?_of_statement {s : List Char} {path : List String} {v : Value} {r : Shorter s}
    (h : statement s = some (.assign path v, r)) :
    ∃ t r', written? s = some t ∧ OnLine s t ∧ value maxDepth t = some (v, r') := by
  unfold statement at h
  split at h
  · obtain ⟨_, -, heq⟩ := Option.bind_eq_some_iff.mp h
    cases heq
  · obtain ⟨_, -, heq⟩ := Option.bind_eq_some_iff.mp h
    cases heq
  · obtain ⟨⟨path, r₁⟩, hkey, h⟩ := Option.bind_eq_some_iff.mp h
    obtain ⟨r₂, hmark, h⟩ := Option.bind_eq_some_iff.mp h
    obtain ⟨⟨v, r₃⟩, hvalue, heq⟩ := Option.bind_eq_some_iff.mp h
    cases heq
    refine ⟨r₂.1, r₃, ?_, ?_, hvalue⟩
    · exact Option.bind_eq_some_iff.mpr
        ⟨_, hkey, Option.bind_eq_some_iff.mpr ⟨_, hmark, rfl⟩⟩
    · exact (onLine_key hkey).trans ((onLine_skipWs _).trans (onLine_mark (by decide) hmark))

/-- A line ends with a line break, or with the text. -/
theorem lineEnd_eq {s : List Char} {r : NoLonger s} (h : lineEnd s = some r) :
    r.1 = [] ∨ ∃ taken, s = taken ++ '\n' :: r.1 := by
  obtain ⟨⟨r₁, hle⟩, hr₁, h⟩ := Option.bind_eq_some_iff.mp h
  have hsuffix : r₁ <:+ s := by
    have hskip : s.dropWhile isWs <:+ s := (onLine_skipWs s).suffix
    split at hr₁
    · next _ hws _ =>
      obtain ⟨⟨r₂, _⟩, hcomment, heq⟩ := Option.map_eq_some_iff.mp hr₁
      cases heq
      rw [hws] at hskip
      exact (onLine_comment hcomment).suffix.trans (suffix_behind hskip)
    · cases hr₁
      exact hskip
  dsimp only at h
  split at h
  · cases h
    exact .inl rfl
  · obtain ⟨r₂, hnewline, heq⟩ := Option.bind_eq_some_iff.mp h
    cases heq
    obtain ⟨taken, hs⟩ := newline_eq hnewline
    obtain ⟨skipped, rfl⟩ := hsuffix
    exact .inr ⟨skipped ++ taken,
      (congrArg (skipped ++ ·) hs).trans (List.append_assoc ..).symm⟩

/-- Behind the end of a line begins the next one. -/
theorem suffix_lineEnd {s : List Char} {r : NoLonger s} (h : lineEnd s = some r) : r.1 <:+ s := by
  obtain hnil | ⟨taken, hs⟩ := lineEnd_eq h
  · rw [hnil]
    exact List.nil_suffix
  · exact suffix_behind ⟨taken, hs.symm⟩

/-- What begins behind a line has fewer line breaks left than the end of the line. -/
theorem count_lineEnd {s : List Char} {r : NoLonger s} (h : lineEnd s = some r) {t : List Char}
    (ht : t <:+ r.1) (hne : t ≠ []) : t.count '\n' < s.count '\n' := by
  obtain hnil | ⟨taken, hs⟩ := lineEnd_eq h
  · rw [hnil, List.suffix_nil] at ht
    exact absurd ht hne
  · have hle := ht.sublist.count_le '\n'
    rw [hs, List.count_append, List.count_cons_self]
    omega

/-! ## Where lines stand

A line is known by the text from where it begins to the end of the document. The fewer line breaks
are left in it, the further down it stands. -/

/-- Read the lines of a text as `statements` does, each with the text from where it begins. -/
def located (s : List Char) : Option (List (Statement × List Char)) :=
  match skipTrivia s with
  | none => none
  | some ⟨[], _⟩ => some []
  | some ⟨c :: r, _⟩ =>
    match statement (c :: r) with
    | none => none
    | some (st, ⟨r', _⟩) =>
      match lineEnd r' with
      | none => none
      | some ⟨rest, _⟩ => (located rest).map ((st, c :: r) :: ·)
termination_by s.length
decreasing_by simp only [List.length_cons] at *; omega

/-- The lines are read as `statements` reads them; only the places are new. -/
theorem map_fst_located (s : List Char) : (located s).map (·.map Prod.fst) = statements s := by
  fun_induction located s with
  | case1 s hskip =>
    rw [statements, hskip]
    rfl
  | case2 s _ hskip =>
    rw [statements, hskip]
    rfl
  | case3 s c r _ hskip hst =>
    rw [statements, hskip]
    simp only [hst, Option.map_none]
  | case4 s c r _ hskip st r' _ hst hend =>
    rw [statements, hskip]
    simp only [hst, hend, Option.map_none]
  | case5 s c r _ hskip st r' _ hst rest _ hend ih =>
    rw [statements, hskip]
    simp only [hst, hend]
    rw [← ih]
    cases located rest <;> rfl

/-- Lines are ends of the text, and stand in it one below the other. -/
theorem located_spec {s : List Char} {ls : List (Statement × List Char)}
    (h : located s = some ls) :
    (∀ l ∈ ls, l.2 <:+ s ∧ l.2 ≠ [] ∧ ∃ r, statement l.2 = some (l.1, r)) ∧
      ls.Pairwise fun l l' => l'.2.count '\n' < l.2.count '\n' := by
  fun_induction located s generalizing ls with
  | case1 => cases h
  | case2 =>
    cases h
    exact ⟨by simp, .nil⟩
  | case3 => cases h
  | case4 => cases h
  | case5 s c r _ hskip st r' _ hst rest _ hend ih =>
    obtain ⟨below, hbelow, rfl⟩ := Option.map_eq_some_iff.mp h
    obtain ⟨hmem, hpairs⟩ := ih hbelow
    have hline : c :: r <:+ s := suffix_skipTrivia hskip
    have hbehind : r' <:+ c :: r := suffix_statement hst
    have hrest : rest <:+ s := (suffix_lineEnd hend).trans (hbehind.trans hline)
    refine ⟨List.forall_mem_cons.mpr ⟨⟨hline, List.cons_ne_nil c r, _, hst⟩, ?_⟩,
      List.pairwise_cons.mpr ⟨?_, hpairs⟩⟩
    · intro l hl
      exact ⟨(hmem l hl).1.trans hrest, (hmem l hl).2⟩
    · intro l hl
      obtain ⟨hsuffix, hne, -⟩ := hmem l hl
      exact Nat.lt_of_lt_of_le (count_lineEnd hend hsuffix hne) (hbehind.sublist.count_le '\n')

end AnalysisHost.Toml
