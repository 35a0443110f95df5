import AnalysisHost.Json
import Mathlib.Data.List.Basic

/-!
# What a printed document says

A document is laid out over several lines, and nothing of it is lost: `Json.render_injective` says
that no two documents are printed alike. The proof follows the layout. A character in quotes can be
read back (`unescape?_escape`), so where quoted text ends is plain to see, and a value is told from
the others by its first character (`StartsAs`). What stands behind a value must not begin with a
digit, for otherwise a number would go on.
-/

namespace AnalysisHost.Json

/-! ## Characters in quotes

Escapes are undone by `unescape?`, which takes one character, in whatever way it is written, from
the front of a text. -/

def hexValue (c : Char) : Nat :=
  if c.isDigit then c.toNat - '0'.toNat else c.toNat - 'a'.toNat + 10

/-- The character that a single letter behind a backslash stands for. -/
def plain : Char → Char
  | 'b' => '\x08'
  | 'f' => '\x0c'
  | 'n' => '\n'
  | 'r' => '\x0d'
  | 't' => '\t'
  | c => c

/-- Read one character of quoted text. -/
def unescape? : List Char → Option (Char × List Char)
  | '\\' :: 'u' :: _ :: _ :: high :: low :: r =>
    some (Char.ofNat (16 * hexValue high + hexValue low), r)
  | '\\' :: c :: r => some (plain c, r)
  | c :: r => some (c, r)
  | [] => none

theorem hexValue_hexDigit : ∀ n < 16, hexValue (hexDigit n) = n := by decide

/-- A character that stands for itself is no backslash. -/
theorem unescape?_cons {c : Char} (h : c ≠ '\\') (r : List Char) :
    unescape? (c :: r) = some (c, r) := by
  unfold unescape?
  split <;> simp_all

/-- An escaped character can be read back, and what stands behind it is left. -/
theorem unescape?_escape (c : Char) (r : List Char) :
    unescape? (escape c ++ r) = some (c, r) := by
  unfold escape
  split
  case h_8 hquote hbackslash _ _ _ _ _ =>
    split
    · next hcontrol =>
      have hhigh := hexValue_hexDigit (c.toNat / 16) (by omega)
      have hlow := hexValue_hexDigit (c.toNat % 16) (by omega)
      show some (Char.ofNat (16 * hexValue (hexDigit (c.toNat / 16)) +
        hexValue (hexDigit (c.toNat % 16))), r) = _
      rw [hhigh, hlow, Nat.div_add_mod, Char.ofNat_toNat]
    · exact unescape?_cons hbackslash r
  all_goals rfl

/-- No character is written with a quote in front. -/
theorem exists_escape_eq (c : Char) : ∃ first r, escape c = first :: r ∧ first ≠ '"' := by
  unfold escape
  split
  case h_8 hquote _ _ _ _ _ _ =>
    split
    · exact ⟨_, _, rfl, by decide⟩
    · exact ⟨c, [], rfl, hquote⟩
  all_goals exact ⟨_, _, rfl, by decide⟩

/-- Where text in quotes ends is plain to see: a quote in it is escaped, and the first that is not
ends it. -/
theorem quoted_injective {cs ds r t : List Char}
    (h : cs.flatMap escape ++ '"' :: r = ds.flatMap escape ++ '"' :: t) : cs = ds ∧ r = t := by
  induction cs generalizing ds with
  | nil =>
    cases ds with
    | nil =>
      cases h
      exact ⟨rfl, rfl⟩
    | cons d ds =>
      obtain ⟨first, more, hfirst, hne⟩ := exists_escape_eq d
      rw [List.flatMap_cons, hfirst] at h
      cases h
      exact absurd rfl hne
  | cons c cs ih =>
    cases ds with
    | nil =>
      obtain ⟨first, more, hfirst, hne⟩ := exists_escape_eq c
      rw [List.flatMap_cons, hfirst] at h
      cases h
      exact absurd rfl hne
    | cons d ds =>
      have hread := congrArg unescape? h
      rw [List.flatMap_cons, List.flatMap_cons, List.append_assoc, List.append_assoc,
        unescape?_escape, unescape?_escape, Option.some.injEq, Prod.mk.injEq] at hread
      obtain ⟨rfl, hrest⟩ := hread
      obtain ⟨rfl, hbehind⟩ := ih hrest
      exact ⟨rfl, hbehind⟩

theorem toList_quote (s : String) :
    (quote s).toList = '"' :: (s.toList.flatMap escape ++ ['"']) := by
  rw [quote, String.toList_ofList, List.cons_append]

/-- A quoted text tells what was quoted and what stands behind it. -/
theorem quote_append_injective {s t : String} {x y : List Char}
    (h : (quote s).toList ++ x = (quote t).toList ++ y) : s = t ∧ x = y := by
  rw [toList_quote, toList_quote, List.cons_append, List.cons_append, List.append_assoc,
    List.append_assoc, List.cons.injEq] at h
  obtain ⟨htext, hbehind⟩ := quoted_injective h.2
  exact ⟨String.toList_inj.mp htext, hbehind⟩

/-! ## Numbers

A number has no end of its own: it ends where no digit follows. -/

/-- A text does not go on a number. -/
def NoDigitHead (x : List Char) : Prop := ∀ c r, x = c :: r → c.isDigit = false

theorem noDigitHead_nil : NoDigitHead [] := fun _ _ h => by cases h

/-- A text that begins with another character does not go on a number. -/
theorem noDigitHead_cons {c : Char} (h : c.isDigit = false) (r : List Char) :
    NoDigitHead (c :: r) := by
  rintro _ _ ⟨⟩
  exact h

theorem toList_toString (n : Nat) : (toString n).toList = Nat.toDigits 10 n := by
  rw [Nat.toString_eq_repr, Nat.toList_repr]

theorem isDigit_of_mem_toString {n : Nat} {c : Char} (h : c ∈ (toString n).toList) :
    c.isDigit = true := by
  rw [toList_toString] at h
  exact Nat.isDigit_of_mem_toDigits (by decide) (by decide) h

/-- The digits at the front of a number and what does not go on with digits are those of the number.
-/
theorem takeWhile_toString (n : Nat) {x : List Char} (hx : NoDigitHead x) :
    ((toString n).toList ++ x).takeWhile Char.isDigit = (toString n).toList := by
  rw [List.takeWhile_append_of_pos fun c hc => isDigit_of_mem_toString hc]
  cases x with
  | nil => exact List.append_nil _
  | cons c r =>
    rw [List.takeWhile_cons_of_neg (Bool.eq_false_iff.mp (hx c r rfl)), List.append_nil]

/-- A number tells which it is as long as no digit stands behind it. -/
theorem number_append_injective {m n : Nat} {x y : List Char} (hx : NoDigitHead x)
    (hy : NoDigitHead y) (h : (toString m).toList ++ x = (toString n).toList ++ y) :
    m = n ∧ x = y := by
  have hdigits := congrArg (List.takeWhile Char.isDigit) h
  rw [takeWhile_toString m hx, takeWhile_toString n hy] at hdigits
  rw [hdigits] at h
  refine ⟨?_, List.append_cancel_left h⟩
  rw [toList_toString, toList_toString] at hdigits
  have hvalue := congrArg (Nat.ofDigitChars 10 · 0) hdigits
  rwa [Nat.ofDigitChars_ten_toDigits, Nat.ofDigitChars_ten_toDigits] at hvalue

/-! ## Documents

`Legible` says of a document that it can be told from any other by its print, at every level and
whatever stands behind. It is shown along the structure of documents. -/

section Layout

variable (level : Nat)

theorem toList_renderAt_array_nil : (renderAt level (array [])).toList = ['[', ']'] := by
  simp [renderAt]

theorem toList_renderAt_object_nil :
    (renderAt level (object [])).toList = ['\x7b', '\x7d'] := by
  simp [renderAt]

/-- A list that is not empty opens its bracket, and gives every item a line of its own. -/
theorem toList_renderAt_array (item : Json) (items : List Json) :
    (renderAt level (array (item :: items))).toList =
      '[' :: ((newline (level + 1)).toList ++ ((renderAt (level + 1) item).toList ++
        ((renderItems (level + 1) items).toList ++ ((newline level).toList ++ [']'])))) := by
  simp [renderAt]

/-- An object is laid out in the same way, with the name in front of each value. -/
theorem toList_renderAt_object (name : String) (value : Json) (fields : List (String × Json)) :
    (renderAt level (object ((name, value) :: fields))).toList =
      '\x7b' :: ((newline (level + 1)).toList ++ ((quote name).toList ++ (':' :: ' ' ::
        ((renderAt (level + 1) value).toList ++ ((renderFields (level + 1) fields).toList ++
          ((newline level).toList ++ ['\x7d'])))))) := by
  simp [renderAt]

theorem toList_renderItems_cons (item : Json) (items : List Json) :
    (renderItems level (item :: items)).toList =
      ',' :: ((newline level).toList ++ ((renderAt level item).toList ++
        (renderItems level items).toList)) := by
  simp [renderItems]

theorem toList_renderFields_cons (name : String) (value : Json) (fields : List (String × Json)) :
    (renderFields level ((name, value) :: fields)).toList =
      ',' :: ((newline level).toList ++ ((quote name).toList ++ (':' :: ' ' ::
        ((renderAt level value).toList ++ (renderFields level fields).toList)))) := by
  simp [renderFields]

theorem exists_newline_eq : ∃ r, (newline level).toList = '\n' :: r := by
  simp [newline]

end Layout

/-- How the text of a value begins. -/
def StartsAs : Json → Char → Prop
  | number _, c => c.isDigit = true
  | string _, c => c = '"'
  | array _, c => c = '['
  | object _, c => c = '\x7b'

/-- A value is printed with at least one character, which tells its kind. -/
theorem exists_renderAt_eq (level : Nat) (j : Json) :
    ∃ c r, (renderAt level j).toList = c :: r ∧ StartsAs j c := by
  cases j with
  | number n =>
    cases hdigits : (toString n).toList with
    | nil =>
      rw [toList_toString] at hdigits
      exact absurd hdigits Nat.toDigits_ne_nil
    | cons c r =>
      refine ⟨c, r, by rw [renderAt, hdigits], ?_⟩
      exact isDigit_of_mem_toString (hdigits ▸ List.mem_cons_self)
  | string s => exact ⟨'"', _, by rw [renderAt, toList_quote], rfl⟩
  | array items =>
    cases items with
    | nil => exact ⟨'[', _, toList_renderAt_array_nil level, rfl⟩
    | cons item items => exact ⟨'[', _, toList_renderAt_array level item items, rfl⟩
  | object fields =>
    cases fields with
    | nil => exact ⟨'\x7b', _, toList_renderAt_object_nil level, rfl⟩
    | cons field fields => exact ⟨'\x7b', _, toList_renderAt_object level _ _ fields, rfl⟩

/-- Two values are of one kind. -/
inductive SameKind : Json → Json → Prop
  | number (m n : Nat) : SameKind (number m) (number n)
  | string (s t : String) : SameKind (string s) (string t)
  | array (is js : List Json) : SameKind (array is) (array js)
  | object (fs gs : List (String × Json)) : SameKind (object fs) (object gs)

/-- Two values that begin with one character are of the same kind. -/
theorem sameKind_of_startsAs {a b : Json} {c : Char} (ha : StartsAs a c) (hb : StartsAs b c) :
    SameKind a b := by
  cases a <;> cases b <;> simp only [StartsAs] at ha hb <;> subst_vars <;>
    first | constructor | contradiction

/-- Values that begin alike are of one kind. -/
theorem sameKind_of_append {a b : Json} {level : Nat} {x y : List Char}
    (h : (renderAt level a).toList ++ x = (renderAt level b).toList ++ y) : SameKind a b := by
  obtain ⟨c, r, hc, ha⟩ := exists_renderAt_eq level a
  obtain ⟨d, s, hd, hb⟩ := exists_renderAt_eq level b
  rw [hc, hd, List.cons_append, List.cons_append, List.cons.injEq] at h
  rw [← h.1] at hb
  exact sameKind_of_startsAs ha hb

/-- What stands behind an item or a field is a comma or a line break, and goes on no number. -/
theorem noDigitHead_items (level level' : Nat) (items : List Json) (x : List Char) :
    NoDigitHead ((renderItems level items).toList ++ ((newline level').toList ++ x)) := by
  cases items with
  | nil =>
    obtain ⟨r, hr⟩ := exists_newline_eq level'
    rw [renderItems, hr]
    exact noDigitHead_cons (by decide) _
  | cons item items =>
    rw [toList_renderItems_cons]
    exact noDigitHead_cons (by decide) _

/-- Behind the value of a field stands a comma or a line break, as behind an item. -/
theorem noDigitHead_fields (level level' : Nat) (fields : List (String × Json)) (x : List Char) :
    NoDigitHead ((renderFields level fields).toList ++ ((newline level').toList ++ x)) := by
  cases fields with
  | nil =>
    obtain ⟨r, hr⟩ := exists_newline_eq level'
    rw [renderFields, hr]
    exact noDigitHead_cons (by decide) _
  | cons field fields =>
    obtain ⟨name, value⟩ := field
    rw [toList_renderFields_cons]
    exact noDigitHead_cons (by decide) _

/-- From where the text of a value begins, the value and what stands behind it can be told. -/
def Legible (a : Json) : Prop :=
  ∀ (b : Json) (level : Nat) (x y : List Char), NoDigitHead x → NoDigitHead y →
    (renderAt level a).toList ++ x = (renderAt level b).toList ++ y → a = b ∧ x = y

/-- Items that can be told apart one by one can be told apart in a row, and the line break behind
the last of them ends it. -/
theorem items_append_injective {as bs : List Json} (has : ∀ a ∈ as, Legible a)
    {level level' : Nat} {x y : List Char}
    (h : (renderItems level as).toList ++ ((newline level').toList ++ x) =
      (renderItems level bs).toList ++ ((newline level').toList ++ y)) : as = bs ∧ x = y := by
  obtain ⟨r, hr⟩ := exists_newline_eq level'
  induction as generalizing bs with
  | nil =>
    cases bs with
    | nil => exact ⟨rfl, List.append_cancel_left (List.append_cancel_left h)⟩
    | cons b bs =>
      rw [toList_renderItems_cons, renderItems, hr] at h
      simp at h
  | cons a as ih =>
    cases bs with
    | nil =>
      rw [toList_renderItems_cons, renderItems, hr] at h
      simp at h
    | cons b bs =>
      obtain ⟨ha, has⟩ := List.forall_mem_cons.mp has
      rw [toList_renderItems_cons, toList_renderItems_cons] at h
      simp only [List.cons_append, List.append_assoc, List.cons.injEq, true_and] at h
      obtain ⟨rfl, hitems⟩ := ha b level _ _ (noDigitHead_items _ _ _ _)
        (noDigitHead_items _ _ _ _) (List.append_cancel_left h)
      obtain ⟨rfl, hbehind⟩ := ih has hitems
      exact ⟨rfl, hbehind⟩

/-- Fields are told apart by their names first, and then by their values. -/
theorem fields_append_injective {fs gs : List (String × Json)} (hfs : ∀ f ∈ fs, Legible f.2)
    {level level' : Nat} {x y : List Char}
    (h : (renderFields level fs).toList ++ ((newline level').toList ++ x) =
      (renderFields level gs).toList ++ ((newline level').toList ++ y)) : fs = gs ∧ x = y := by
  obtain ⟨r, hr⟩ := exists_newline_eq level'
  induction fs generalizing gs with
  | nil =>
    cases gs with
    | nil => exact ⟨rfl, List.append_cancel_left (List.append_cancel_left h)⟩
    | cons g gs =>
      rw [toList_renderFields_cons, renderFields, hr] at h
      simp at h
  | cons f fs ih =>
    cases gs with
    | nil =>
      rw [toList_renderFields_cons, renderFields, hr] at h
      simp at h
    | cons g gs =>
      obtain ⟨hf, hfs⟩ := List.forall_mem_cons.mp hfs
      rw [toList_renderFields_cons, toList_renderFields_cons] at h
      simp only [List.cons_append, List.append_assoc, List.cons.injEq, true_and] at h
      obtain ⟨hname, hvalue⟩ := quote_append_injective (List.append_cancel_left h)
      simp only [List.cons.injEq, true_and] at hvalue
      obtain ⟨hv, hfields⟩ := hf g.2 level _ _ (noDigitHead_fields _ _ _ _)
        (noDigitHead_fields _ _ _ _) hvalue
      obtain ⟨rfl, hbehind⟩ := ih hfs hfields
      obtain rfl : f = g := Prod.ext hname hv
      exact ⟨rfl, hbehind⟩

/-- An item behind an opening bracket is laid out as behind a comma. -/
theorem toList_renderAt_array_eq (level : Nat) (item : Json) (items : List Json) (x : List Char) :
    ',' :: ((renderAt level (array (item :: items))).toList ++ x).tail =
      (renderItems (level + 1) (item :: items)).toList ++ ((newline level).toList ++ ']' :: x) := by
  rw [toList_renderAt_array, toList_renderItems_cons]
  simp

/-- The same for the fields of an object. -/
theorem toList_renderAt_object_eq (level : Nat) (field : String × Json)
    (fields : List (String × Json)) (x : List Char) :
    ',' :: ((renderAt level (object (field :: fields))).toList ++ x).tail =
      (renderFields (level + 1) (field :: fields)).toList ++
        ((newline level).toList ++ '\x7d' :: x) := by
  rw [toList_renderAt_object, toList_renderFields_cons]
  simp

/-- A list can be read if its items can. -/
theorem legible_array {as : List Json} (has : ∀ a ∈ as, Legible a) : Legible (array as) := by
  intro b level x y hx hy h
  obtain ⟨r, hr⟩ := exists_newline_eq (level + 1)
  cases sameKind_of_append h with
  | array _ bs =>
    cases as with
    | nil =>
      cases bs with
      | nil => exact ⟨rfl, List.append_cancel_left h⟩
      | cons b bs =>
        rw [toList_renderAt_array_nil, toList_renderAt_array, hr] at h
        simp at h
    | cons a as =>
      cases bs with
      | nil =>
        rw [toList_renderAt_array_nil, toList_renderAt_array, hr] at h
        simp at h
      | cons b bs =>
        have hitems := congrArg (',' :: ·.tail) h
        rw [toList_renderAt_array_eq, toList_renderAt_array_eq] at hitems
        obtain ⟨heq, hbehind⟩ := items_append_injective has hitems
        exact ⟨congrArg array heq, (List.cons.inj hbehind).2⟩

/-- An object can be read if the values of its fields can. -/
theorem legible_object {fs : List (String × Json)} (hfs : ∀ f ∈ fs, Legible f.2) :
    Legible (object fs) := by
  intro b level x y hx hy h
  obtain ⟨r, hr⟩ := exists_newline_eq (level + 1)
  cases sameKind_of_append h with
  | object _ gs =>
    cases fs with
    | nil =>
      cases gs with
      | nil => exact ⟨rfl, List.append_cancel_left h⟩
      | cons g gs =>
        rw [toList_renderAt_object_nil, toList_renderAt_object, hr] at h
        simp at h
    | cons f fs =>
      cases gs with
      | nil =>
        rw [toList_renderAt_object_nil, toList_renderAt_object, hr] at h
        simp at h
      | cons g gs =>
        have hfields := congrArg (',' :: ·.tail) h
        rw [toList_renderAt_object_eq, toList_renderAt_object_eq] at hfields
        obtain ⟨heq, hbehind⟩ := fields_append_injective hfs hfields
        exact ⟨congrArg object heq, (List.cons.inj hbehind).2⟩

theorem sizeOf_value_lt {fs : List (String × Json)} {f : String × Json} (h : f ∈ fs) :
    sizeOf f.2 < sizeOf (object fs) := by
  have hfield := List.sizeOf_lt_of_mem h
  obtain ⟨name, value⟩ := f
  simp only [Prod.mk.sizeOf_spec, object.sizeOf_spec] at hfield ⊢
  omega

/-- Every document can be read. The recursion is the one of documents, whose parts are smaller. -/
theorem legible : ∀ a : Json, Legible a
  | number m => by
    intro b level x y hx hy h
    cases sameKind_of_append h with
    | number _ n =>
      rw [renderAt, renderAt] at h
      obtain ⟨rfl, hbehind⟩ := number_append_injective hx hy h
      exact ⟨rfl, hbehind⟩
  | string s => by
    intro b level x y hx hy h
    cases sameKind_of_append h with
    | string _ t =>
      rw [renderAt, renderAt] at h
      obtain ⟨rfl, hbehind⟩ := quote_append_injective h
      exact ⟨rfl, hbehind⟩
  | array as => legible_array fun a _ => legible a
  | object fs => legible_object fun f _ => legible f.2
termination_by a => sizeOf a
decreasing_by
  · decreasing_tactic
  · exact sizeOf_value_lt ‹_›

/-- **No two documents are printed alike.** -/
theorem render_injective : Function.Injective render := by
  intro a b h
  have htext : (renderAt 0 a).toList ++ [] = (renderAt 0 b).toList ++ [] :=
    congrArg (·.toList ++ []) h
  exact (legible a b 0 [] [] noDigitHead_nil noDigitHead_nil htext).1

end AnalysisHost.Json
