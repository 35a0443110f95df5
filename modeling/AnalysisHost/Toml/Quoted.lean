import AnalysisHost.Toml.Rest

/-!
# Quoted text

The four ways in which TOML quotes text. In double quotes a backslash introduces an escape; in
single quotes everything stands for itself. Either quote, written three times, encloses text over
several lines: a line break right behind the opening quotes does not count, up to two quotes may
stand before the closing ones, and in double quotes a backslash at the end of a line joins it with
the next text.
-/

namespace AnalysisHost.Toml

/-! ### Escapes -/

def hexValue? (c : Char) : Option Nat :=
  if c.isDigit then some (c.toNat - '0'.toNat)
  else if 'a' ≤ c ∧ c ≤ 'f' then some (c.toNat - 'a'.toNat + 10)
  else if 'A' ≤ c ∧ c ≤ 'F' then some (c.toNat - 'A'.toNat + 10)
  else none

/-- Take so many hexadecimal digits, and continue a number with them. -/
def hexDigits (count number : Nat) (s : List Char) : Option (Nat × NoLonger s) :=
  match count, s with
  | 0, s => some (number, untouched s)
  | _ + 1, [] => none
  | count + 1, c :: cs => do
    let digit ← hexValue? c
    let (number, ⟨r, h⟩) ← hexDigits count (16 * number + digit) cs
    return (number, ⟨r, noLonger_tail h⟩)

/-- The character with a given number, which surrogates do not have. -/
def charOf? (n : Nat) : Option Char := if n.isValidChar then some (Char.ofNat n) else none

/-- Take an escape whose backslash has been taken. -/
def escape (s : List Char) : Parsed Char s :=
  match s with
  | 'b' :: r => some ('\x08', ⟨r, shorter_tail r⟩)
  | 't' :: r => some ('\t', ⟨r, shorter_tail r⟩)
  | 'n' :: r => some ('\n', ⟨r, shorter_tail r⟩)
  | 'f' :: r => some ('\x0c', ⟨r, shorter_tail r⟩)
  | 'r' :: r => some ('\x0d', ⟨r, shorter_tail r⟩)
  | 'e' :: r => some ('\x1b', ⟨r, shorter_tail r⟩)
  | '"' :: r => some ('"', ⟨r, shorter_tail r⟩)
  | '\\' :: r => some ('\\', ⟨r, shorter_tail r⟩)
  | 'x' :: r => numbered 2 'x' r
  | 'u' :: r => numbered 4 'u' r
  | 'U' :: r => numbered 8 'U' r
  | _ => none
where
  /-- Take the digits of an escape by number. -/
  numbered (count : Nat) (mark : Char) (r : List Char) : Parsed Char (mark :: r) := do
    let (number, ⟨r', h⟩) ← hexDigits count 0 r
    let c ← charOf? number
    return (c, ⟨r', by simp only [List.length_cons]; omega⟩)

/-! ### On one line -/

/-- Take text up to the closing double quote. -/
def basicText (s : List Char) : Parsed (List Char) s :=
  match s with
  | [] => none
  | '"' :: r => some ([], ⟨r, shorter_tail r⟩)
  | '\\' :: r => do
    let (c, ⟨r', h⟩) ← escape r
    let (text, ⟨r'', h'⟩) ← basicText r'
    return (c :: text, ⟨r'', by simp only [List.length_cons]; omega⟩)
  | c :: r =>
    if isText c then do
      let (text, ⟨r', h⟩) ← basicText r
      return (c :: text, ⟨r', Nat.lt_succ_of_lt h⟩)
    else none
termination_by s.length
decreasing_by all_goals (simp only [List.length_cons]; omega)

/-- Take text up to the closing single quote. -/
def literalText (s : List Char) : Parsed (List Char) s :=
  match s with
  | [] => none
  | '\'' :: r => some ([], ⟨r, shorter_tail r⟩)
  | c :: r =>
    if isText c then do
      let (text, ⟨r', h⟩) ← literalText r
      return (c :: text, ⟨r', Nat.lt_succ_of_lt h⟩)
    else none

/-! ### On several lines -/

def skipFirstNewline (s : List Char) : NoLonger s :=
  match newline s with
  | some ⟨r, h⟩ => ⟨r, Nat.le_of_lt h⟩
  | none => untouched s

def skipSpace (s : List Char) : NoLonger s :=
  match s with
  | '\x0d' :: '\n' :: r =>
    let ⟨r', h⟩ := skipSpace r
    ⟨r', by simp only [List.length_cons]; omega⟩
  | c :: r =>
    if isWs c || c == '\n' then
      let ⟨r', h⟩ := skipSpace r
      ⟨r', noLonger_tail h⟩
    else untouched (c :: r)
  | [] => untouched []

/-- Take the end of a line behind a backslash, and all space that follows. -/
def lineJoin (s : List Char) : Option (Shorter s) := do
  let ⟨r₁, h₁⟩ := skipWs s
  let ⟨r₂, h₂⟩ ← newline r₁
  let ⟨r₃, h₃⟩ := skipSpace r₂
  return ⟨r₃, shorter_of_skipped h₁ h₂ h₃⟩

/-- Close text of several lines: three quotes, and before them up to two that belong to the text. -/
def closing (quote : Char) (s : List Char) : Parsed (List Char) s :=
  match s with
  | a :: b :: c :: r =>
    if a = quote ∧ b = quote ∧ c = quote then
      match r with
      | d :: e :: r' =>
        if d = quote ∧ e = quote then
          some ([quote, quote], ⟨r', by simp only [List.length_cons]; omega⟩)
        else if d = quote then
          some ([quote], ⟨e :: r', by simp only [List.length_cons]; omega⟩)
        else some ([], ⟨d :: e :: r', by simp only [List.length_cons]; omega⟩)
      | [d] =>
        if d = quote then some ([quote], ⟨[], by simp⟩)
        else some ([], ⟨[d], by simp⟩)
      | [] => some ([], ⟨[], by simp⟩)
    else none
  | _ => none

/-- Take text of several lines up to the closing double quotes. -/
def basicLines (s : List Char) : Parsed (List Char) s :=
  match closing '"' s with
  | some closed => some closed
  | none =>
    match s with
    | [] => none
    | '\\' :: r =>
      match lineJoin r with
      | some ⟨r', h⟩ => do
        let (text, ⟨r'', h'⟩) ← basicLines r'
        return (text, ⟨r'', by simp only [List.length_cons]; omega⟩)
      | none => do
        let (c, ⟨r', h⟩) ← escape r
        let (text, ⟨r'', h'⟩) ← basicLines r'
        return (c :: text, ⟨r'', by simp only [List.length_cons]; omega⟩)
    | '\x0d' :: '\n' :: r => do
      let (text, ⟨r', h⟩) ← basicLines r
      return ('\x0d' :: '\n' :: text, ⟨r', by simp only [List.length_cons]; omega⟩)
    | c :: r =>
      if isText c || c == '\n' then do
        let (text, ⟨r', h⟩) ← basicLines r
        return (c :: text, ⟨r', Nat.lt_succ_of_lt h⟩)
      else none
termination_by s.length
decreasing_by all_goals (simp only [List.length_cons]; omega)

/-- Take text of several lines up to the closing single quotes. -/
def literalLines (s : List Char) : Parsed (List Char) s :=
  match closing '\'' s with
  | some closed => some closed
  | none =>
    match s with
    | [] => none
    | '\x0d' :: '\n' :: r => do
      let (text, ⟨r', h⟩) ← literalLines r
      return ('\x0d' :: '\n' :: text, ⟨r', by simp only [List.length_cons]; omega⟩)
    | c :: r =>
      if isText c || c == '\n' then do
        let (text, ⟨r', h⟩) ← literalLines r
        return (c :: text, ⟨r', Nat.lt_succ_of_lt h⟩)
      else none

/-! ### Any of them -/

/-- Take quoted text on one line. -/
def quotedLine (s : List Char) : Parsed String s :=
  match s with
  | '"' :: r => do
    let (text, ⟨r', h⟩) ← basicText r
    return (String.ofList text, ⟨r', Nat.lt_succ_of_lt h⟩)
  | '\'' :: r => do
    let (text, ⟨r', h⟩) ← literalText r
    return (String.ofList text, ⟨r', Nat.lt_succ_of_lt h⟩)
  | _ => none

/-- Whether a text begins with three quotes of a kind. -/
def opensLines (s : List Char) : Bool :=
  ['"', '"', '"'].isPrefixOf s || ['\'', '\'', '\''].isPrefixOf s

/-- Take quoted text, on one line or on several. -/
def quoted (s : List Char) : Parsed String s :=
  match s with
  | '"' :: '"' :: '"' :: r => do
    let ⟨r', h⟩ := skipFirstNewline r
    let (text, ⟨r'', h'⟩) ← basicLines r'
    return (String.ofList text, ⟨r'', by simp only [List.length_cons]; omega⟩)
  | '\'' :: '\'' :: '\'' :: r => do
    let ⟨r', h⟩ := skipFirstNewline r
    let (text, ⟨r'', h'⟩) ← literalLines r'
    return (String.ofList text, ⟨r'', by simp only [List.length_cons]; omega⟩)
  | s => quotedLine s

end AnalysisHost.Toml
