import AnalysisHost.Toml.Quoted
import AnalysisHost.Toml.Scalar
import AnalysisHost.Toml.Value

/-!
# TOML documents

A document is a sequence of lines. A line sets a key, begins a table, begins a new table of an array
of tables, or is empty. Reading has two steps: `statements` reads the lines, and `build` grows the
tree of tables from them.

Between braces, as between brackets, lines may be broken wherever blanks may stand, only not inside
a dotted key.

Lists and tables in braces may be nested, but only to `maxDepth`. The depth that is left is also
what makes reading come to an end: it goes down at every bracket, and between brackets the text gets
shorter.
-/

namespace AnalysisHost.Toml

/-- How deeply brackets and braces may be nested, and how many keys dots may join. -/
def maxDepth : Nat := 80

/-! ### Keys -/

/-- Whether a key without quotes may hold a character. -/
def isBareKeyChar (c : Char) : Bool := c.isAlphanum || c == '_' || c == '-'

def simpleKey (s : List Char) : Parsed String s :=
  match s with
  | [] => none
  | c :: cs =>
    if isBareKeyChar c then
      some (String.ofList (c :: cs.takeWhile isBareKeyChar),
        ⟨cs.dropWhile isBareKeyChar, Nat.lt_succ_of_le (length_dropWhile_le _ cs)⟩)
    else if opensLines (c :: cs) then none
    else quotedLine (c :: cs)

/-- Take a character and blanks behind it. -/
def mark (c : Char) (s : List Char) : Option (Shorter s) :=
  match s with
  | [] => none
  | d :: r =>
    if c = d then
      let ⟨r', h⟩ := skipWs r
      some ⟨r', Nat.lt_succ_of_le h⟩
    else none

/-- Take a dot and the blanks around it. -/
def dot (s : List Char) : Option (Shorter s) :=
  let ⟨r, h⟩ := skipWs s
  (mark '.' r).map fun ⟨r', h'⟩ => ⟨r', Nat.lt_of_lt_of_le h' h⟩

/-- Take keys with dots between them, however many. -/
def dottedKey (s : List Char) : Parsed (List String) s :=
  match simpleKey s with
  | none => none
  | some (first, ⟨r, h⟩) =>
    match dot r with
    | none => some ([first], ⟨r, h⟩)
    | some ⟨next, hn⟩ =>
      match dottedKey next with
      | none => none
      | some (path, ⟨last, hl⟩) =>
        some (first :: path, ⟨last, Nat.lt_trans hl (Nat.lt_trans hn h)⟩)
termination_by s.length
decreasing_by exact Nat.lt_trans hn h

/-- Take keys with dots between them. Every dot leads into a table, so there are no more keys than
tables may be nested. -/
def key (s : List Char) : Parsed (List String) s :=
  (dottedKey s).filter fun (path, _) => path.length ≤ maxDepth

/-- Take an equality sign between braces, and the blanks, line breaks and comments around it. -/
def equalitySign (s : List Char) : Option (Shorter s) :=
  match skipTrivia s with
  | none => none
  | some ⟨r₁, h₁⟩ =>
    match mark '=' r₁ with
    | none => none
    | some ⟨r₂, h₂⟩ =>
      match skipTrivia r₂ with
      | none => none
      | some ⟨r₃, h₃⟩ => some ⟨r₃, shorter_of_skipped h₁ h₂ h₃⟩

/-! ### Values -/

mutual

def value (depth : Nat) (s : List Char) : Parsed Value s :=
  match s with
  | [] => none
  | c :: r =>
    if c = '[' then
      match depth with
      | 0 => none
      | depth + 1 =>
        match items depth r with
        | none => none
        | some (vs, ⟨r', h⟩) => some (.array vs, ⟨r', Nat.lt_succ_of_lt h⟩)
    else if c = '\x7b' then
      match depth with
      | 0 => none
      | depth + 1 =>
        match fields depth [] r with
        | none => none
        | some (entries, ⟨r', h⟩) => some (.table .inline entries, ⟨r', Nat.lt_succ_of_lt h⟩)
    else if c = '"' ∨ c = '\'' then
      (quoted (c :: r)).map fun (text, rest) => (.string text, rest)
    else (scalar (c :: r)).map fun (text, rest) => (.scalar text, rest)
termination_by (depth, 2 * s.length)

/-- Take the items of a list up to its closing bracket. -/
def items (depth : Nat) (s : List Char) : Parsed (List Value) s :=
  match skipTrivia s with
  | none => none
  | some ⟨[], _⟩ => none
  | some ⟨c :: r, h⟩ =>
    have hr : r.length + 1 ≤ s.length := h
    if c = ']' then some ([], ⟨r, hr⟩)
    else
      match value depth (c :: r) with
      | none => none
      | some (v, ⟨r₁, h₁⟩) =>
        match skipTrivia r₁ with
        | none => none
        | some ⟨[], _⟩ => none
        | some ⟨d :: r₂, h₂⟩ =>
          have h₃ : r₂.length < s.length := by simp only [List.length_cons] at *; omega
          if d = ']' then some ([v], ⟨r₂, h₃⟩)
          else if d = ',' then
            match items depth r₂ with
            | none => none
            | some (vs, ⟨r₃, h₄⟩) => some (v :: vs, ⟨r₃, by omega⟩)
          else none
termination_by (depth, 2 * s.length + 1)

/-- Take the fields of a table up to its closing brace, and add them to the ones before. -/
def fields (depth : Nat) (entries : Entries) (s : List Char) : Parsed Entries s :=
  match skipTrivia s with
  | none => none
  | some ⟨[], _⟩ => none
  | some ⟨c :: r, h⟩ =>
    if c = '\x7d' then some (entries, ⟨r, by simp only [List.length_cons] at h; omega⟩)
    else
      match key (c :: r) with
      | none => none
      | some (path, ⟨r₁, h₁⟩) =>
        match equalitySign r₁ with
        | none => none
        | some ⟨r₂, h₂⟩ =>
          match value depth r₂ with
          | none => none
          | some (v, ⟨r₃, h₃⟩) =>
            match Entries.assign v path entries, skipTrivia r₃ with
            | none, _ => none
            | _, none => none
            | _, some ⟨[], _⟩ => none
            | some entries, some ⟨d :: r₄, h₄⟩ =>
              have h₅ : r₄.length < s.length := by simp only [List.length_cons] at *; omega
              if d = '\x7d' then some (entries, ⟨r₄, h₅⟩)
              else if d = ',' then
                match fields depth entries r₄ with
                | none => none
                | some (entries, ⟨r₅, h₆⟩) => some (entries, ⟨r₅, by omega⟩)
              else none
termination_by (depth, 2 * s.length + 1)

end

/-! ### Lines -/

/-- What a line says. -/
inductive Statement where
  /-- Set a key of the current table. -/
  | assign (path : List String) (value : Value)
  /-- Begin a table. -/
  | openTable (path : List String)
  /-- Begin a new table of an array of tables. -/
  | appendTable (path : List String)

/-- Take closing brackets, one or two of them. -/
def closeHeader (double : Bool) (s : List Char) : Option (Shorter s) :=
  match s, double with
  | ']' :: r, false => some ⟨r, shorter_tail r⟩
  | ']' :: ']' :: r, true => some ⟨r, shorter_tail_tail r⟩
  | _, _ => none

/-- Take a header whose opening brackets have been taken. -/
def header (double : Bool) (s : List Char) : Parsed (List String) s := do
  let ⟨r₁, _⟩ := skipWs s
  let (path, ⟨r₂, _⟩) ← key r₁
  let ⟨r₃, _⟩ := skipWs r₂
  let ⟨r₄, _⟩ ← closeHeader double r₃
  return (path, ⟨r₄, by omega⟩)

/-- Take what a line says, from its first character that is no blank. -/
def statement (s : List Char) : Parsed Statement s :=
  match s with
  | '[' :: '[' :: r => do
    let (path, ⟨r', h⟩) ← header true r
    return (.appendTable path, ⟨r', by simp only [List.length_cons]; omega⟩)
  | '[' :: r => do
    let (path, ⟨r', h⟩) ← header false r
    return (.openTable path, ⟨r', by simp only [List.length_cons]; omega⟩)
  | s => do
    let (path, ⟨r₁, _⟩) ← key s
    let ⟨r₂, _⟩ := skipWs r₁
    let ⟨r₃, _⟩ ← mark '=' r₂
    let (v, ⟨r₄, _⟩) ← value maxDepth r₃
    return (.assign path v, ⟨r₄, by omega⟩)

def statements (s : List Char) : Option (List Statement) :=
  match skipTrivia s with
  | none => none
  | some ⟨[], _⟩ => some []
  | some ⟨c :: r, _⟩ =>
    match statement (c :: r) with
    | none => none
    | some (st, ⟨r', _⟩) =>
      match lineEnd r' with
      | none => none
      | some ⟨rest, _⟩ => (statements rest).map (st :: ·)
termination_by s.length
decreasing_by simp only [List.length_cons] at *; omega

/-! ### The tree -/

/-- The last key of a path, and the ones before it. -/
def splitPath (path : List String) : Option (List String × String) :=
  path.getLast?.map fun key => (path.dropLast, key)

/-- Grow a document by statements; `current` is the header of the table that keys belong to. -/
def build (entries : Entries) (current : List String) : List Statement → Option Entries
  | [] => some entries
  | .assign path v :: rest => do
    build (← Entries.descend (Entries.assign v path) current entries) current rest
  | .openTable path :: rest => do
    let (before, key) ← splitPath path
    build (← Entries.openTable before key entries) path rest
  | .appendTable path :: rest => do
    let (before, key) ← splitPath path
    build (← Entries.appendTable before key entries) path rest

/-- Read a document. A byte order mark in front of it does not count. -/
def parse (text : String) : Option Entries := do
  let s := match text.toList with
    | '\uFEFF' :: s => s
    | s => s
  build [] [] (← statements s)

end AnalysisHost.Toml
