/-!
# JSON documents

The documents that the host writes: numbers are natural, and the fields of an object keep the order
in which they are given. `Json.render` lays a document out over several lines, two spaces a level;
an empty list or object stays on one line. Inside quotes, only what must be escaped is: the quote,
the backslash and the control characters below U+0020.
-/

namespace AnalysisHost

/-- A JSON document. -/
inductive Json where
  | number (n : Nat)
  | string (s : String)
  | array (items : List Json)
  | object (fields : List (String × Json))

namespace Json

/-! ### Quoting -/

/-- The hexadecimal digit, in lower case, for a number below sixteen. -/
def hexDigit (n : Nat) : Char :=
  if n < 10 then Char.ofNat ('0'.toNat + n) else Char.ofNat ('a'.toNat + (n - 10))

/-- How a character is written inside quotes. -/
def escape (c : Char) : List Char :=
  match c with
  | '"' => ['\\', '"']
  | '\\' => ['\\', '\\']
  | '\x08' => ['\\', 'b']
  | '\x0c' => ['\\', 'f']
  | '\n' => ['\\', 'n']
  | '\x0d' => ['\\', 'r']
  | '\t' => ['\\', 't']
  | c =>
    if c.toNat < 0x20 then ['\\', 'u', '0', '0', hexDigit (c.toNat / 16), hexDigit (c.toNat % 16)]
    else [c]

def quote (s : String) : String := String.ofList ('"' :: s.toList.flatMap escape ++ ['"'])

/-! ### Layout -/

def newline (level : Nat) : String := "\n" ++ String.ofList (List.replicate (2 * level) ' ')

mutual

/-- Lay out a document whose first line is already indented to a level. -/
def renderAt (level : Nat) : Json → String
  | number n => toString n
  | string s => quote s
  | array [] => "[]"
  | array (item :: items) =>
    "[" ++ newline (level + 1) ++ renderAt (level + 1) item ++ renderItems (level + 1) items ++
      newline level ++ "]"
  | object [] => "\x7b\x7d"
  | object ((name, value) :: fields) =>
    "\x7b" ++ newline (level + 1) ++ quote name ++ ": " ++ renderAt (level + 1) value ++
      renderFields (level + 1) fields ++ newline level ++ "\x7d"

def renderItems (level : Nat) : List Json → String
  | [] => ""
  | item :: items => "," ++ newline level ++ renderAt level item ++ renderItems level items

def renderFields (level : Nat) : List (String × Json) → String
  | [] => ""
  | (name, value) :: fields =>
    "," ++ newline level ++ quote name ++ ": " ++ renderAt level value ++ renderFields level fields

end

/-- A document over several lines, without a line break at the end. -/
def render (document : Json) : String := renderAt 0 document

/-- An object some of whose fields may be left out. -/
def objectOf (fields : List (String × Option Json)) : Json :=
  object (fields.filterMap fun f => f.2.map fun value => (f.1, value))

end Json

end AnalysisHost
