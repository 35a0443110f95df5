import AnalysisHost.Text.Split
import AnalysisHost.Toml.Rest

/-!
# Numbers, booleans, dates and times

A scalar is what stands without quotes up to the punctuation behind it, less the blanks at its end.
Scalars are only recognised here, one predicate for each form of them, for nothing is done with
their values. So a number is looked at no further than it takes to tell that it is one: the digits
behind the prefix of a base may be missing, and a decimal integer that has come to an underscore may
go on with other characters.
-/

namespace AnalysisHost.Toml

namespace Scalar

/-! ### Numbers -/

def unsigned : List Char → List Char
  | '+' :: cs => cs
  | '-' :: cs => cs
  | cs => cs

def isHexDigit (c : Char) : Bool :=
  c.isDigit || ('a' ≤ c && c ≤ 'f') || ('A' ≤ c && c ≤ 'F')

def isExponentMark (c : Char) : Bool := c == 'e' || c == 'E'

/-- Whether each underscore has a digit behind it and a digit in front of it. What stands in front
of the text counts as a digit if `afterDigit` holds. -/
def underscoresFit (isDigit : Char → Bool) (afterDigit : Bool) : List Char → Bool
  | [] => true
  | c :: cs =>
    if c = '_' then afterDigit && cs.head?.any isDigit && underscoresFit isDigit false cs
    else underscoresFit isDigit (isDigit c) cs

/-- Whether underscores only stand between digits. -/
def isGrouped (isDigit : Char → Bool) (s : List Char) : Bool := underscoresFit isDigit false s

/-- Digits of a kind and underscores, at least one of them. -/
def isDigits (isDigit : Char → Bool) (s : List Char) : Bool :=
  !s.isEmpty && s.all fun c => isDigit c || c == '_'

/-- A number that does not begin with a zero, unless that is all of it. -/
def hasNoLeadingZero (s : List Char) : Bool := s.length == 1 || s.head? != some '0'

/-- What may follow the prefix of a base: its digits, or nothing. -/
def isBaseDigits (isDigit : Char → Bool) (s : List Char) : Bool :=
  (s.isEmpty || isDigits isDigit s) && isGrouped isDigit s

/-- Whether a decimal integer may go on with a text: with nothing, or with an underscore and what
cannot be told from more of the integer, which are all characters but a space, a point and the mark
of an exponent. -/
def continuesDecimal (s : List Char) : Bool :=
  s.isEmpty ||
    (s.head? == some '_' && s.all fun c => c != ' ' && c != '.' && !isExponentMark c)

/-- A decimal integer. Next to an underscore, hexadecimal digits are digits too. -/
def isDecimal (s : List Char) : Bool :=
  let u := unsigned s
  !u.isEmpty && hasNoLeadingZero u && continuesDecimal (u.dropWhile Char.isDigit) &&
    isGrouped isHexDigit s

def isInteger : List Char → Bool
  | '0' :: 'x' :: ds => isBaseDigits isHexDigit ds
  | '0' :: 'o' :: ds => isBaseDigits (fun c => '0' ≤ c && c ≤ '7') ds
  | '0' :: 'b' :: ds => isBaseDigits (fun c => c == '0' || c == '1') ds
  | s => isDecimal s

def isExponent : List Char → Bool
  | [] => false
  | c :: cs => isExponentMark c && isDigits Char.isDigit (unsigned cs)

/-- A fraction, with its point, and perhaps an exponent. -/
def isFraction : List Char → Bool
  | '.' :: cs =>
    let exponent := cs.dropWhile (!isExponentMark ·)
    isDigits Char.isDigit (cs.takeWhile (!isExponentMark ·)) &&
      (exponent.isEmpty || isExponent exponent)
  | _ => false

/-- A number with a fraction or an exponent, or one of the words for what is no finite number. -/
def isFloat (s : List Char) : Bool :=
  let u := unsigned s
  u == ['i', 'n', 'f'] || u == ['n', 'a', 'n'] ||
    (let inWhole := fun c => c != '.' && !isExponentMark c
     let whole := u.takeWhile inWhole
     let rest := u.dropWhile inWhole
     isDigits Char.isDigit whole && hasNoLeadingZero whole &&
       (isFraction rest || isExponent rest) && isGrouped Char.isDigit s)

/-! ### Dates and times -/

def number? (digits : Nat) (s : List Char) : Option Nat :=
  if s.length = digits ∧ s.all Char.isDigit = true then
    some (s.foldl (fun n d => 10 * n + (d.toNat - '0'.toNat)) 0)
  else none

def daysIn (year month : Nat) : Nat :=
  if month = 2 then
    if year % 4 = 0 ∧ (year % 100 ≠ 0 ∨ year % 400 = 0) then 29 else 28
  else if month = 4 ∨ month = 6 ∨ month = 9 ∨ month = 11 then 30
  else 31

/-- A date that there is. -/
def isDate (s : List Char) : Bool :=
  match (Text.segments '-' s) with
  | [y, m, d] =>
    match number? 4 y, number? 2 m, number? 2 d with
    | some year, some month, some day =>
      1 ≤ month && month ≤ 12 && 1 ≤ day && day ≤ daysIn year month
    | _, _, _ => false
  | _ => false

/-- Seconds, perhaps with a fraction. A leap second is possible. -/
def isSecond (s : List Char) : Bool :=
  match Text.segments '.' s with
  | [whole] => inRange whole
  | [whole, fraction] => inRange whole && !fraction.isEmpty && fraction.all Char.isDigit
  | _ => false
where
  /-- Whether there is such a second. -/
  inRange (whole : List Char) : Bool :=
    match number? 2 whole with
    | some second => second ≤ 60
    | none => false

/-- Hours and minutes that there are. -/
def isHourMinute (h m : List Char) : Bool :=
  match number? 2 h, number? 2 m with
  | some hour, some minute => hour ≤ 23 && minute ≤ 59
  | _, _ => false

/-- A time of day. Seconds may be left out. -/
def isTime (s : List Char) : Bool :=
  match Text.segments ':' s with
  | [h, m] => isHourMinute h m
  | [h, m, second] => isHourMinute h m && isSecond second
  | _ => false

/-- An offset from universal time, without its sign. -/
def isOffset (s : List Char) : Bool :=
  match Text.segments ':' s with
  | [h, m] => isHourMinute h m
  | _ => false

/-- A time, perhaps with an offset. -/
def isTimeWithOffset (s : List Char) : Bool :=
  let isSign := fun c => c == '+' || c == '-' || c == 'Z' || c == 'z'
  let time := s.takeWhile (!isSign ·)
  isTime time &&
    match s.dropWhile (!isSign ·) with
    | [] => true
    | ['Z'] => true
    | ['z'] => true
    | '+' :: offset => isOffset offset
    | '-' :: offset => isOffset offset
    | _ => false

/-- A date and a time, with one character between them. -/
def isDateTime (s : List Char) : Bool :=
  isDate (s.take 10) &&
    match s.drop 10 with
    | c :: time => (c == 'T' || c == 't' || c == ' ') && isTimeWithOffset time
    | [] => false

/-- A number, boolean, date or time. -/
def isScalar (s : List Char) : Bool :=
  s == ['t', 'r', 'u', 'e'] || s == ['f', 'a', 'l', 's', 'e'] || isInteger s || isFloat s ||
    isDate s || isTime s || isDateTime s

/-! ### Reading -/

/-- Punctuation, which no scalar holds. -/
def endsScalar (c : Char) : Bool :=
  ['=', ',', '[', ']', '\x7b', '\x7d', '#', '\x0d', '\n'].contains c

/-- The characters of a scalar at the front of a text: all up to punctuation, or up to a quote that
comes after a blank, without the blanks at the end. -/
def run : List Char → List Char
  | [] => []
  | c :: cs =>
    if endsScalar c then []
    else
      match run cs with
      | [] => if isWs c then [] else [c]
      | d :: rest => if isWs c && (d == '"' || d == '\'') then [] else c :: d :: rest

end Scalar

def scalar (s : List Char) : Parsed String s :=
  let word := Scalar.run s
  if h : Scalar.isScalar word = true ∧ 0 < word.length ∧ 0 < s.length then
    some (String.ofList word, ⟨s.drop word.length, by simp only [List.length_drop]; omega⟩)
  else none

end AnalysisHost.Toml
