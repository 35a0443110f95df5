import AnalysisHost.Text.Split

/-!
# Names in a manifest

Types and methods are named by identifiers: ASCII letters, digits, `_` and `$`, not beginning with a
digit, and no reserved word. Packages are identifiers with dots between them, and an import has at
least one dot. Each check names the first fault it finds, reading from the left; a name is fine if
it finds none.
-/

namespace AnalysisHost.Manifest

/-- What can be wrong with a name. -/
inductive NameFault where
  | empty
  | badStart
  | badCharacter
  | reserved
  | emptySegment
  | unqualified
  deriving DecidableEq, Repr

def NameFault.reason : NameFault → String
  | empty => "name cannot be empty"
  | badStart => "name must start with a letter, '_' or '$'"
  | badCharacter => "name must contain only letters, digits, '_' and '$'"
  | reserved => "name is a reserved word"
  | emptySegment => "name cannot contain empty segments"
  | unqualified => "import must be qualified with a package"

/-- The reserved words of the compiled language, its literals included. -/
def reservedWords : List String :=
  ["abstract", "assert", "boolean", "break", "byte", "case", "catch", "char", "class", "const",
    "continue", "default", "do", "double", "else", "enum", "extends", "final", "finally", "float",
    "for", "goto", "if", "implements", "import", "instanceof", "int", "interface", "long", "native",
    "new", "package", "private", "protected", "public", "return", "short", "static", "strictfp",
    "super", "switch", "synchronized", "this", "throw", "throws", "transient", "try", "void",
    "volatile", "while", "true", "false", "null"]

/-- Whether an identifier may begin with a character. -/
def isNameStart (c : Char) : Bool := c.isAlpha || c == '_' || c == '$'

/-- Whether an identifier may go on with a character. -/
def isNameChar (c : Char) : Bool := c.isAlphanum || c == '_' || c == '$'

def identifierFault? : List Char → Option NameFault
  | [] => some .empty
  | c :: cs =>
    if !isNameStart c then some .badStart
    else if !cs.all isNameChar then some .badCharacter
    else if reservedWords.contains (String.ofList (c :: cs)) then some .reserved
    else none

def segmentFault? : List Char → Option NameFault
  | [] => some .emptySegment
  | segment@(_ :: _) => identifierFault? segment

def qualifiedFault? : List Char → Option NameFault
  | [] => some .empty
  | name@(_ :: _) => (Text.segments '.' name).findSome? segmentFault?

/-- What is wrong with an import, a dotted name of a package and a type. -/
def importFault? (name : List Char) : Option NameFault :=
  if name.contains '.' then qualifiedFault? name else some .unqualified

def IsIdentifier (name : List Char) : Prop :=
  ∃ c cs, name = c :: cs ∧ isNameStart c = true ∧ (∀ d ∈ cs, isNameChar d = true) ∧
    String.ofList name ∉ reservedWords

theorem identifierFault?_eq_none_iff {name : List Char} :
    identifierFault? name = none ↔ IsIdentifier name := by
  cases name with
  | nil => simp [identifierFault?, IsIdentifier]
  | cons c cs =>
    simp only [identifierFault?, IsIdentifier, List.cons.injEq]
    constructor
    · intro h
      refine ⟨c, cs, ⟨rfl, rfl⟩, ?_⟩
      split at h
      · simp at h
      · split at h
        · simp at h
        · split at h
          · simp at h
          · next h₁ h₂ h₃ =>
            exact ⟨by simpa using h₁, by simpa using h₂, by simpa using h₃⟩
    · rintro ⟨c', cs', ⟨rfl, rfl⟩, h₁, h₂, h₃⟩
      have h₂' : cs.all isNameChar = true := List.all_eq_true.2 h₂
      have h₃' : reservedWords.contains (String.ofList (c :: cs)) = false :=
        Bool.eq_false_iff.2 fun h => h₃ (List.contains_iff_mem.1 h)
      rw [h₁, h₂', h₃']
      rfl

end AnalysisHost.Manifest
