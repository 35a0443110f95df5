import AnalysisHost.Manifest.Span
import AnalysisHost.Manifest.Validity

/-!
# Why a manifest could not be used

Three things can go wrong, one after the other: its file cannot be read, its text is no document of
the right shape, or what the document says violates a rule. Messages, codes and advice are a
function of the cause; labels that point into the text are found by looking for the offending value
in it.
-/

namespace AnalysisHost.Manifest

/-- Why a manifest could not be used. -/
inductive Error where
  | unreadable (path : String)
  | malformed (file : String)
  | invalid (file text : String) (violation : Violation)
  deriving DecidableEq, Repr

/-- A remark on a stretch of the text. -/
structure Label where
  text : String
  span : Span
  deriving DecidableEq, Repr

namespace Violation

def message : Violation → String
  | badPackage package _ => s!"invalid package '{package}'"
  | badImport unit text _ => s!"invalid import '{text}' in '{unit}'"
  | badName kind name _ => s!"invalid {kind.text} name '{name}'"
  | duplicateUnit path => s!"duplicate unit '{path}'"
  | duplicateType qualified _ _ => s!"duplicate type '{qualified}'"

def code : Violation → String
  | badPackage _ _ => "stagehook::invalid_package"
  | badImport _ _ _ => "stagehook::invalid_import"
  | badName _ _ _ => "stagehook::invalid_name"
  | duplicateUnit _ => "stagehook::duplicate_unit"
  | duplicateType _ _ _ => "stagehook::duplicate_type"

def help : Violation → String
  | badPackage _ fault =>
    s!"{fault.reason}. Packages are dot-separated identifiers, e.g. 'com.example.app'"
  | badImport _ _ fault => s!"{fault.reason}. Imports name a single type, e.g. 'com.example.Util'"
  | badName _ _ fault =>
    s!"{fault.reason}. Use only letters, digits, '_' and '$', starting with a letter, '_' or '$'"
  | duplicateUnit _ => "each unit path may appear only once in the source set"
  | duplicateType qualified first second =>
    s!"'{qualified}' is declared by both '{first}' and '{second}'"

/-- What the labels point at: a remark, a value, and which of its occurrences. -/
def targets : Violation → List (String × String × Nat)
  | badPackage package _ => [("invalid package", package, 0)]
  | badImport _ text _ => [("invalid import", text, 0)]
  | badName _ name _ => [("invalid identifier", name, 0)]
  | duplicateUnit path => [("first declared here", path, 0), ("declared again here", path, 1)]
  | duplicateType _ first second =>
    [("first declared by this unit", first, 0), ("declared again by this unit", second, 0)]

/-- The labels in a text. One whose value is not found is left out. -/
def labels (v : Violation) (text : String) : List Label :=
  v.targets.filterMap fun (remark, value, n) => (Span.ofQuoted? text value n).map (⟨remark, ·⟩)

end Violation

namespace Error

def message : Error → String
  | unreadable path => s!"failed to read '{path}'"
  | malformed _ => "failed to parse source set"
  | invalid _ _ violation => violation.message

def code? : Error → Option String
  | unreadable _ => none
  | malformed _ => some "stagehook::parse_error"
  | invalid _ _ violation => some violation.code

def help? : Error → Option String
  | unreadable _ => some "pass the source set with '--units <path>'"
  | malformed _ => none
  | invalid _ _ violation => some violation.help

/-- The name of the text that the error is about. -/
def file? : Error → Option String
  | unreadable _ => none
  | malformed file => some file
  | invalid file _ _ => some file

end Error

end AnalysisHost.Manifest
