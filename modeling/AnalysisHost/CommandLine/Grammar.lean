/-!
# The grammar of the command line

Which options there are at each level — before the command, and behind each command — and which of
them take a value; and the forms that a single argument can have.
-/

namespace AnalysisHost.CommandLine

/-! ### Options -/

/-- An option. -/
inductive Opt where
  | verbose
  | help
  | version
  | units
  | warningsAsErrors
  | format
  deriving DecidableEq, Repr

def Opt.text : Opt → String
  | verbose => "--verbose"
  | help => "--help"
  | version => "--version"
  | units => "--units"
  | warningsAsErrors => "--Werror"
  | format => "--format"

def Opt.takesValue : Opt → Bool
  | units | format => true
  | _ => false

/-! ### Levels -/

/-- Where an argument stands: before the command, or behind it. -/
inductive Level where
  | top
  | compile
  | check
  | plugins
  | completions
  deriving DecidableEq, Repr

namespace Level

def ofWord? : String → Option Level
  | "compile" => some compile
  | "check" => some check
  | "plugins" => some plugins
  | "completions" => some completions
  | _ => none

def long? (level : Level) (name : String) : Option Opt :=
  match level, name with
  | _, "verbose" => some .verbose
  | _, "help" => some .help
  | top, "version" => some .version
  | compile, "units" => some .units
  | check, "units" => some .units
  | compile, "Werror" => some .warningsAsErrors
  | compile, "format" => some .format
  | _, _ => none

def short? (level : Level) (name : Char) : Option Opt :=
  match level, name with
  | _, 'v' => some .verbose
  | _, 'h' => some .help
  | top, 'V' => some .version
  | compile, 'u' => some .units
  | check, 'u' => some .units
  | _, _ => none

end Level

/-! ### Arguments -/

/-- An argument by its form. -/
inductive Token where
  /-- Two dashes and nothing else. -/
  | escape
  /-- A long option, perhaps with a value attached by an equals sign. -/
  | long (name : String) (value? : Option String)
  /-- One dash and short options. -/
  | shorts (names : List Char)
  /-- Anything else, a single dash included. -/
  | word
  deriving DecidableEq, Repr

def Token.ofArg (arg : String) : Token :=
  match arg.toList with
  | ['-', '-'] => .escape
  | '-' :: '-' :: cs =>
    let name := String.ofList (cs.takeWhile fun c => c != '=')
    match cs.dropWhile fun c => c != '=' with
    | _ :: value => .long name (some (String.ofList value))
    | [] => .long name none
  | ['-'] => .word
  | '-' :: cs => .shorts cs
  | _ => .word

end AnalysisHost.CommandLine
