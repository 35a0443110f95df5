/-!
# Requests

What arguments can ask for, and what can be wrong with them.
-/

namespace AnalysisHost.CommandLine

/-- How the report on a run is shown. -/
inductive Format where
  | text
  | json
  deriving DecidableEq, Repr

def Format.parse? : String → Option Format
  | "text" => some text
  | "json" => some json
  | _ => none

/-- A shell that completions can be made for. -/
inductive Shell where
  | bash
  | elvish
  | fish
  | powershell
  | zsh
  deriving DecidableEq, Repr

def Shell.parse? : String → Option Shell
  | "bash" => some bash
  | "elvish" => some elvish
  | "fish" => some fish
  | "powershell" => some powershell
  | "zsh" => some zsh
  | _ => none

/-- What is to be done. -/
inductive Command where
  /-- Run the bundled analyses over the manifest at a path. -/
  | compile (units : String) (warningsAsErrors : Bool) (format : Format) (flags : List String)
  /-- Say what the manifest at a path holds. -/
  | check (units : String)
  | plugins
  /-- Write a script that completes commands in a shell. -/
  | completions (shell : Shell)
  deriving DecidableEq, Repr

/-- What arguments ask for. -/
inductive Request where
  | help
  | version
  | command (c : Command)
  deriving DecidableEq, Repr

/-- What is wrong with arguments. -/
inductive UsageError where
  | unexpected (argument : String)
  | missingValue (option : String)
  | invalidValue (option value : String)
  | repeated (option : String)
  | missingCommand
  | missingShell
  deriving DecidableEq, Repr

def UsageError.message : UsageError → String
  | unexpected argument => s!"unexpected argument '{argument}'"
  | missingValue option => s!"a value is required for '{option}'"
  | invalidValue option value => s!"invalid value '{value}' for '{option}'"
  | repeated option => s!"the argument '{option}' cannot be used multiple times"
  | missingCommand => "a command is required"
  | missingShell => "a shell is required"

end AnalysisHost.CommandLine
