import AnalysisHost.CommandLine.Grammar
import AnalysisHost.CommandLine.Request
import AnalysisHost.Manifest.Read

/-!
# Reading the command line

Arguments are read from the left, and the first thing wrong with them is what counts; a request for
help or for the version is granted as soon as it is met. What stands behind `--` belongs to the
plugins. `parse` is the whole of it: arguments to a `Request`.
-/

namespace AnalysisHost.CommandLine

/-- Why reading ends before the last argument. -/
inductive Stop where
  | help
  | version
  | usage (e : UsageError)
  deriving DecidableEq, Repr

/-- What has been read. -/
structure Settings where
  verbosity : Nat := 0
  units? : Option String := none
  warningsAsErrors : Bool := false
  format? : Option Format := none
  shell? : Option Shell := none
  flags : List String := []
  deriving DecidableEq, Repr

namespace Settings

/-! ### Single arguments -/

/-- Set an option that takes no value. -/
def turnOn (s : Settings) : Opt → Except Stop Settings
  | .verbose => .ok { s with verbosity := s.verbosity + 1 }
  | .help => .error .help
  | .version => .error .version
  | opt =>
    if s.warningsAsErrors then .error (.usage (.repeated opt.text))
    else .ok { s with warningsAsErrors := true }

/-- Give an option a value. A path is not empty. -/
def assign (s : Settings) (opt : Opt) (value : String) : Except Stop Settings :=
  match opt with
  | .format =>
    match Format.parse? value, s.format? with
    | none, _ => .error (.usage (.invalidValue opt.text value))
    | some _, some _ => .error (.usage (.repeated opt.text))
    | some format, none => .ok { s with format? := some format }
  | _ =>
    if value.isEmpty then .error (.usage (.missingValue opt.text))
    else
      match s.units? with
      | some _ => .error (.usage (.repeated opt.text))
      | none => .ok { s with units? := some value }

/-- Read an argument as the value that an option waits for. -/
def supply (s : Settings) (opt : Opt) (arg : String) : Except Stop Settings :=
  match Token.ofArg arg with
  | .word => s.assign opt arg
  | _ => .error (.usage (.missingValue opt.text))

/-- Read a long option. If it waits for a value, it is given back. -/
def readLong (level : Level) (s : Settings) (name : String) (value? : Option String) :
    Except Stop (Settings × Option Opt) :=
  match level.long? name with
  | none => .error (.usage (.unexpected s!"--{name}"))
  | some opt =>
    match opt.takesValue, value? with
    | true, some value => do return (← s.assign opt value, none)
    | true, none => .ok (s, some opt)
    | false, some value => .error (.usage (.unexpected s!"--{name}={value}"))
    | false, none => do return (← s.turnOn opt, none)

/-- Read short options. If the last one waits for a value, it is given back. -/
def readShorts (level : Level) (s : Settings) : List Char → Except Stop (Settings × Option Opt)
  | [] => .ok (s, none)
  | c :: cs =>
    match level.short? c with
    | none => .error (.usage (.unexpected s!"-{c}"))
    | some opt =>
      if opt.takesValue then
        match cs with
        | [] => .ok (s, some opt)
        | '=' :: value => do return (← s.assign opt (String.ofList value), none)
        | value => do return (← s.assign opt (String.ofList value), none)
      else do readShorts level (← s.turnOn opt) cs

def readWord (s : Settings) (level : Level) (word : String) : Except Stop Settings :=
  match level, s.shell? with
  | .completions, none =>
    match Shell.parse? word with
    | some shell => .ok { s with shell? := some shell }
    | none => .error (.usage (.invalidValue "<SHELL>" word))
  | _, _ => .error (.usage (.unexpected word))

def readTrailing (s : Settings) (level : Level) (args : List String) : Except Stop Settings :=
  match level with
  | .compile => .ok { s with flags := args }
  | level => args.foldlM (fun s word => s.readWord level word) s

end Settings

/-! ### All arguments -/

/-- A request for help may name one command. -/
def readHelp : List String → Stop
  | [] => .help
  | name :: rest =>
    if (Level.ofWord? name).isNone && name != "help" then .usage (.unexpected name)
    else
      match rest with
      | [] => .help
      | word :: _ => .usage (.unexpected word)

/-- Read arguments at a level, while an option may be waiting for its value. The result is the level
at which they end, and what they say. -/
def read (level : Level) (s : Settings) (waiting : Option Opt) :
    List String → Except Stop (Level × Settings)
  | [] =>
    match waiting with
    | none => .ok (level, s)
    | some opt => .error (.usage (.missingValue opt.text))
  | arg :: rest =>
    match waiting with
    | some opt => do read level (← s.supply opt arg) none rest
    | none =>
      match Token.ofArg arg with
      | .escape => do return (level, ← s.readTrailing level rest)
      | .long name value? => do
        let (s, waiting) ← s.readLong level name value?
        read level s waiting rest
      | .shorts names => do
        let (s, waiting) ← s.readShorts level names
        read level s waiting rest
      | .word =>
        match level with
        | .top =>
          if arg = "help" then .error (readHelp rest)
          else
            match Level.ofWord? arg with
            | some level => read level s none rest
            | none => .error (.usage (.unexpected arg))
        | level => do read level (← s.readWord level arg) none rest

/-- The command that settings make up at the level where the arguments end. -/
def Settings.command (s : Settings) (level : Level) : Except Stop Command :=
  let units := s.units?.getD Manifest.defaultFile
  match level with
  | .top => .error (.usage .missingCommand)
  | .compile => .ok (.compile units s.warningsAsErrors (s.format?.getD .text) s.flags)
  | .check => .ok (.check units)
  | .plugins => .ok .plugins
  | .completions =>
    match s.shell? with
    | some shell => .ok (.completions shell)
    | none => .error (.usage .missingShell)

def parse (args : List String) : Except UsageError Request :=
  match (read .top {} none args).bind fun (level, s) => s.command level with
  | .ok c => .ok (.command c)
  | .error .help => .ok .help
  | .error .version => .ok .version
  | .error (.usage e) => .error e

end AnalysisHost.CommandLine
