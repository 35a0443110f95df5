import AnalysisHost.CommandLine.Reading
import AnalysisHost.Report

/-!
# What a command does

`perform` carries out what arguments ask for, on the files it is given. What a command exits with,
prints and leaves behind is a value, so a run of the whole program is a function of its arguments
and its files.
-/

namespace AnalysisHost.CommandLine

/-- What a command exits with, prints and leaves behind. -/
structure Effect where
  exit : Nat
  stdout : String := ""
  stderr : String := ""
  files : Files
  deriving Repr

/-! ### Fixed texts -/

def helpText : String :=
  String.join (List.map (· ++ "\n")
    ["Run static analyses as compiler plugins",
      "",
      s!"Usage: {hostName} [-v]... <COMMAND>",
      "",
      "Commands:",
      "  compile [-u <PATH>] [--Werror] [--format text|json] [-- <FLAGS>...]",
      "                           Compile a source set with the bundled plugins",
      "  check [-u <PATH>]        Validate a source set without compiling",
      "  plugins                  List bundled plugins and the flags they claim",
      "  completions <SHELL>      Generate shell completions",
      "  help [COMMAND]           Print this message",
      "",
      "Options:",
      s!"  -u, --units <PATH>       Path to the source set (default: {Manifest.defaultFile})",
      "  -v, --verbose            Increase log verbosity; may be repeated",
      "  -h, --help               Print this message",
      "  -V, --version            Print the version"])

def commandWords : String := "compile check plugins completions help"

def completionScript : Shell → String
  | .bash => s!"complete -W '{commandWords}' {hostName}\n"
  | .elvish =>
    s!"set edit:completion:arg-completer[{hostName}] = \x7b|@words| put {commandWords} \x7d\n"
  | .fish => s!"complete -c {hostName} -f -a '{commandWords}'\n"
  | .powershell =>
    s!"Register-ArgumentCompleter -Native -CommandName {hostName} -ScriptBlock \x7b " ++
      s!"-split '{commandWords}' \x7d\n"
  | .zsh => s!"#compdef {hostName}\n_arguments '1:command:({commandWords})'\n"

/-! ### Commands -/

def shown (lines : List Report.Line) (files : Files) : Effect :=
  { exit := 0
    stdout := Report.shownOn .output lines, stderr := Report.shownOn .error lines, files }

def refused (e : UsageError) (files : Files) : Effect :=
  { exit := ExitStatus.cmdErr.code, stderr := s!"error: {e.message}\n", files }

def unusable (e : Manifest.Error) (files : Files) : Effect :=
  let help := match e.help? with
    | some help => s!"help: {help}\n"
    | none => ""
  { exit := ExitStatus.cmdErr.code, stderr := s!"error: {e.message}\n{help}", files }

/-- The effect of a run over the manifest at a path. The report goes first, and then the message of
a run that did not complete. -/
def reported (path : String) (format : Format) (run : Run Bundled) : Effect :=
  let lines := Report.runLines path run.report
  let (stdout, stderr) := match format with
    | .text => (Report.shownOn .output lines, Report.shownOn .error lines)
    | .json => ((Report.runJson path run.report).render ++ "\n", "")
  let message := match run.report.outcome.message? with
    | some message => s!"error: {message}\n"
    | none => ""
  { exit := run.report.outcome.status.code
    stdout, stderr := stderr ++ message, files := run.files }

def Command.perform (files : Files) : Command → Effect
  | .compile units warningsAsErrors format flags =>
    match Manifest.load files units with
    | .error e => unusable e files
    | .ok source =>
      reported units format (Report.compile source.manifest flags warningsAsErrors files)
  | .check units =>
    match Manifest.load files units with
    | .error e => unusable e files
    | .ok source => shown (Report.Check.ofSource source).lines files
  | .plugins => shown (Report.plugins (Bundled.all.map Plugin.info)) files
  | .completions shell => { exit := 0, stdout := completionScript shell, files }

def perform (args : List String) (files : Files) : Effect :=
  match parse args with
  | .error e => refused e files
  | .ok .help => { exit := 0, stdout := helpText, files }
  | .ok .version => { exit := 0, stdout := s!"{hostName} {hostVersion}\n", files }
  | .ok (.command c) => c.perform files

/-- The paths that a command may read or write. -/
def Command.paths : Command → List String
  | .compile units _ _ flags =>
    match Flag.claimOne PhaseTrace.directoryFlag flags with
    | .ok (some directory, _) => [units, Files.inDirectory directory PhaseTrace.traceFile]
    | _ => [units]
  | .check units => [units]
  | _ => []

end AnalysisHost.CommandLine
