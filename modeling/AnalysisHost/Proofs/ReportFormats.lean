import AnalysisHost.CommandLine.Effect
import AnalysisHost.Proofs.Readback
import AnalysisHost.Proofs.ReportAgreement
import Mathlib

/-!
# Two formats of one report

A compilation is reported as lines for a reader, or as a document for a program. What a document
says is read back here from the document itself (`RunData.ofJson?`), and a printed document says
one thing only, since no two documents are printed alike. `CommandLine.formats_agree` says that the
two formats tell the same story: whatever the flags are, the process exits alike, leaves the same
files, and shows in lines what the document says.
-/

namespace AnalysisHost

/-! ## What a report says -/

/-- What a machine-readable report says. -/
structure RunData where
  units : String
  status : String
  code : Nat
  state : String
  message? : Option String
  unitsCompiled : Nat
  diagnostics : List Diagnostic
  deriving DecidableEq, Repr

namespace RunData

def ofJson? (document : Json) : Option RunData := do
  return {
    units := ← (← document.field? "units").text?
    status := ← (← document.field? "status").text?
    code := ← (← document.field? "code").natural?
    state := ← (← document.field? "state").text?
    message? := ← document.textIfAny? "message"
    unitsCompiled := ← (← document.field? "units_compiled").natural?
    diagnostics := ← (← (← document.field? "diagnostics").items?).mapM Diagnostic.ofJson? }

/-- What the report on a run over the manifest at a path has to say. -/
def ofReport (path : String) (r : RunReport) : RunData where
  units := path
  status := r.outcome.status.text
  code := r.outcome.status.code
  state := r.stage.text
  message? := r.outcome.message?
  unitsCompiled := r.unitsCompiled
  diagnostics := r.diagnostics

/-- **What is read from the JSON report** is what was to be reported. -/
theorem ofJson?_runJson (path : String) (r : RunReport) :
    ofJson? (Report.runJson path r) = some (ofReport path r) := by
  have hdiagnostics : (r.diagnostics.map Diagnostic.toJson).mapM Diagnostic.ofJson? =
      some r.diagnostics := Json.mapM_map_eq_some Diagnostic.ofJson?_toJson r.diagnostics
  have hmessage : (Report.runJson path r).textIfAny? "message" = some r.outcome.message? :=
    Json.textIfAny?_eq (by simp [Report.runJson])
  rw [ofJson?, hmessage]
  simp [Report.runJson, hdiagnostics, ofReport]

/-- A text is a printed document, and this is what the document says. -/
def PrintedAs (text : String) (data : RunData) : Prop :=
  ∃ document : Json, text = document.render ++ "\n" ∧ ofJson? document = some data

/-- One reading only: the printed report says nothing else. -/
theorem printedAs_runJson_iff (path : String) (r : RunReport) (data : RunData) :
    PrintedAs ((Report.runJson path r).render ++ "\n") data ↔ data = ofReport path r := by
  constructor
  · rintro ⟨document, htext, hdata⟩
    have hdocument : Report.runJson path r = document :=
      Json.render_injective ((String.append_left_inj "\n").mp htext)
    rw [← hdocument, ofJson?_runJson] at hdata
    exact (Option.some.inj hdata).symm
  · rintro rfl
    exact ⟨_, rfl, ofJson?_runJson path r⟩

end RunData

/-! ## What lines show -/

namespace Report

/-- Texts on lines of their own. -/
def onLines (texts : List String) : String := String.join (texts.map (· ++ "\n"))

/-- What lines show on a stream, they show one behind the other. -/
theorem shownOn_append (stream : Stream) (lines lines' : List Line) :
    shownOn stream (lines ++ lines') = shownOn stream lines ++ shownOn stream lines' := by
  simp [shownOn, List.filterMap_append, String.join_append]

/-- What a line shows of a severity. -/
def severityWord : Severity → String
  | .error => "error"
  | .warning => "warning"
  | .note => "note"

/-- The line for a diagnostic, such as
`A.java: error: [attribute] cannot find symbol 'b.B' (at import b.B)`. The unit and the place are
left out where there are none. -/
def diagnosticLine (d : Diagnostic) : String :=
  d.unit?.elim "" (· ++ ": ") ++ severityWord d.severity ++ ": [" ++ d.source ++ "] " ++ d.message ++
    d.location?.elim "" fun place => " (at " ++ place ++ ")"

/-- The line of a diagnostic is put together as `diagnosticLine` says. -/
theorem text_eq_diagnosticLine : Diagnostic.text = diagnosticLine := by
  funext d
  obtain ⟨severity, source, message, unit?, location?⟩ := d
  cases severity <;> cases unit? <;> cases location? <;> rfl

/-- Diagnostics are shown on the error stream, a line each. -/
theorem shownOn_error_diagnostics (ds : List Diagnostic) :
    shownOn .error (ds.map (.diagnostic ·.text)) = onLines (ds.map diagnosticLine) := by
  rw [← text_eq_diagnosticLine]
  simp [shownOn, onLines, Line.onTerminal, List.filterMap_map, Function.comp_def]

/-- They leave the output alone. -/
theorem shownOn_output_diagnostics (ds : List Diagnostic) :
    shownOn .output (ds.map (.diagnostic ·.text)) = "" := by
  simp [shownOn, Line.onTerminal, List.filterMap_map]

/-- Nothing but diagnostics goes to the error stream. -/
theorem shownOn_error_runLines (path : String) (r : RunReport) :
    shownOn .error (runLines path r) = onLines (r.diagnostics.map diagnosticLine) := by
  rw [runLines, shownOn_append, shownOn_append, shownOn_error_diagnostics]
  cases r.diagnostics.isEmpty <;> simp [shownOn, Line.onTerminal]

/-- The output has the line that sums up, and a blank one in front where diagnostics come before it.
-/
theorem shownOn_output_runLines (path : String) (r : RunReport) :
    shownOn .output (runLines path r) =
      (if r.diagnostics = [] then "" else "\n") ++ summary path r ++ "\n" := by
  rw [runLines, shownOn_append, shownOn_append, shownOn_output_diagnostics]
  cases r.diagnostics <;> simp [shownOn, Line.onTerminal, String.append_assoc]

/-! ### The line that sums a run up -/

/-- What the last line of a report counts. -/
structure Summary where
  units : Nat
  errors : Nat
  warnings : Nat
  state : String
  deriving DecidableEq, Repr

/-- A number of things of a kind. -/
def counted (n : Nat) (thing : String) : String := s!"{n} {thing}{plural n}"

def Summary.line (path : String) (s : Summary) : String :=
  let units := counted s.units "unit"
  let errors := counted s.errors "error"
  let warnings := counted s.warnings "warning"
  s!"{path}: compiled {units} ({errors}, {warnings}), {s.state}"

/-- The blank behind a number ends it, so the number can be read. -/
theorem counted_append_injective {m n : Nat} {thing : String} {x y : List Char}
    (h : (counted m thing).toList ++ x = (counted n thing).toList ++ y) : m = n ∧ x = y := by
  have hsplit (k : Nat) (z : List Char) : (counted k thing).toList ++ z =
      (toString k).toList ++ ' ' :: (thing.toList ++ ((plural k).toList ++ z)) := by
    simp [counted]
    rfl
  rw [hsplit, hsplit] at h
  obtain ⟨rfl, hbehind⟩ := Json.number_append_injective
    (Json.noDigitHead_cons (by decide) _) (Json.noDigitHead_cons (by decide) _) h
  rw [List.cons.injEq] at hbehind
  exact ⟨rfl, List.append_cancel_left (List.append_cancel_left hbehind.2)⟩

/-- All that a summary counts can be read off its line. -/
theorem Summary.line_injective (path : String) : Function.Injective (line path) := by
  have hsplit (s : Summary) : (line path s).toList = path.toList ++ (": compiled ".toList ++
      ((counted s.units "unit").toList ++ (" (".toList ++ ((counted s.errors "error").toList ++
        (", ".toList ++ ((counted s.warnings "warning").toList ++
          ("), ".toList ++ s.state.toList))))))) := by
    simp only [line, String.toList_append, List.append_assoc]
    rfl
  intro s t h
  have h := congrArg String.toList h
  rw [hsplit, hsplit] at h
  obtain ⟨hunits, h⟩ := counted_append_injective
    (List.append_cancel_left (List.append_cancel_left h))
  obtain ⟨herrors, h⟩ := counted_append_injective (List.append_cancel_left h)
  obtain ⟨hwarnings, h⟩ := counted_append_injective (List.append_cancel_left h)
  have hstate := String.toList_inj.mp (List.append_cancel_left h)
  cases s
  cases t
  simp_all

end Report

/-- The counts that a document gives, or from which they follow. -/
def RunData.summary (data : RunData) : Report.Summary where
  units := data.unitsCompiled
  errors := data.diagnostics.countP fun d => d.severity = .error
  warnings := data.diagnostics.countP fun d => d.severity = .warning
  state := data.state

theorem Severity.isError_eq (s : Severity) : s.isError = decide (s = .error) := by
  cases s <;> rfl

theorem Severity.isWarning_eq (s : Severity) : s.isWarning = decide (s = .warning) := by
  cases s <;> rfl

/-- The summary counts what the JSON report counts. -/
theorem Report.summary_eq (path : String) (r : RunReport) :
    summary path r = (RunData.ofReport path r).summary.line path := by
  have herrors : r.errorCount = r.diagnostics.countP fun d => d.severity = .error := by
    simp [RunReport.errorCount, Severity.isError_eq]
  have hwarnings : r.warningCount = r.diagnostics.countP fun d => d.severity = .warning := by
    simp [RunReport.warningCount, Severity.isWarning_eq]
  have hcounted (n : Nat) (thing : String) :
      counted n thing = toString n ++ (" " ++ thing) ++ plural n := by
    rw [counted, String.append_assoc, String.append_assoc, String.append_assoc]
    rfl
  simp only [summary, herrors, hwarnings, Summary.line, RunData.summary, RunData.ofReport, hcounted]
  rfl

/-! ## Success

A status is a success where the run has completed and nothing it reports is an error; the process
shows the same through its exit code. -/

namespace Compilation

variable {π : Type} [Plugin π]

/-- A run is a success exactly if it has no message and no error was reported. -/
theorem status_run_eq_ok_iff (c : Compilation π) (args : List String) (files : Files) :
    (c.run args files).report.outcome.status = .ok ↔
      (c.run args files).report.outcome.message? = none ∧
        ∀ d ∈ (c.run args files).report.diagnostics, d.severity ≠ .error := by
  cases houtcome : (c.run args files).report.outcome with
  | completed status =>
    obtain ⟨done, -, hrun⟩ := performAll_of_completed houtcome
    have hdiagnostics : (c.run args files).report.diagnostics =
        done.session.log.diagnostics := by rw [hrun]; rfl
    have hstatus : (if done.session.log.hasErrors then .error else .ok) = status := by
      simpa [hrun, concluded, Outcome.ofLog] using houtcome
    rw [hdiagnostics, ← hstatus]
    simp [Outcome.status, Outcome.message?, Log.hasErrors, Severity.isError_eq]
  | aborted e =>
    simp [Outcome.status, Outcome.message?, Escalation.exitStatus, e.status.toExitStatus_ne_ok]
  | invalidCommandLine e => simp [Outcome.status, Outcome.message?]
  | crashed message => simp [Outcome.status, Outcome.message?]

end Compilation

/-! ## Two formats -/

namespace CommandLine

open Report (diagnosticLine onLines)

/-- Arguments ask for a command, and not for anything to be logged on the way. -/
def Asks (args : List String) (c : Command) : Prop :=
  ∃ level s, read .top {} none args = .ok (level, s) ∧ s.verbosity = 0 ∧ s.command level = .ok c

/-- A command line that asks for a command performs it. -/
theorem perform_of_asks {args : List String} {c : Command} (h : Asks args c) (files : Files) :
    perform args files = c.perform files := by
  obtain ⟨level, s, hread, -, hcommand⟩ := h
  rw [perform, parse, hread]
  simp only [Except.bind, hcommand]

def Format.word : Format → String
  | .text => "text"
  | .json => "json"

/-- The arguments that say in full how a manifest is to be compiled. -/
def compileArgs (units : String) (warningsAsErrors : Bool) (format : Format)
    (flags : List String) : List String :=
  ["compile", "--units=" ++ units, "--format=" ++ format.word] ++
    (if warningsAsErrors then ["--Werror"] else []) ++ "--" :: flags

theorem ofArg_units (units : String) :
    Token.ofArg ("--units=" ++ units) = .long "units" (some units) := by
  simp [Token.ofArg]

theorem ofArg_format (format : Format) :
    Token.ofArg ("--format=" ++ format.word) = .long "format" (some format.word) := by
  cases format <;> decide +kernel

/-- A format is what its word is read as. -/
theorem Format.parse?_word (format : Format) : parse? format.word = some format := by
  cases format <;> rfl

/-- An option is read with the value that is attached to it. -/
theorem read_attached {level : Level} {s s' : Settings} {arg name value : String} {opt : Opt}
    (harg : Token.ofArg arg = .long name (some value)) (hopt : level.long? name = some opt)
    (htakes : opt.takesValue = true) (hassign : s.assign opt value = .ok s')
    (rest : List String) : read level s none (arg :: rest) = read level s' none rest := by
  have hread : s.readLong level name (some value) = .ok (s', none) := by
    simp only [Settings.readLong, hopt, htakes, hassign]
    rfl
  rw [read.eq_def]
  simp only [harg, hread]
  rfl

/-- There are such arguments for all flags, whatever they look like. -/
theorem asks_compileArgs {units : String} (hunits : units ≠ "") (warningsAsErrors : Bool)
    (format : Format) (flags : List String) :
    Asks (compileArgs units warningsAsErrors format flags)
      (.compile units warningsAsErrors format flags) := by
  have hassignUnits : Settings.assign {} .units units = .ok { units? := some units } := by
    simp [Settings.assign, hunits]
  have hassignFormat : Settings.assign { units? := some units } .format format.word =
      .ok { units? := some units, format? := some format } := by
    simp [Settings.assign, Format.parse?_word]
  refine ⟨.compile, ⟨0, some units, warningsAsErrors, some format, none, flags⟩, ?_, rfl, rfl⟩
  show read .compile {} none (("--units=" ++ units) :: ("--format=" ++ format.word) :: _) = _
  rw [read_attached (ofArg_units units) rfl rfl hassignUnits,
    read_attached (ofArg_format format) rfl rfl hassignFormat]
  cases warningsAsErrors <;> rfl

/-- What is shown of a run that did not complete. -/
def errorLine : Option String → String
  | none => ""
  | some message => s!"error: {message}\n"

/-- What a compilation does that is shown in lines, and what the same compilation does whose report
is a document, given what the document says. -/
structure FormatsAgree (path : String) (text json : Effect) (data : RunData) : Prop where
  path_eq : data.units = path
  exit_eq : text.exit = json.exit
  files_eq : text.files = json.files
  code_eq : json.exit = data.code
  success_iff : json.exit = 0 ↔
    data.message? = none ∧ ∀ d ∈ data.diagnostics, d.severity ≠ .error
  /-- The last line counts what the document lists, and nothing else can be read there. -/
  summary : ∀ s : Report.Summary,
    text.stdout = (if data.diagnostics = [] then "" else "\n") ++ s.line path ++ "\n" ↔
      s = data.summary
  /-- Every diagnostic of the document is shown once and in order, and the message behind them. -/
  stderr_text : text.stderr =
    onLines (data.diagnostics.map diagnosticLine) ++ errorLine data.message?
  stderr_json : json.stderr = errorLine data.message?

/-- Only the text format shows anything on the error stream besides the message of a failed run. -/
theorem stderr_reported (path : String) (format : Format) (run : Run Bundled) :
    (reported path format run).stderr =
      (match format with
        | .text => Report.shownOn .error (Report.runLines path run.report)
        | .json => "") ++ errorLine run.report.outcome.message? := by
  unfold reported
  cases format <;> cases run.report.outcome.message? <;> rfl

/-- The two reports of one run agree. -/
theorem formatsAgree_reported (path : String) (c : Compilation Bundled) (flags : List String)
    (files : Files) :
    FormatsAgree path (reported path .text (c.run flags files))
      (reported path .json (c.run flags files)) (.ofReport path (c.run flags files).report) where
  path_eq := rfl
  exit_eq := rfl
  files_eq := rfl
  code_eq := rfl
  success_iff := (ExitStatus.code_eq_zero_iff _).trans (c.status_run_eq_ok_iff flags files)
  summary s := by
    show Report.shownOn .output _ = _ ↔ _
    rw [Report.shownOn_output_runLines, Report.summary_eq]
    constructor
    · intro h
      exact (Report.Summary.line_injective path
        ((String.append_right_inj _).mp ((String.append_left_inj _).mp h))).symm
    · rintro rfl
      rfl
  stderr_text := by
    rw [stderr_reported, Report.shownOn_error_runLines]
    rfl
  stderr_json := (stderr_reported path .json _).trans String.empty_append

/-- **The two formats of a report agree**: the document says one thing, and what a run does is the
same in both formats and just what the document says. -/
theorem formats_agree {units : String} {warningsAsErrors : Bool} {flags args args' : List String}
    {files : Files} {source : Manifest.Source}
    (htext : Asks args (.compile units warningsAsErrors .text flags))
    (hjson : Asks args' (.compile units warningsAsErrors .json flags))
    (hload : Manifest.load files units = .ok source) :
    ∃ data, (∀ data', RunData.PrintedAs (perform args' files).stdout data' ↔ data' = data) ∧
      FormatsAgree units (perform args files) (perform args' files) data := by
  rw [perform_of_asks htext, perform_of_asks hjson, Command.perform, Command.perform, hload]
  exact ⟨_, RunData.printedAs_runJson_iff units _, formatsAgree_reported units _ flags files⟩

/-- A unit whose type is named against the rules. -/
def misnamed : Manifest.Source where
  path := Manifest.defaultFile
  text := "[[unit]]\npath = \"A.java\"\npackage = \"a\"\ntypes = [\"b\"]\n"
  manifest := { units := [{ path := "A.java", package := "a", types := ["b"] }] }

def misnamedFiles : Files where
  entries := [([misnamed.path], .file (some misnamed.text))]

theorem load_misnamed : Manifest.load misnamedFiles misnamed.path = .ok misnamed := by
  have hread : misnamedFiles.readText? misnamed.path = some misnamed.text := by decide +kernel
  have hparse : Manifest.parse misnamed.text misnamed.path = .ok misnamed.manifest := by cbv
  rw [Manifest.load, hread]
  simp only [hparse]
  rfl

theorem formats_agree_misnamed :
    ∃ data, (∀ data', RunData.PrintedAs
        (perform (compileArgs misnamed.path false .json []) misnamedFiles).stdout data' ↔
          data' = data) ∧
      FormatsAgree misnamed.path (perform ["compile"] misnamedFiles)
        (perform (compileArgs misnamed.path false .json []) misnamedFiles) data :=
  formats_agree ⟨_, _, rfl, rfl, rfl⟩ (asks_compileArgs (by decide) _ _ _) load_misnamed

end CommandLine

end AnalysisHost
