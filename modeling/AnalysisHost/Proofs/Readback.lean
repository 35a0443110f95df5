import AnalysisHost.Analysis.PhaseTrace
import AnalysisHost.Proofs.JsonText

/-!
# Reading documents back

What a document says is what can be read in it. The readers here go by the names of the fields and
know nothing of how a document is written; a field that may be left out reads as `none`. For each
kind of document that the host writes there is a reader, and it gives back what was written:

- `Diagnostic.ofJson?_toJson`, `Snapshot.ofJson?_toJson`, `Trace.ofJson?_toJson`;
- `Trace.printedAs_toJson_iff`: a printed trace can be read in one way only, since no two documents
  are printed alike.
-/

namespace AnalysisHost

/-! ## Fields

An object is a list of named values, of which the first one with a name counts. -/

namespace Json

/-- The value that an object has under a name. -/
def field? : Json → String → Option Json
  | object fields, name => fields.lookup name
  | _, _ => none

def natural? : Json → Option Nat
  | number n => some n
  | _ => none

def text? : Json → Option String
  | string s => some s
  | _ => none

def items? : Json → Option (List Json)
  | array items => some items
  | _ => none

/-- The text under a name that may be left out. -/
def textIfAny? (document : Json) (name : String) : Option (Option String) :=
  match document.field? name with
  | none => some none
  | some value => value.text?.map some

@[simp] theorem natural?_number (n : Nat) : (number n).natural? = some n := rfl

@[simp] theorem text?_string (s : String) : (string s).text? = some s := rfl

@[simp] theorem items?_array (items : List Json) : (array items).items? = some items := rfl

@[simp] theorem field?_objectOf_nil (key : String) : (objectOf []).field? key = none := rfl

/-- A field that is left out hides none behind it. -/
@[simp] theorem field?_objectOf_cons (name : String) (value? : Option Json)
    (fields : List (String × Option Json)) (key : String) :
    (objectOf ((name, value?) :: fields)).field? key =
      if key = name then value?.or ((objectOf fields).field? key)
      else (objectOf fields).field? key := by
  cases value? with
  | none => simp [objectOf, field?]
  | some value =>
    by_cases h : key = name
    · simp [objectOf, field?, h]
    · simp [objectOf, field?, h, List.lookup_cons, beq_eq_false_iff_ne.mpr h]

/-- A text that was written, or left out, is read as such. -/
theorem textIfAny?_eq {document : Json} {name : String} {text? : Option String}
    (h : document.field? name = text?.map string) : document.textIfAny? name = some text? := by
  rw [textIfAny?, h]
  cases text? <;> rfl

/-- What is read back one by one is read back as a list. -/
theorem mapM_map_eq_some {α : Type} {read : Json → Option α} {write : α → Json}
    (h : ∀ a, read (write a) = some a) (as : List α) : (as.map write).mapM read = some as := by
  induction as with
  | nil => rfl
  | cons a as ih => simp [h, ih]

end Json

/-! ## Diagnostics and snapshots

The readers spell out every field and every word, so what is printed is tied down by texts that
stand here. -/

def Severity.ofText? : String → Option Severity
  | "error" => some .error
  | "warning" => some .warning
  | "note" => some .note
  | _ => none

/-- The words of severities are told apart. -/
@[simp] theorem Severity.ofText?_text (s : Severity) : ofText? s.text = some s := by
  cases s <;> rfl

def Phase.ofText? : String → Option Phase
  | "attribute" => some .attribution
  | "flow" => some .flow
  | _ => none

@[simp] theorem Phase.ofText?_text (p : Phase) : ofText? p.text = some p := by
  cases p <;> rfl

def Diagnostic.ofJson? (document : Json) : Option Diagnostic := do
  let severity ← (← document.field? "severity").text?
  return {
    severity := ← Severity.ofText? severity
    source := ← (← document.field? "source").text?
    message := ← (← document.field? "message").text?
    unit? := ← document.textIfAny? "unit"
    location? := ← document.textIfAny? "location" }

/-- **A diagnostic** is read back as it was. -/
theorem Diagnostic.ofJson?_toJson (d : Diagnostic) : ofJson? d.toJson = some d := by
  have hunit : d.toJson.textIfAny? "unit" = some d.unit? :=
    Json.textIfAny?_eq (by simp [toJson])
  have hlocation : d.toJson.textIfAny? "location" = some d.location? :=
    Json.textIfAny?_eq (by simp [toJson])
  rw [ofJson?, hunit, hlocation]
  simp [toJson]

def Snapshot.ofJson? (document : Json) : Option Snapshot := do
  let phase? ← document.textIfAny? "phase"
  return {
    callback := ← (← document.field? "callback").text?
    phase? := ← phase?.mapM Phase.ofText?
    unit? := ← document.textIfAny? "unit"
    taskEvents := ← (← document.field? "task_events").natural?
    diagnostics := ← (← (← document.field? "diagnostics").items?).mapM Diagnostic.ofJson? }

/-- **A snapshot** is read back with all its diagnostics. -/
theorem Snapshot.ofJson?_toJson (s : Snapshot) : ofJson? s.toJson = some s := by
  have hphase : s.toJson.textIfAny? "phase" = some (s.phase?.map Phase.text) :=
    Json.textIfAny?_eq (by simp [toJson, Function.comp_def])
  have hword : (s.phase?.map Phase.text).mapM Phase.ofText? = some s.phase? := by
    cases s.phase? with
    | none => rfl
    | some p => simp
  have hunit : s.toJson.textIfAny? "unit" = some s.unit? :=
    Json.textIfAny?_eq (by simp [toJson])
  have hdiagnostics : (s.diagnostics.map Diagnostic.toJson).mapM Diagnostic.ofJson? =
      some s.diagnostics := Json.mapM_map_eq_some Diagnostic.ofJson?_toJson s.diagnostics
  rw [ofJson?, hphase, hunit]
  simp [toJson, hword, hdiagnostics]

/-! ## Traces

A trace that is read from a file is one that prints to the text of the file. It is unique, so a file
says one thing about a run. -/

namespace Trace

def ofJson? (document : Json) : Option Trace := do
  return {
    host := ← (← document.field? "host").text?
    version := ← (← document.field? "version").text?
    taskEvents := ← (← document.field? "task_events").natural?
    snapshots := ← (← (← document.field? "snapshots").items?).mapM Snapshot.ofJson? }

/-- **A trace** is read back with all its snapshots. -/
theorem ofJson?_toJson (t : Trace) : ofJson? t.toJson = some t := by
  have hsnapshots : (t.snapshots.map Snapshot.toJson).mapM Snapshot.ofJson? = some t.snapshots :=
    Json.mapM_map_eq_some Snapshot.ofJson?_toJson t.snapshots
  simp [ofJson?, toJson, Json.field?, List.lookup_cons, hsnapshots]

/-- A text is a printed document, and this is the trace that is read there. -/
def PrintedAs (text : String) (trace : Trace) : Prop :=
  ∃ document : Json, text = document.render ∧ ofJson? document = some trace

/-- **A printed trace is read back**, and nothing else can be read there. -/
theorem printedAs_toJson_iff (t trace : Trace) : PrintedAs t.toJson.render trace ↔ trace = t := by
  constructor
  · rintro ⟨document, hprinted, htrace⟩
    rw [← Json.render_injective hprinted, ofJson?_toJson] at htrace
    exact (Option.some.inj htrace).symm
  · rintro rfl
    exact ⟨trace.toJson, rfl, trace.ofJson?_toJson⟩

end Trace

namespace PhaseTrace

/-- A trace is in the file for it, in a directory: the file is a printed document, and this is the
trace that is read there. -/
def Written (files : Files) (directory : String) (trace : Trace) : Prop :=
  ∃ text, files.readText? (Files.inDirectory directory traceFile) = some text ∧
    Trace.PrintedAs text trace

variable {files : Files} {directory : String}

/-- Of a file that holds a printed trace, this trace is read and no other. -/
theorem written_iff_of_readText? {t trace : Trace}
    (h : files.readText? (Files.inDirectory directory traceFile) = some t.toJson.render) :
    Written files directory trace ↔ trace = t := by
  unfold Written
  rw [h, ← Trace.printedAs_toJson_iff]
  simp

end PhaseTrace

end AnalysisHost
