import AnalysisHost.Files
import AnalysisHost.Manifest.Error
import AnalysisHost.Manifest.Schema
import AnalysisHost.Toml.Document

/-!
# Reading manifests

A manifest is read from a text in three steps — the text is a document, the document describes a
manifest, the manifest is valid — and from a file by reading its text first.
-/

namespace AnalysisHost.Manifest

/-- The name that a text goes by if it does not come from a file. -/
def defaultFile : String := "units.toml"

def parse (text : String) (file : String := defaultFile) : Except Error Manifest :=
  match (Toml.parse text).bind ofEntries? with
  | none => .error (.malformed file)
  | some m =>
    match m.check with
    | .error violation => .error (.invalid file text violation)
    | .ok () => .ok m

/-- A manifest with the file that it was read from. -/
structure Source where
  path : String
  text : String
  manifest : Manifest
  deriving DecidableEq, Repr

def load (files : Files) (path : String) : Except Error Source :=
  match files.readText? path with
  | none => .error (.unreadable path)
  | some text => (parse text path).map fun manifest => { path, text, manifest }

/-- Whatever is read from a text is valid. -/
theorem valid_of_parse {text file : String} {m : Manifest} (h : parse text file = .ok m) :
    m.Valid := by
  unfold parse at h
  split at h
  · simp at h
  · split at h
    · simp at h
    · next hc =>
      simp only [Except.ok.injEq] at h
      subst h
      exact hc

end AnalysisHost.Manifest
