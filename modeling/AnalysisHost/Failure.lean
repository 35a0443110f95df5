import AnalysisHost.Status

/-!
# Failures and escalations

An `Escalation` is a request to abort the whole run with a given status and message. On its way out
it is wrapped: the analysis and the host put layers of context around whatever error a callback
returns. A `Failure` is such an error with its layers. `Failure.escalation?` digs the request out
again, however deep it lies, so that the run ends with exactly the status and message that the
analysis asked for; a failure without one is an accident, and is shown with all its layers.
-/

namespace AnalysisHost

/-- A request to abort the run. -/
structure Escalation where
  status : AbortStatus
  message : String
  deriving DecidableEq, Repr

def Escalation.exitStatus (e : Escalation) : ExitStatus := e.status.toExitStatus

/-- One link of a failure: an escalation, or anything else, of which only the text is known. A text
that an escalation would show is not an escalation. -/
inductive Cause where
  | text (message : String)
  | escalation (e : Escalation)
  deriving DecidableEq, Repr

namespace Cause

def message : Cause → String
  | text message => message
  | escalation e => e.message

/-- The escalation that a link is. -/
def escalation? : Cause → Option Escalation
  | text _ => none
  | escalation e => some e

end Cause

/-- An error at the root, and the layers around it, outermost first. -/
structure Failure where
  layers : List Cause := []
  root : Cause
  deriving DecidableEq, Repr

namespace Failure

def escalate (status : AbortStatus) (message : String) : Failure :=
  { root := .escalation ⟨status, message⟩ }

def ofText (message : String) : Failure := { root := .text message }

def wrap (f : Failure) (layer : String) : Failure := { f with layers := .text layer :: f.layers }

/-- Put several layers around a failure, the first one innermost. -/
def wrapAll (f : Failure) (layers : List String) : Failure := layers.foldl wrap f

/-- All links, outermost first. -/
def chain (f : Failure) : List Cause := f.layers ++ [f.root]

/-- What every link shows, outermost first. -/
def messages (f : Failure) : List String := f.chain.map Cause.message

/-- The outermost escalation among the links. -/
def escalation? (f : Failure) : Option Escalation := f.chain.findSome? Cause.escalation?

/-- A failure on one line, outermost layer first. -/
def text (f : Failure) : String := ": ".intercalate f.messages

/-! ### Layers hide nothing -/

@[simp] theorem messages_wrap (f : Failure) (layer : String) :
    (f.wrap layer).messages = layer :: f.messages := rfl

@[simp] theorem escalation?_wrap (f : Failure) (layer : String) :
    (f.wrap layer).escalation? = f.escalation? := rfl

theorem escalation?_wrapAll (f : Failure) (layers : List String) :
    (f.wrapAll layers).escalation? = f.escalation? := by
  induction layers generalizing f with
  | nil => rfl
  | cons l ls ih => exact (ih (f.wrap l)).trans (escalation?_wrap f l)

theorem messages_wrapAll (f : Failure) (layers : List String) :
    (f.wrapAll layers).messages = layers.reverse ++ f.messages := by
  induction layers generalizing f with
  | nil => rfl
  | cons l ls ih =>
    have := ih (f.wrap l)
    simp only [wrapAll, List.foldl_cons] at this ⊢
    simp [this]

end Failure

end AnalysisHost
