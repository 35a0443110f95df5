import AnalysisHost.Phase
import AnalysisHost.Slots

/-!
# The shared context

What the host keeps for its analyses during a run: typed slots, through which they may share values,
and listeners, which hear of every task boundary.

A listener is a mailbox. Installing one gives back its number, and whoever installed it reads from
the context what it has heard. Listeners can do nothing else, so they can never stop a run.
-/

namespace AnalysisHost

/-- Whether a task of the host is about to start or has just ended. -/
inductive TaskStage where
  | started
  | finished
  deriving DecidableEq, Repr

def TaskStage.text : TaskStage → String
  | .started => "started"
  | .finished => "finished"

/-- The boundary of a host task on one unit. -/
structure TaskEvent where
  phase : Phase
  stage : TaskStage
  unit : String
  deriving DecidableEq, Repr

/-- A phase begins on a unit. -/
def TaskEvent.started (phase : Phase) (unit : String) : TaskEvent := ⟨phase, .started, unit⟩

/-- A phase is through with a unit. -/
def TaskEvent.finished (phase : Phase) (unit : String) : TaskEvent := ⟨phase, .finished, unit⟩

/-- A mailbox for task events. -/
structure Listener where
  /-- The events heard since the listener was installed, in order. -/
  heard : List TaskEvent := []
  deriving DecidableEq, Repr

/-- An event as it reaches one listener. -/
structure Delivery where
  listener : Nat
  event : TaskEvent
  deriving DecidableEq, Repr

variable {κ : Type}

/-- Tell listeners of an event, one after the other and each by its number: who was told, and the
listeners then. -/
def tell (event : TaskEvent) (number : Nat) : List Listener → List Delivery × List Listener
  | [] => ([], [])
  | l :: rest =>
    let told := tell event (number + 1) rest
    (⟨number, event⟩ :: told.1, { l with heard := l.heard ++ [event] } :: told.2)

theorem deliveries_tell (event : TaskEvent) (number : Nat) (listeners : List Listener) :
    (tell event number listeners).1 =
      (List.range' number listeners.length).map fun i => ⟨i, event⟩ := by
  induction listeners generalizing number with
  | nil => rfl
  | cons l rest ih => rw [tell, ih, List.length_cons, List.range'_succ, List.map_cons]

theorem listeners_tell (event : TaskEvent) (number : Nat) (listeners : List Listener) :
    (tell event number listeners).2 =
      listeners.map fun l => { l with heard := l.heard ++ [event] } := by
  induction listeners generalizing number with
  | nil => rfl
  | cons l rest ih => rw [tell, ih, List.map_cons]

/-- The state that the host and its analyses share. -/
structure Context (Value : κ → Type) where
  slots : Slots Value
  /-- The listeners in order of installation; the place in this list is a listener's number. -/
  listeners : List Listener := []

namespace Context

variable {Value : κ → Type}

def empty : Context Value := { slots := .empty }

/-! ### Slots -/

section Slots

variable [DecidableEq κ]

def get? (c : Context Value) (k : κ) : Option (Value k) := c.slots.get? k

def contains (c : Context Value) (k : κ) : Bool := c.slots.contains k

def put (c : Context Value) (k : κ) (v : Value k) : Option (Value k) × Context Value :=
  (c.slots.get? k, { c with slots := c.slots.put k v })

def take (c : Context Value) (k : κ) : Option (Value k) × Context Value :=
  (c.slots.get? k, { c with slots := c.slots.erase k })

/-- Change a value in place, if there is one, and get the new one. -/
def modify? (c : Context Value) (k : κ) (f : Value k → Value k) :
    Option (Value k) × Context Value :=
  match c.slots.get? k with
  | none => (none, c)
  | some v => (some (f v), { c with slots := c.slots.put k (f v) })

/-- Change a value in place, starting from a default if there is none, and get the new one. -/
def modifyD (c : Context Value) (k : κ) (default : Value k) (f : Value k → Value k) :
    Value k × Context Value :=
  let v := f (c.slots.getD k default)
  (v, { c with slots := c.slots.put k v })

end Slots

/-! ### Listeners -/

/-- Install a listener, and get its number. -/
def listen (c : Context Value) : Nat × Context Value :=
  (c.listeners.length, { c with listeners := c.listeners ++ [{}] })

def heard (c : Context Value) (listener : Nat) : List TaskEvent :=
  match c.listeners[listener]? with
  | some l => l.heard
  | none => []

def notify (c : Context Value) (event : TaskEvent) : Context Value :=
  { c with listeners := (tell event 0 c.listeners).2 }

/-- Who hears of an event, in the order in which they hear of it. -/
def deliveries (c : Context Value) (event : TaskEvent) : List Delivery :=
  (tell event 0 c.listeners).1

/-- A one-line description: how many values and how many listeners there are. -/
def describe (c : Context Value) : String :=
  s!"CompilerContext \x7b slots: {c.slots.size}, listeners: {c.listeners.length} \x7d"

@[simp] theorem slots_notify (c : Context Value) (event : TaskEvent) :
    (c.notify event).slots = c.slots := rfl

theorem listeners_notify (c : Context Value) (event : TaskEvent) :
    (c.notify event).listeners =
      c.listeners.map fun l => { l with heard := l.heard ++ [event] } :=
  listeners_tell event 0 c.listeners

@[simp] theorem length_listeners_notify (c : Context Value) (event : TaskEvent) :
    (c.notify event).listeners.length = c.listeners.length := by simp [listeners_notify]

/-- Every listener is told of an event, in order of installation. -/
theorem deliveries_eq (c : Context Value) (event : TaskEvent) :
    c.deliveries event = (List.range c.listeners.length).map fun i => ⟨i, event⟩ := by
  rw [deliveries, deliveries_tell, List.range_eq_range']

/-- Every installed listener hears an event once. -/
theorem heard_notify (c : Context Value) (event : TaskEvent) {i : Nat}
    (h : i < c.listeners.length) : (c.notify event).heard i = c.heard i ++ [event] := by
  simp [heard, listeners_notify, h]

end Context

end AnalysisHost
