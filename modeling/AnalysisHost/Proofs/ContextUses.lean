import AnalysisHost.Context
import Mathlib.Data.Set.Card

/-!
# Calls on the shared context

The context keeps boxes whose type is not known from outside. To those who call on it, it is a
partial map from kinds to values beside a list of mailboxes. `Contents` are this map and these
mailboxes; what a call answers and leaves is said there in their terms, with no box in sight.

* `contents_use`, for one call, and `inTurn_map`, for any number of them: the calls on a context are
  those on its contents.
* `Contents.use_congr` and `Contents.use_elsewhere`: a call finds and changes only what is of its own
  kind. So the answers at one kind are those to the calls on that kind alone (`Contents.inTurn_apart`).
* `ActsAsMap`: what follows for every sequence of calls on a new context.
-/

namespace AnalysisHost

namespace Context

/-! ### Calls and their answers -/

section Calls

variable {κ : Type} {Value : κ → Type}

/-- A call on the context. Those that hand out a value to be changed in place (`change`, `changeD`)
come with what is done to it. -/
inductive Use (Value : κ → Type) where
  | put (k : κ) (v : Value k)
  | get (k : κ)
  | change (k : κ) (f : Value k → Value k)
  | changeD (k : κ) (default : Value k) (f : Value k → Value k)
  | contains (k : κ)
  | take (k : κ)
  | listen
  | notify (event : TaskEvent)

/-- What a call gives back. -/
inductive Answer (Value : κ → Type) where
  | value (k : κ) (v? : Option (Value k))
  | holds (b : Bool)
  | number (listener : Nat)
  | told (deliveries : List Delivery)

namespace Use

/-- The kind that a call is on; the calls on the listeners are on none. -/
def kind? : Use Value → Option κ
  | .put k _ | .get k | .change k _ | .changeD k _ _ | .contains k | .take k => some k
  | .listen | .notify _ => none

def isListen : Use Value → Bool
  | .listen => true
  | _ => false

def event? : Use Value → Option TaskEvent
  | .notify event => some event
  | _ => none

end Use

/-- Make calls one after the other: their answers, and the state in the end. -/
def inTurn {σ ι α : Type} (call : σ → ι → α × σ) (s : σ) : List ι → List α × σ
  | [] => ([], s)
  | u :: us =>
    let one := call s u
    let others := inTurn call one.2 us
    (one.1 :: others.1, others.2)

variable [DecidableEq κ]

/-- Make a call on a context. -/
def use (c : Context Value) : Use Value → Answer Value × Context Value
  | .put k v => (.value k (c.put k v).1, (c.put k v).2)
  | .get k => (.value k (c.get? k), c)
  | .change k f => (.value k (c.modify? k f).1, (c.modify? k f).2)
  | .changeD k default f =>
    (.value k (some (c.modifyD k default f).1), (c.modifyD k default f).2)
  | .contains k => (.holds (c.contains k), c)
  | .take k => (.value k (c.take k).1, (c.take k).2)
  | .listen => (.number c.listen.1, c.listen.2)
  | .notify event => (.told (c.deliveries event), c.notify event)

/-- The answers to calls on a new context. -/
def answers (uses : List (Use Value)) : List (Answer Value) := (inTurn use empty uses).1

/-- A new context after calls on it. -/
def after (uses : List (Use Value)) : Context Value := (inTurn use empty uses).2

/-- Of the answers to calls, those on one kind, or on none. -/
def answersAt (kind? : Option κ) (uses : List (Use Value)) (answers : List (Answer Value)) :
    List (Answer Value) :=
  ((uses.zip answers).filter fun p => p.1.kind? = kind?).map (·.2)

end Calls

section InTurn

variable {σ τ ι α : Type} {call : σ → ι → α × σ}

theorem inTurn_append (s : σ) (us vs : List ι) :
    (inTurn call s (us ++ vs)).2 = (inTurn call (inTurn call s us).2 vs).2 := by
  induction us generalizing s with
  | nil => rfl
  | cons u us ih => exact ih (call s u).2

/-- If each call on a state is that call on its image, so are calls in turn. -/
theorem inTurn_map {call' : τ → ι → α × τ} {f : σ → τ}
    (h : ∀ s u, (call s u).map id f = call' (f s) u) (s : σ) (us : List ι) :
    (inTurn call s us).map id f = inTurn call' (f s) us := by
  induction us generalizing s with
  | nil => rfl
  | cons u us ih =>
    simp only [inTurn, ← h s u, Prod.map_fst, Prod.map_snd, ← ih (call s u).2]
    rfl

end InTurn

/-! ### What is in a context -/

variable {κ : Type} {Value : κ → Type}

/-- A partial map from kinds to values, and what each listener has heard. -/
structure Contents (Value : κ → Type) where
  value? : (k : κ) → Option (Value k)
  heard : List (List TaskEvent)

variable [DecidableEq κ]

namespace Contents

/-- Nothing is stored, and nobody listens. -/
def nothing : Contents Value := ⟨fun _ => none, []⟩

/-- Have another value, or no value, at a kind. -/
def set (m : Contents Value) (k : κ) (v? : Option (Value k)) : Contents Value :=
  { m with value? := Function.update m.value? k v? }

/-- Make a call on contents. -/
def use (m : Contents Value) : Use Value → Answer Value × Contents Value
  | .put k v => (.value k (m.value? k), m.set k (some v))
  | .get k => (.value k (m.value? k), m)
  | .change k f => (.value k ((m.value? k).map f), m.set k ((m.value? k).map f))
  | .changeD k default f =>
    let v := f ((m.value? k).getD default)
    (.value k (some v), m.set k (some v))
  | .contains k => (.holds (m.value? k).isSome, m)
  | .take k => (.value k (m.value? k), m.set k none)
  | .listen => (.number m.heard.length, { m with heard := m.heard ++ [[]] })
  | .notify event =>
    (.told ((List.range m.heard.length).map fun i => ⟨i, event⟩),
      { m with heard := m.heard.map (· ++ [event]) })

/-- The same at a kind; at no kind, the same with the listeners. -/
def SameAt (m m' : Contents Value) : Option κ → Prop
  | some k => m.value? k = m'.value? k
  | none => m.heard = m'.heard

theorem set_self (m : Contents Value) (k : κ) : m.set k (m.value? k) = m := by
  rw [set, Function.update_eq_self]

theorem value?_set_self (m : Contents Value) (k : κ) (v? : Option (Value k)) :
    (m.set k v?).value? k = v? := by
  simp [set]

@[simp] theorem heard_set (m : Contents Value) (k : κ) (v? : Option (Value k)) :
    (m.set k v?).heard = m.heard := rfl

/-- To set a value is seen at no other kind, and not by the listeners. -/
theorem set_sameAt (m : Contents Value) {k : κ} (v? : Option (Value k)) {kind? : Option κ}
    (h : some k ≠ kind?) : SameAt (m.set k v?) m kind? := by
  cases kind? with
  | none => rfl
  | some j =>
    have hj : j ≠ k := fun e => h (congrArg some e.symm)
    exact Function.update_of_ne hj v? m.value?

/-- A call finds, and leaves, the same wherever it finds the same at its own kind. -/
theorem use_congr {m m' : Contents Value} {u : Use Value} (h : SameAt m m' u.kind?) :
    (m.use u).1 = (m'.use u).1 ∧ SameAt (m.use u).2 (m'.use u).2 u.kind? := by
  cases u with
  | put k v | get k | change k f | changeD k default f | contains k | take k =>
    have hk : m.value? k = m'.value? k := h
    simp [use, Use.kind?, SameAt, hk, value?_set_self]
  | listen | notify event =>
    have hheard : m.heard = m'.heard := h
    simp [use, Use.kind?, SameAt, hheard]

/-- Elsewhere a call leaves all as it is. -/
theorem use_elsewhere (m : Contents Value) {u : Use Value} {kind? : Option κ}
    (h : u.kind? ≠ kind?) : SameAt (m.use u).2 m kind? := by
  cases u with
  | put k v | change k f | changeD k default f | take k => exact m.set_sameAt _ h
  | get k | contains k => cases kind? <;> rfl
  | listen | notify event =>
    cases kind? with
    | none => exact absurd rfl h
    | some k => rfl

omit [DecidableEq κ] in
theorem SameAt.trans {m m' m'' : Contents Value} {kind? : Option κ} (h : SameAt m m' kind?)
    (h' : SameAt m' m'' kind?) : SameAt m m'' kind? := by
  cases kind? with
  | none => exact Eq.trans h h'
  | some k => exact Eq.trans h h'

/-- At one kind, calls in turn are as good as those on that kind alone. -/
theorem inTurn_apart (kind? : Option κ) (uses : List (Use Value)) {m m' : Contents Value}
    (h : SameAt m m' kind?) :
    answersAt kind? uses (inTurn use m uses).1 =
        (inTurn use m' (uses.filter fun u => u.kind? = kind?)).1 ∧
      SameAt (inTurn use m uses).2 (inTurn use m' (uses.filter fun u => u.kind? = kind?)).2
        kind? := by
  -- The contents on the right stand still at the calls that are left out: those on the left are
  -- then other ones, but the same at `kind?`, so the induction is over all such pairs.
  induction uses generalizing m m' with
  | nil => exact ⟨rfl, h⟩
  | cons u us ih =>
    by_cases hu : u.kind? = kind?
    · subst hu
      obtain ⟨hanswer, hleft⟩ := use_congr h
      obtain ⟨hanswers, hlast⟩ := ih hleft
      rw [List.filter_cons_of_pos (by simp)]
      refine ⟨?_, hlast⟩
      simp only [inTurn, ← hanswer, ← hanswers]
      simp [answersAt]
    · obtain ⟨hanswers, hlast⟩ := ih ((use_elsewhere m hu).trans h)
      rw [List.filter_cons_of_neg (by simpa using hu)]
      refine ⟨?_, hlast⟩
      rw [← hanswers]
      simp [inTurn, answersAt, hu]

/-- Where no call is made, the value stays. -/
theorem value?_inTurn_of_unused (m : Contents Value) {k : κ} {uses : List (Use Value)}
    (h : ∀ u ∈ uses, u.kind? ≠ some k) : (inTurn use m uses).2.value? k = m.value? k := by
  have hnone : uses.filter (fun u => u.kind? = some k) = [] := by simpa using h
  have hsame : SameAt m m (some k) := rfl
  have hlast := (inTurn_apart (some k) uses hsame).2
  rwa [hnone] at hlast

/-! ### Mailboxes

Mailboxes are only ever added, and events only added to them. So what a listener has heard is the
events since it was installed. -/

/-- A mailbox is added by a call that listens, and never taken away. -/
theorem length_heard_use (m : Contents Value) (u : Use Value) :
    (m.use u).2.heard.length = m.heard.length + (if u.isListen then 1 else 0) := by
  cases u with
  | listen => simp [use, Use.isListen]
  | notify event => simp [use, Use.isListen]
  | put k v | get k | change k f | changeD k default f | contains k | take k => rfl

/-- So there are as many mailboxes as calls that listened, and those from before. -/
theorem length_heard_inTurn (m : Contents Value) (uses : List (Use Value)) :
    (inTurn use m uses).2.heard.length = m.heard.length + uses.countP Use.isListen := by
  induction uses generalizing m with
  | nil => rfl
  | cons u us ih =>
    show (inTurn use (m.use u).2 us).2.heard.length = _
    rw [ih, length_heard_use, List.countP_cons]
    omega

/-- A mailbox gets the event of a call, if the call has one, behind what it holds. -/
theorem heard_use (m : Contents Value) (u : Use Value) {i : Nat} {events : List TaskEvent}
    (h : m.heard[i]? = some events) :
    (m.use u).2.heard[i]? = some (events ++ u.event?.toList) := by
  cases u with
  | listen =>
    obtain ⟨hi, rfl⟩ := List.getElem?_eq_some_iff.mp h
    simp [use, Use.event?, List.getElem?_append_left hi]
  | notify event => simp [use, Use.event?, h]
  | put k v | get k | change k f | changeD k default f | contains k | take k =>
    simpa [use, Use.event?] using h

/-- From its installation on, a listener hears all events in order. -/
theorem heard_inTurn (m : Contents Value) (uses : List (Use Value)) {i : Nat}
    {events : List TaskEvent} (h : m.heard[i]? = some events) :
    (inTurn use m uses).2.heard[i]? = some (events ++ uses.filterMap Use.event?) := by
  induction uses generalizing m events with
  | nil => simpa [inTurn] using h
  | cons u us ih =>
    show (inTurn use (m.use u).2 us).2.heard[i]? = _
    rw [ih (m.use u).2 (heard_use m u h), List.append_assoc]
    cases hu : u.event? <;> simp [hu]

end Contents

/-- What is in a context. -/
def contents (c : Context Value) : Contents Value := ⟨c.get?, c.listeners.map (·.heard)⟩

/-- To those who look up, a new value is an update of the map at one kind. -/
theorem get?_put (c : Context Value) (k : κ) (v : Value k) :
    (c.put k v).2.get? = Function.update c.get? k (some v) := by
  rw [Function.eq_update_iff]
  exact ⟨c.slots.get?_put_self k v, fun _ h => c.slots.get?_put_of_ne v h⟩

theorem get?_take (c : Context Value) (k : κ) :
    (c.take k).2.get? = Function.update c.get? k none := by
  rw [Function.eq_update_iff]
  exact ⟨c.slots.get?_erase_self k, fun _ h => c.slots.get?_erase_of_ne h⟩

theorem contents_put (c : Context Value) (k : κ) (v : Value k) :
    (c.put k v).2.contents = c.contents.set k (some v) := by
  rw [contents, get?_put]
  rfl

theorem contents_take (c : Context Value) (k : κ) :
    (c.take k).2.contents = c.contents.set k none := by
  rw [contents, get?_take]
  rfl

/-- A value that is there is changed in place. Where there is none, nothing happens. -/
theorem modify?_eq (c : Context Value) (k : κ) (f : Value k → Value k) :
    (c.modify? k f).map id contents =
      ((c.get? k).map f, c.contents.set k ((c.get? k).map f)) := by
  cases h : c.get? k with
  | none =>
    have hkept : c.modify? k f = (none, c) := by
      rw [modify?, show c.slots.get? k = none from h]
    have hset : c.contents.set k none = c.contents := by
      rw [← show c.contents.value? k = none from h, Contents.set_self]
    rw [hkept, Option.map_none, hset]
    rfl
  | some v =>
    have hput : c.modify? k f = (some (f v), (c.put k (f v)).2) := by
      rw [modify?, show c.slots.get? k = some v from h]
      rfl
    rw [hput, Option.map_some, ← contents_put]
    rfl

/-- A change from a default always leaves a value. -/
theorem modifyD_eq (c : Context Value) (k : κ) (default : Value k) (f : Value k → Value k) :
    (c.modifyD k default f).map id contents =
      (f ((c.get? k).getD default),
        c.contents.set k (some (f ((c.get? k).getD default)))) := by
  rw [← contents_put, modifyD, Slots.getD_eq]
  rfl

theorem contents_listen (c : Context Value) :
    c.listen.2.contents = { c.contents with heard := c.contents.heard ++ [[]] } := by
  rw [contents, listen, List.map_append]
  rfl

/-- An event goes to every mailbox. -/
theorem contents_notify (c : Context Value) (event : TaskEvent) :
    (c.notify event).contents =
      { c.contents with heard := c.contents.heard.map (· ++ [event]) } := by
  rw [contents, listeners_notify, List.map_map, contents, List.map_map]
  rfl

theorem heard_eq (c : Context Value) (i : Nat) : c.heard i = (c.contents.heard[i]?).getD [] := by
  rw [heard, contents, List.getElem?_map]
  cases c.listeners[i]? <;> rfl

theorem length_heard_contents (c : Context Value) :
    c.contents.heard.length = c.listeners.length := List.length_map _

/-- A call on a context is that call on its contents. -/
theorem contents_use (c : Context Value) (u : Use Value) :
    (c.use u).map id contents = c.contents.use u := by
  cases u with
  | put k v => exact congrArg (Prod.mk _) (c.contents_put k v)
  | get k => rfl
  | change k f => exact congrArg (Prod.map (Answer.value k) id) (c.modify?_eq k f)
  | changeD k default f =>
    exact congrArg (Prod.map (Answer.value k ∘ some) id) (c.modifyD_eq k default f)
  | contains k => exact Prod.ext (congrArg Answer.holds (c.slots.contains_eq k)) rfl
  | take k => exact congrArg (Prod.mk _) (c.contents_take k)
  | listen =>
    exact Prod.ext (congrArg Answer.number c.length_heard_contents.symm) c.contents_listen
  | notify event =>
    refine Prod.ext (congrArg Answer.told ?_) (c.contents_notify event)
    rw [length_heard_contents]
    exact c.deliveries_eq event

/-! ### Calls on a new context

A host begins with a context in which nothing is stored and nobody listens; `after` is this context
after some calls. -/

theorem contents_empty : (empty : Context Value).contents = .nothing := rfl

/-- Calls on a new context are the calls on contents with nothing in them. -/
theorem inTurn_contents (uses : List (Use Value)) :
    (inTurn use (empty : Context Value) uses).map id contents =
      inTurn Contents.use .nothing uses := by
  rw [← contents_empty]
  exact inTurn_map contents_use empty uses

theorem answers_eq (uses : List (Use Value)) :
    answers uses = (inTurn Contents.use .nothing uses).1 :=
  congrArg (·.1) (inTurn_contents uses)

theorem contents_after (uses : List (Use Value)) :
    (after uses).contents = (inTurn Contents.use .nothing uses).2 :=
  congrArg (·.2) (inTurn_contents uses)

/-- What is found in the end is what the same calls leave in the map. -/
theorem get?_after (uses : List (Use Value)) (k : κ) :
    (after uses).get? k = (inTurn Contents.use .nothing uses).2.value? k :=
  congrArg (fun m => m.value? k) (contents_after uses)

theorem after_append (us vs : List (Use Value)) :
    after (us ++ vs) = (inTurn use (after us) vs).2 := inTurn_append empty us vs

/-- What is at a kind stays there through calls that are not on this kind. -/
theorem get?_after_of_unused (upTo : List (Use Value)) {k : κ} {since : List (Use Value)}
    (h : ∀ u ∈ since, u.kind? ≠ some k) :
    (after (upTo ++ since)).get? k = (after upTo).get? k := by
  rw [get?_after, inTurn_append, Contents.value?_inTurn_of_unused _ h, get?_after]

theorem get?_use_of_ne (c : Context Value) {u : Use Value} {k : κ} (h : u.kind? ≠ some k) :
    (c.use u).2.get? k = c.get? k := by
  have hcontents : (c.use u).2.contents = (c.contents.use u).2 := congrArg (·.2) (c.contents_use u)
  have hsame : (c.contents.use u).2.value? k = c.contents.value? k :=
    c.contents.use_elsewhere h
  rw [← hcontents] at hsame
  exact hsame

/-- A call on a kind is not heard of by the listeners. -/
theorem listeners_use_of_kind (c : Context Value) {u : Use Value} {k : κ}
    (h : u.kind? = some k) : (c.use u).2.listeners = c.listeners := by
  cases u with
  | change j f =>
    show (c.modify? j f).2.listeners = _
    rw [modify?]
    split <;> rfl
  | put j v | get j | changeD j default f | contains j | take j => rfl
  | listen | notify event => cases h

theorem length_listeners_after (uses : List (Use Value)) :
    (after uses).listeners.length = uses.countP Use.isListen := by
  rw [← length_heard_contents, contents_after, Contents.length_heard_inTurn]
  exact Nat.zero_add _

/-- A listener has heard all events since its installation. -/
theorem heard_after (before since : List (Use Value)) :
    (after (before ++ .listen :: since)).heard (before.countP Use.isListen) =
      since.filterMap Use.event? := by
  -- Its number is that of the listeners before it, and its mailbox is empty.
  have hnew : (after (before ++ [.listen])).contents.heard[before.countP Use.isListen]? =
      some [] := by
    rw [after_append, ← length_listeners_after, ← length_heard_contents]
    show (after before).listen.2.contents.heard[_]? = _
    rw [contents_listen]
    exact List.getElem?_concat_length
  rw [contents_after] at hnew
  have hheard := Contents.heard_inTurn _ since hnew
  rw [← inTurn_append, List.append_assoc, ← contents_after] at hheard
  rw [heard_eq]
  exact congrArg (·.getD []) hheard

/-! ### How much there is

Sizes are counted without repetition: as a number of kinds, and not of entries. -/

/-- The kinds of which there is a value. -/
def filled (c : Context Value) : Set κ := {k | (c.get? k).isSome}

/-- A kind is filled if it is among those of the entries. -/
theorem filled_eq (c : Context Value) : c.filled = {k | k ∈ c.slots.entries.map (·.1)} := by
  ext k
  show (c.slots.get? k).isSome = true ↔ _
  rw [← c.slots.contains_eq k]
  exact Slot.isSome_find?_iff

theorem finite_filled (c : Context Value) : c.filled.Finite := by
  rw [filled_eq]
  exact List.finite_toSet _

/-- The size of the slots is the number of kinds that are filled, since no kind has two entries. -/
theorem ncard_filled (c : Context Value) : c.filled.ncard = c.slots.size := by
  rw [filled_eq, ← List.coe_toFinset, Set.ncard_coe_finset,
    List.toFinset_card_of_nodup c.slots.nodup_kinds, List.length_map]
  rfl

/-! ### The whole of it -/

/-- A context that was new before these calls has answered them as a partial map with a list of
listeners would, and so it will answer the next one. -/
structure ActsAsMap (uses : List (Use Value)) : Prop where
  answers_eq : answers uses = (inTurn Contents.use .nothing uses).1
  contents_eq : (after uses).contents = (inTurn Contents.use .nothing uses).2
  /-- No box is refused: what is under a kind opens to those who ask for the kind. -/
  opens : ∀ k box, (after uses).slots.box? k = some box → ∃ v : Value k, box = ⟨k, v⟩
  /-- `put` and `take` give back what the last call on the kind left there. -/
  left : ∀ upTo since k, uses = upTo ++ since → (∀ u ∈ since, u.kind? ≠ some k) →
    (∀ v, ((after uses).use (.put k v)).1 = .value k ((after upTo).get? k)) ∧
      ((after uses).use (.take k)).1 = .value k ((after upTo).get? k)
  /-- `changeD` starts from the default only when nothing is stored. -/
  starts : ∀ k default f, ((after uses).use (.changeD k default f)).1 =
    .value k (some (f (((after uses).get? k).getD default)))
  /-- At each kind, and with the listeners, it is as if there had been no other calls. -/
  apart : ∀ kind?, answersAt kind? uses (answers uses) =
    answers (uses.filter fun u => u.kind? = kind?)
  /-- A call changes nothing at other kinds. -/
  elsewhere : ∀ u k, u.kind? ≠ some k → ((after uses).use u).2.get? k = (after uses).get? k
  /-- A call on a kind changes nothing with the listeners. -/
  listeners_kept : ∀ u k, u.kind? = some k →
    ((after uses).use u).2.listeners = (after uses).listeners
  /-- An event goes to every installed listener once, in order of installation. -/
  told : ∀ event, ((after uses).use (.notify event)).1 =
    .told ((List.range (uses.countP Use.isListen)).map fun i => ⟨i, event⟩)
  heard_once : ∀ event, ∀ i < uses.countP Use.isListen,
    ((after uses).use (.notify event)).2.heard i = (after uses).heard i ++ [event]
  slots_kept : ∀ event, ((after uses).use (.notify event)).2.slots = (after uses).slots
  /-- So a listener has heard all events since its installation, and no others. -/
  heard : ∀ before since, uses = before ++ .listen :: since →
    (after uses).heard (before.countP Use.isListen) = since.filterMap Use.event?
  /-- The description counts the kinds of which there is a value, and the listeners. -/
  finite : (after uses).filled.Finite
  described : (after uses).describe =
    s!"CompilerContext \x7b slots: {(after uses).filled.ncard}, listeners: {uses.countP Use.isListen} \x7d"

/-- Through any calls, the context is a partial map from kinds to values with a list of listeners. -/
theorem acts_as_map (uses : List (Use Value)) : ActsAsMap uses where
  answers_eq := answers_eq uses
  contents_eq := contents_after uses
  opens k box h := by
    obtain ⟨k', v⟩ := box
    obtain rfl := Slots.kind_of_box? h
    exact ⟨v, rfl⟩
  left upTo since k huses hsince := by
    subst huses
    rw [← get?_after_of_unused upTo hsince]
    exact ⟨fun v => rfl, rfl⟩
  starts k default f := by
    have hanswer := congrArg (·.1) ((after uses).modifyD_eq k default f)
    exact congrArg (Answer.value k ∘ some) hanswer
  apart kind? := by
    rw [answers_eq, answers_eq]
    have hsame : Contents.SameAt (.nothing : Contents Value) .nothing kind? := by
      cases kind? <;> rfl
    exact (Contents.inTurn_apart kind? uses hsame).1
  elsewhere u k h := (after uses).get?_use_of_ne h
  listeners_kept u k h := (after uses).listeners_use_of_kind h
  told event := by
    rw [← length_listeners_after]
    exact congrArg Answer.told ((after uses).deliveries_eq event)
  heard_once event i h := by
    rw [← length_listeners_after] at h
    exact (after uses).heard_notify event h
  slots_kept event := (after uses).slots_notify event
  heard before since huses := by
    subst huses
    exact heard_after before since
  finite := (after uses).finite_filled
  described := by
    rw [ncard_filled, ← length_listeners_after]
    rfl

example :
    answers [.put true 1, .put false 7, .put true 2, .change true (· + 1), .take true,
        .contains true, .get false] =
      ([.value true none, .value false none, .value true (some 1), .value true (some 3),
        .value true (some 3), .holds false, .value false (some 7)] :
        List (Answer fun _ : Bool => Nat)) := rfl

end Context

end AnalysisHost
