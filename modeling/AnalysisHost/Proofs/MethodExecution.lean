import AnalysisHost.Flow
import Mathlib.Data.List.Forall2
import Mathlib.Logic.Relation
import Mathlib.Order.Bounds.Defs

/-!
# Executing method bodies

A body is executed statement by statement, and `return` and `throw` stop it (`Flow.Step`). The flow
phase looks only for the first of those; `CompilationUnit.flow_agrees` says that what it finds is
what execution would show:

- a method completes normally if execution runs off the end of its body (`Flow.RunsOff`);
- an unreachable statement is the first of those that are never executed (`Flow.NeverExecuted`);
- each unreachable statement is reported once, and nothing else is.
-/

namespace AnalysisHost

namespace Flow

/-! ## Execution -/

/-- A statement is executed, and control goes from its place to the next. From a `return` or a
`throw` it goes nowhere. -/
inductive Step (body : List Statement) : Nat → Nat → Prop
  | other {i : Nat} {text : String} (h : body[i]? = some (.other text)) : Step body i (i + 1)

/-- Execution begins with the first statement and comes to a place. -/
def Reaches (body : List Statement) (i : Nat) : Prop := Relation.ReflTransGen (Step body) 0 i

/-- Execution comes to the place behind the last statement. -/
def RunsOff (body : List Statement) : Prop := Reaches body body.length

def NeverExecuted (body : List Statement) (i : Nat) : Prop := i < body.length ∧ ¬ Reaches body i

theorem reaches_zero (body : List Statement) : Reaches body 0 := .refl

theorem reaches_succ_iff {body : List Statement} {i : Nat} :
    Reaches body (i + 1) ↔ Reaches body i ∧ ∃ text, body[i]? = some (.other text) := by
  constructor
  · intro h
    rcases Relation.ReflTransGen.cases_tail h with hzero | ⟨j, hreaches, hstep⟩
    · cases hzero
    · cases hstep with
      | other hother => exact ⟨hreaches, _, hother⟩
  · rintro ⟨hreaches, text, hother⟩
    exact hreaches.tail (.other hother)

theorem exists_other_iff {body : List Statement} {i : Nat} :
    (∃ text, body[i]? = some (.other text)) ↔ ∃ s, body[i]? = some s ∧ s.isTerminal = false := by
  constructor
  · rintro ⟨text, h⟩
    exact ⟨_, h, rfl⟩
  · rintro ⟨s, h, hpasses⟩
    cases s with
    | other text => exact ⟨text, h⟩
    | ret | throw => cases hpasses

/-- Execution comes as far as control passes through every statement on the way. -/
theorem reaches_iff {body : List Statement} {i : Nat} :
    Reaches body i ↔ ∀ j < i, ∃ s, body[j]? = some s ∧ s.isTerminal = false := by
  induction i with
  | zero => exact iff_of_true (reaches_zero body) fun j hj => absurd hj (Nat.not_lt_zero j)
  | succ i ih => rw [reaches_succ_iff, exists_other_iff, ih, Nat.forall_lt_succ_right]

/-! ## Bodies that stop, and bodies that do not

A body either has no terminal statement or a first one. Both cases fix where control comes to and
how it leaves. -/

/-- Control passes through a body. -/
def RunsThrough (body : List Statement) : Prop := ∀ s ∈ body, s.isTerminal = false

/-- Control passes through a body, or there is a first statement that stops it. -/
theorem runsThrough_or_stops (body : List Statement) :
    RunsThrough body ∨
      ∃ front s back, body = front ++ s :: back ∧ RunsThrough front ∧ s.isTerminal := by
  cases hfind : body.find? Statement.isTerminal with
  | none =>
    rw [List.find?_eq_none] at hfind
    exact .inl fun s hs => Bool.eq_false_iff.mpr (hfind s hs)
  | some s =>
    obtain ⟨hstops, front, back, rfl, hfront⟩ := List.find?_eq_some_iff_append.mp hfind
    exact .inr ⟨front, s, back, rfl, fun t ht => by simpa using hfront t ht, hstops⟩

section RunsThrough

variable {front : List Statement}

theorem RunsThrough.reaches (h : RunsThrough front) (back : List Statement) {i : Nat}
    (hi : i ≤ front.length) : Reaches (front ++ back) i := by
  rw [reaches_iff]
  intro j hj
  have hlt : j < front.length := Nat.lt_of_lt_of_le hj hi
  refine ⟨front[j], ?_, h _ (List.getElem_mem hlt)⟩
  rw [List.getElem?_append_left hlt, List.getElem?_eq_getElem hlt]

theorem RunsThrough.runsOff (h : RunsThrough front) : RunsOff front := by
  have hend := h.reaches [] (Nat.le_refl _)
  rwa [List.append_nil] at hend

/-- Execution comes to the first statement that stops it, and no further. -/
theorem RunsThrough.reaches_iff_le (h : RunsThrough front) {s : Statement} (hs : s.isTerminal)
    (back : List Statement) {i : Nat} : Reaches (front ++ s :: back) i ↔ i ≤ front.length := by
  refine ⟨fun hreaches => ?_, h.reaches _⟩
  by_contra hfar
  obtain ⟨t, ht, hpasses⟩ := reaches_iff.mp hreaches front.length (Nat.lt_of_not_le hfar)
  rw [List.getElem?_append_right (Nat.le_refl _), Nat.sub_self, List.getElem?_cons_zero,
    Option.some.injEq] at ht
  rw [← ht, hs] at hpasses
  cases hpasses

/-- The search for the end of a body passes through as control does. -/
theorem RunsThrough.exitFrom_append (h : RunsThrough front) (passed : Nat) (back : List Statement) :
    exitFrom passed (front ++ back) = exitFrom (passed + front.length) back := by
  induction front generalizing passed with
  | nil => rfl
  | cons s front ih =>
    obtain ⟨hs, hfront⟩ := List.forall_mem_cons.mp h
    rw [List.cons_append, exitFrom.eq_def]
    dsimp only
    rw [if_neg (Bool.eq_false_iff.mp hs), ih hfront, List.length_cons, Nat.add_assoc,
      Nat.add_comm 1]

end RunsThrough

/-! ## What the phase finds -/

/-- Some facts are what execution shows of a method. -/
structure Facts.Describes (f : Facts) (m : Method) : Prop where
  normal : f.completesNormally = [m.name] ∧ RunsOff m.body ∨
    f.completesNormally = [] ∧ ¬ RunsOff m.body
  /-- Of the statements that are never executed, the first one is named. -/
  unreachable :
    (∃ index, f.unreachable = [⟨m.name, index⟩] ∧ IsLeast {i | NeverExecuted m.body i} index) ∨
      f.unreachable = [] ∧ ∀ i, ¬ NeverExecuted m.body i
  at_most_one : f.completesNormally.length + f.unreachable.length ≤ 1

theorem describes_of_runsThrough {m : Method} (h : RunsThrough m.body) :
    (facts [m]).Describes m := by
  have hexit : exit m = .normal := by
    have hend := h.exitFrom_append 0 []
    rwa [List.append_nil] at hend
  have hfacts : facts [m] = ⟨[], [m.name]⟩ := by simp [facts, hexit]
  rw [hfacts]
  refine ⟨.inl ⟨rfl, h.runsOff⟩, .inr ⟨rfl, ?_⟩, Nat.le_refl 1⟩
  rintro i ⟨hlt, hnever⟩
  have hreached := h.reaches [] (Nat.le_of_lt hlt)
  rw [List.append_nil] at hreached
  exact hnever hreached

theorem describes_of_stops {m : Method} {front back : List Statement} {s : Statement}
    (hbody : m.body = front ++ s :: back) (hfront : RunsThrough front) (hs : s.isTerminal) :
    (facts [m]).Describes m := by
  have hreaches : ∀ i, Reaches m.body i ↔ i ≤ front.length := by
    intro i
    rw [hbody]
    exact hfront.reaches_iff_le hs back
  have hlength : m.body.length = front.length + 1 + back.length := by
    rw [hbody, List.length_append, List.length_cons, Nat.add_right_comm, Nat.add_assoc]
  have hstops : ¬ RunsOff m.body := by
    unfold RunsOff
    rw [hreaches, hlength]
    omega
  have hexit : exit m = exitFrom front.length (s :: back) := by
    unfold exit
    rw [hbody, hfront.exitFrom_append, Nat.zero_add]
  rw [exitFrom.eq_def] at hexit
  dsimp only at hexit
  rw [if_pos hs] at hexit
  cases back with
  | nil =>
    have hfacts : facts [m] = ⟨[], []⟩ := by simp [facts, hexit]
    rw [hfacts]
    refine ⟨.inr ⟨rfl, hstops⟩, .inr ⟨rfl, ?_⟩, Nat.zero_le 1⟩
    rintro i ⟨hlt, hnever⟩
    rw [hreaches] at hnever
    rw [hlength, List.length_nil] at hlt
    omega
  | cons t back =>
    have hfacts : facts [m] = ⟨[⟨m.name, front.length + 1⟩], []⟩ := by simp [facts, hexit]
    rw [hfacts]
    refine ⟨.inr ⟨rfl, hstops⟩, .inl ⟨_, rfl, ?_, ?_⟩, Nat.le_refl 1⟩
    · refine ⟨?_, ?_⟩
      · rw [hlength, List.length_cons]
        omega
      · rw [hreaches]
        omega
    · rintro i ⟨-, hnever⟩
      rw [hreaches] at hnever
      omega

/-- The facts about one method are what its execution shows. -/
theorem describes_facts (m : Method) : (facts [m]).Describes m := by
  rcases runsThrough_or_stops m.body with hpasses | ⟨front, s, back, hbody, hfront, hs⟩
  · exact describes_of_runsThrough hpasses
  · exact describes_of_stops hbody hfront hs

/-- A second statement that stops execution is itself never executed. -/
example : facts [⟨"run", [.other "call", .ret, .throw, .ret]⟩] = ⟨[⟨"run", 2⟩], []⟩ := by decide

/-- Methods are looked at one by one. -/
theorem facts_eq (methods : List Method) :
    facts methods =
      ⟨(methods.map fun m => facts [m]).flatMap Facts.unreachable,
        (methods.map fun m => facts [m]).flatMap Facts.completesNormally⟩ := by
  induction methods with
  | nil => rfl
  | cons m methods ih =>
    have hcons : facts (m :: methods) =
        ⟨(facts [m]).unreachable ++ (facts methods).unreachable,
          (facts [m]).completesNormally ++ (facts methods).completesNormally⟩ := by
      unfold facts
      rw [← List.filterMap_append, ← List.filterMap_append]
      rfl
    rw [hcons, ih, List.map_cons, List.flatMap_cons, List.flatMap_cons]

/-- The error that reports an unreachable statement of a unit. -/
def Unreachable.finding (path : String) (s : Unreachable) : Diagnostic where
  severity := .error
  source := "flow"
  message := "unreachable statement"
  unit? := some path
  location? := some s!"{s.method}#{s.index}"

end Flow

open AnalysisHost.Flow

/-- What the flow phase finds in a unit, and what it reports, agree with the execution of its
methods. -/
structure CompilationUnit.FlowAgrees (u : CompilationUnit) (log : Log) : Prop where
  /-- Both lists are made up, method by method, of what execution shows. -/
  shown : ∃ parts : List Facts, List.Forall₂ (fun m f => f.Describes m) u.methods parts ∧
    (u.flow log).1.completesNormally = parts.flatMap Facts.completesNormally ∧
    (u.flow log).1.unreachable = parts.flatMap Facts.unreachable
  reported : (u.flow log).2.diagnostics =
    log.diagnostics ++ (u.flow log).1.unreachable.map (Unreachable.finding u.path)

/-- **The flow phase agrees with execution**, on every unit and with every log. -/
theorem CompilationUnit.flow_agrees (u : CompilationUnit) (log : Log) : u.FlowAgrees log := by
  constructor
  case shown =>
    refine ⟨u.methods.map fun m => facts [m], ?_, ?_, ?_⟩
    · rw [List.forall₂_map_right_iff, List.forall₂_same]
      exact fun m _ => describes_facts m
    · exact congrArg Facts.completesNormally (facts_eq u.methods)
    · exact congrArg Facts.unreachable (facts_eq u.methods)
  case reported =>
    show (log.reportAll u.flowErrors).diagnostics = _
    rw [Log.diagnostics_reportAll, flowErrors, List.map_map]
    refine congrArg _ (List.map_congr_left fun s _ => ?_)
    apply Log.recorded_of_ne_warning
    show Severity.error ≠ _
    decide

end AnalysisHost
