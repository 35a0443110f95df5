import AnalysisHost.Run

/-!
# A run, one plugin at a time

`Compilation.run` is a nest of loops: sweeps over the plugins inside tasks, tasks inside a schedule,
and the claiming of flags in front of it all. This file tells the same run by a machine with a
single loop. A `Step` involves at most one plugin, a `Scene` is what there is between two steps, and
`Scene.play` carries out steps one by one up to the first call that fails.

What can be seen of a step from outside is a `Moment`: a plugin is called, or the host announces the
boundary of a task. `play` keeps a `Frame` of each moment, with the scenes before and after it.

* `play_append_of_succeeded`, `play_append_of_failed` — playing is sequential, up to a failure;
* `moments_play_prefix`, `moments_play_of_succeeded` — the moments of a play are a prefix of the
  moments of its steps, and all of them if nothing fails;
* `exists_failed_of_not_succeeded` — a play that fails ends with the frame of the failing call.
-/

namespace AnalysisHost

/-! ## Moments and frames -/

/-- What can be seen of a run from outside. Plugins are told apart by their place in the
registration order. -/
inductive Moment where
  /-- A plugin is called. -/
  | called (plugin : Nat) (callback : Callback)
  /-- The host announces the boundary of a task. -/
  | announced (event : TaskEvent)
  deriving DecidableEq, Repr

/-- What there is between two steps of a run. -/
structure Scene (π : Type) where
  plugins : List π
  /-- The flags that no plugin has claimed yet. -/
  args : List String
  session : Session

/-- A moment as it took place. -/
structure Frame (π : Type) where
  moment : Moment
  before : Scene π
  /-- Whether the call returned without an error. An announcement always succeeds. -/
  succeeded : Bool
  after : Scene π

/-- What a frame leaves in the history of a run: the call, or the event once for every listener that
is there when it is announced, in the order of installation. -/
def Frame.occurrences {π : Type} (f : Frame π) : List Occurrence :=
  match f.moment with
  | .called plugin callback => [.called plugin callback]
  | .announced event => (f.before.session.context.deliveries event).map .heard

/-! ## Steps -/

/-- A part of a run that involves at most one plugin. -/
inductive Step where
  /-- A plugin claims its flags. -/
  | claim (plugin : Nat)
  /-- The flags that are left become options of the host. -/
  | handOver
  /-- A call is made to a plugin. -/
  | call (plugin : Nat) (call : Call)
  /-- Every listener hears of an event. -/
  | announce (event : TaskEvent)
  /-- A host phase reports what it has found. -/
  | report (findings : List Diagnostic)
  deriving DecidableEq, Repr

/-- What can be seen of a step. -/
def Step.moment? : Step → Option Moment
  | claim plugin => some (.called plugin .processArgs)
  | handOver => none
  | call plugin c => some (.called plugin c.callback)
  | announce event => some (.announced event)
  | report _ => none

namespace Scene

variable {π : Type} [Plugin π]

/-- Carry out a step, and say whether it succeeded. A call that fails leaves behind what it did
before it failed. -/
def perform (s : Scene π) : Step → Bool × Scene π
  | .claim i =>
    match s.plugins[i]? with
    | none => (true, s)
    | some p =>
      match Plugin.processArgs p s.args with
      | (.ok rest, p) => (true, { s with plugins := s.plugins.set i p, args := rest })
      | (.error _, p) => (false, { s with plugins := s.plugins.set i p })
  | .handOver =>
    (true,
      { s with session := { s.session with host := { s.session.host with options := s.args } } })
  | .call i c =>
    match s.plugins[i]? with
    | none => (true, s)
    | some p =>
      let (verdict, p, session) := c.make p s.session
      (verdict.isOk, { s with plugins := s.plugins.set i p, session := session })
  | .announce event =>
    (true, { s with session := { s.session with context := s.session.context.notify event } })
  | .report findings =>
    (true, { s with session := { s.session with log := s.session.log.reportAll findings } })

/-- What playing some steps leaves. -/
structure Take (π : Type) where
  frames : List (Frame π)
  scene : Scene π
  /-- Whether every step succeeded. -/
  succeeded : Bool

/-- The frame of a step, if there is anything to see of it. -/
def frame? (s : Scene π) (step : Step) : Option (Frame π) :=
  step.moment?.map fun moment => ⟨moment, s, (s.perform step).1, (s.perform step).2⟩

/-- Carry out steps in order, up to the first that fails. -/
def play (s : Scene π) : List Step → Take π
  | [] => ⟨[], s, true⟩
  | step :: steps =>
    match (s.perform step).1 with
    | true =>
      let rest := (s.perform step).2.play steps
      { rest with frames := (s.frame? step).toList ++ rest.frames }
    | false => ⟨(s.frame? step).toList, (s.perform step).2, false⟩

/-! ### What a step does -/

theorem length_plugins_perform (s : Scene π) (step : Step) :
    (s.perform step).2.plugins.length = s.plugins.length := by
  cases step with
  | claim i =>
    simp only [perform]
    split
    · rfl
    · split <;> simp
  | call i c =>
    simp only [perform]
    split <;> simp
  | handOver => rfl
  | announce event => rfl
  | report findings => rfl

/-- Only calls fail. -/
theorem exists_called_of_failed {s : Scene π} {step : Step} (h : (s.perform step).1 = false) :
    ∃ plugin callback, step.moment? = some (.called plugin callback) := by
  cases step with
  | claim i => exact ⟨i, .processArgs, rfl⟩
  | call i c => exact ⟨i, c.callback, rfl⟩
  | handOver => simp [perform] at h
  | announce event => simp [perform] at h
  | report findings => simp [perform] at h

/-- What every call keeps of its plugin is kept by a step, unless flags are claimed. -/
theorem map_plugins_perform {β : Type} {label : π → β}
    (hmake : ∀ (c : Call) (p : π) (session : Session), label (c.make p session).2.1 = label p)
    {step : Step} (hstep : ∀ i, step ≠ .claim i) (s : Scene π) :
    (s.perform step).2.plugins.map label = s.plugins.map label := by
  cases step with
  | claim i => exact absurd rfl (hstep i)
  | handOver => rfl
  | announce event => rfl
  | report findings => rfl
  | call i c =>
    cases hp : s.plugins[i]? with
    | none => simp only [perform, hp]
    | some p =>
      simp only [perform, hp]
      rw [List.map_set, hmake]
      have hlabel : (s.plugins.map label)[i]? = some (label p) := by
        rw [List.getElem?_map, hp]
        rfl
      obtain ⟨hi, hlabel⟩ := List.getElem?_eq_some_iff.mp hlabel
      rw [← hlabel, List.set_getElem_self]

/-! ### Playing -/

theorem play_cons_of_succeeded {s : Scene π} {step : Step} (h : (s.perform step).1 = true)
    (steps : List Step) :
    s.play (step :: steps) =
      { (s.perform step).2.play steps with
        frames := (s.frame? step).toList ++ ((s.perform step).2.play steps).frames } := by
  rw [play, h]

theorem play_cons_of_failed {s : Scene π} {step : Step} (h : (s.perform step).1 = false)
    (steps : List Step) :
    s.play (step :: steps) = ⟨(s.frame? step).toList, (s.perform step).2, false⟩ := by
  rw [play, h]

/-- Playing is sequential. -/
theorem play_append_of_succeeded {s : Scene π} {front : List Step}
    (h : (s.play front).succeeded = true) (back : List Step) :
    s.play (front ++ back) =
      { (s.play front).scene.play back with
        frames := (s.play front).frames ++ ((s.play front).scene.play back).frames } := by
  induction front generalizing s with
  | nil => rfl
  | cons step steps ih =>
    rw [List.cons_append]
    cases hs : (s.perform step).1 with
    | true =>
      rw [play_cons_of_succeeded hs] at h ⊢
      rw [play_cons_of_succeeded hs, ih h]
      simp
    | false =>
      rw [play_cons_of_failed hs] at h
      cases h

/-- What comes behind a failure is not played. -/
theorem play_append_of_failed {s : Scene π} {front : List Step}
    (h : (s.play front).succeeded = false) (back : List Step) :
    s.play (front ++ back) = s.play front := by
  induction front generalizing s with
  | nil => cases h
  | cons step steps ih =>
    rw [List.cons_append]
    cases hs : (s.perform step).1 with
    | true =>
      rw [play_cons_of_succeeded hs] at h ⊢
      rw [play_cons_of_succeeded hs, ih h]
    | false => rw [play_cons_of_failed hs, play_cons_of_failed hs]

theorem length_plugins_play (s : Scene π) (steps : List Step) :
    (s.play steps).scene.plugins.length = s.plugins.length := by
  induction steps generalizing s with
  | nil => rfl
  | cons step steps ih =>
    cases h : (s.perform step).1 with
    | true =>
      rw [play_cons_of_succeeded h]
      exact (ih _).trans (length_plugins_perform s step)
    | false =>
      rw [play_cons_of_failed h]
      exact length_plugins_perform s step

theorem map_moment_frame? (s : Scene π) (step : Step) :
    (s.frame? step).toList.map Frame.moment = step.moment?.toList := by
  unfold frame?
  cases step.moment? <;> rfl

theorem succeeded_of_mem_frame? {s : Scene π} {step : Step} {f : Frame π}
    (h : f ∈ (s.frame? step).toList) : f.succeeded = (s.perform step).1 := by
  rw [frame?, Option.mem_toList, Option.map_eq_some_iff] at h
  obtain ⟨moment, -, rfl⟩ := h
  rfl

/-- The moments of a play are a prefix of the moments of its steps. -/
theorem moments_play_prefix (s : Scene π) (steps : List Step) :
    (s.play steps).frames.map Frame.moment <+: steps.filterMap Step.moment? := by
  induction steps generalizing s with
  | nil => exact List.prefix_rfl
  | cons step steps ih =>
    have hcons : (step :: steps).filterMap Step.moment? =
        step.moment?.toList ++ steps.filterMap Step.moment? := by
      cases h : step.moment? <;> simp [h]
    rw [hcons]
    -- The moment of the first step is there whether it succeeds or not.
    cases h : (s.perform step).1 with
    | true =>
      rw [play_cons_of_succeeded h, List.map_append, map_moment_frame?]
      exact (List.prefix_append_right_inj _).mpr (ih _)
    | false =>
      rw [play_cons_of_failed h, map_moment_frame?]
      exact List.prefix_append _ _

/-- A play in which nothing fails shows every moment of its steps. -/
theorem moments_play_of_succeeded {s : Scene π} {steps : List Step}
    (h : (s.play steps).succeeded = true) :
    (s.play steps).frames.map Frame.moment = steps.filterMap Step.moment? := by
  induction steps generalizing s with
  | nil => rfl
  | cons step steps ih =>
    cases hs : (s.perform step).1 with
    | true =>
      rw [play_cons_of_succeeded hs] at h ⊢
      rw [List.map_append, map_moment_frame?, ih h]
      cases hm : step.moment? <;> simp [hm]
    | false =>
      rw [play_cons_of_failed hs] at h
      cases h

theorem exists_step_of_mem_frames {s : Scene π} {steps : List Step} {f : Frame π}
    (h : f ∈ (s.play steps).frames) :
    ∃ before step, step ∈ steps ∧ frame? before step = some f := by
  induction steps generalizing s with
  | nil => simp [play] at h
  | cons step steps ih =>
    cases hs : (s.perform step).1 with
    | true =>
      rw [play_cons_of_succeeded hs] at h
      rcases List.mem_append.mp h with h | h
      · exact ⟨s, step, List.mem_cons_self, Option.mem_toList.mp h⟩
      · obtain ⟨before, step', hmem, hf⟩ := ih h
        exact ⟨before, step', List.mem_cons_of_mem _ hmem, hf⟩
    | false =>
      rw [play_cons_of_failed hs] at h
      exact ⟨s, step, List.mem_cons_self, Option.mem_toList.mp h⟩

/-- What every step keeps of a scene is kept all along a play: at its end, and wherever a moment of
it takes place. -/
theorem play_keeps {P : Scene π → Prop} {steps : List Step}
    (hsteps : ∀ step ∈ steps, ∀ s : Scene π, P s → P (s.perform step).2) {s : Scene π} (h : P s) :
    P (s.play steps).scene ∧ ∀ f ∈ (s.play steps).frames,
      ∃ step ∈ steps, P f.before ∧ frame? f.before step = some f := by
  induction steps generalizing s with
  | nil => exact ⟨h, fun f hf => nomatch hf⟩
  | cons step steps ih =>
    obtain ⟨hstep, hrest⟩ := List.forall_mem_cons.mp hsteps
    have hfirst : ∀ f ∈ (s.frame? step).toList,
        ∃ step' ∈ step :: steps, P f.before ∧ frame? f.before step' = some f := by
      intro f hf
      have hframe := Option.mem_toList.mp hf
      have hbefore : f.before = s := by
        obtain ⟨moment, -, rfl⟩ := Option.map_eq_some_iff.mp hframe
        rfl
      rw [hbefore]
      exact ⟨step, List.mem_cons_self, h, hframe⟩
    cases hs : (s.perform step).1 with
    | true =>
      obtain ⟨hlast, hframes⟩ := ih hrest (hstep s h)
      rw [play_cons_of_succeeded hs]
      refine ⟨hlast, ?_⟩
      intro f hf
      rcases List.mem_append.mp hf with hf | hf
      · exact hfirst f hf
      · obtain ⟨step', hmem, hkept⟩ := hframes f hf
        exact ⟨step', List.mem_cons_of_mem _ hmem, hkept⟩
    | false =>
      rw [play_cons_of_failed hs]
      exact ⟨hstep s h, hfirst⟩

/-- The frame of an announcement: every listener that is there hears of the event once, and nothing
else happens to the context. -/
theorem context_after_of_announced {s : Scene π} {steps : List Step} {f : Frame π}
    {event : TaskEvent} (h : f ∈ (s.play steps).frames) (hm : f.moment = .announced event) :
    f.after.session.context = f.before.session.context.notify event := by
  obtain ⟨before, step, -, hf⟩ := exists_step_of_mem_frames h
  rw [frame?, Option.map_eq_some_iff] at hf
  obtain ⟨moment, hstep, rfl⟩ := hf
  -- An announcement is the only step that can be seen as one.
  cases step with
  | announce event' =>
    cases hstep
    cases hm
    rfl
  | claim i => cases hstep; cases hm
  | call i c => cases hstep; cases hm
  | handOver => cases hstep
  | report findings => cases hstep

theorem succeeded_of_mem_frames {s : Scene π} {steps : List Step}
    (h : (s.play steps).succeeded = true) : ∀ f ∈ (s.play steps).frames, f.succeeded = true := by
  induction steps generalizing s with
  | nil => simp [play]
  | cons step steps ih =>
    cases hs : (s.perform step).1 with
    | true =>
      rw [play_cons_of_succeeded hs] at h ⊢
      intro f hf
      rcases List.mem_append.mp hf with hf | hf
      · exact (succeeded_of_mem_frame? hf).trans hs
      · exact ih h f hf
    | false =>
      rw [play_cons_of_failed hs] at h
      cases h

/-- A play that succeeds has a frame for each of its steps of which there is anything to see. -/
theorem exists_frame_of_mem {s : Scene π} {steps : List Step}
    (h : (s.play steps).succeeded = true) {step : Step} (hmem : step ∈ steps) {moment : Moment}
    (hmoment : step.moment? = some moment) :
    ∃ f ∈ (s.play steps).frames, frame? f.before step = some f ∧ f.succeeded = true := by
  induction steps generalizing s with
  | nil => cases hmem
  | cons first steps ih =>
    cases hs : (s.perform first).1 with
    | false =>
      rw [play_cons_of_failed hs] at h
      cases h
    | true =>
      rw [play_cons_of_succeeded hs] at h ⊢
      rcases List.mem_cons.mp hmem with rfl | hmem
      · have hframe : s.frame? step =
            some ⟨moment, s, (s.perform step).1, (s.perform step).2⟩ := by
          rw [frame?, hmoment]
          rfl
        exact ⟨_, List.mem_append_left _ (Option.mem_toList.mpr hframe), hframe, hs⟩
      · obtain ⟨f, hf, hframe, hok⟩ := ih h hmem
        exact ⟨f, List.mem_append_right _ hf, hframe, hok⟩

/-- A play that fails ends with the frame of the call that failed, and every frame before it shows a
success. -/
theorem exists_failed_of_not_succeeded {s : Scene π} {steps : List Step}
    (h : (s.play steps).succeeded = false) :
    ∃ front f plugin callback, (s.play steps).frames = front ++ [f] ∧
      (∀ g ∈ front, g.succeeded = true) ∧ f.succeeded = false ∧
      f.moment = .called plugin callback := by
  induction steps generalizing s with
  | nil => simp [play] at h
  | cons step steps ih =>
    cases hs : (s.perform step).1 with
    | true =>
      rw [play_cons_of_succeeded hs] at h ⊢
      obtain ⟨front, f, plugin, callback, hfront, hok, hf, hm⟩ := ih h
      refine ⟨(s.frame? step).toList ++ front, f, plugin, callback, ?_, ?_, hf, hm⟩
      · rw [hfront, List.append_assoc]
      · intro g hg
        rcases List.mem_append.mp hg with hg | hg
        · exact (succeeded_of_mem_frame? hg).trans hs
        · exact hok g hg
    | false =>
      -- The play stops here, and as only calls fail, there is a frame to see.
      obtain ⟨plugin, callback, hm⟩ := exists_called_of_failed hs
      rw [play_cons_of_failed hs]
      refine ⟨[], ⟨.called plugin callback, s, (s.perform step).1, (s.perform step).2⟩, plugin,
        callback, ?_, by simp, hs, rfl⟩
      simp [frame?, hm]

end Scene

end AnalysisHost
