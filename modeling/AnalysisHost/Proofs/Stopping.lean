import AnalysisHost.Proofs.Canonical

/-!
# What stops a run

The first call that fails stops a run. A `Stop` is what it fails with: the rejection of a flag, or a
failure together with the call that was made and the name of the plugin, from which the host takes
its layers. `Scene.firstStop?` looks for the first stop among the steps of a run.

- `Scene.firstStop?_eq_none_iff`: a play succeeds exactly if nothing stops it;
- `Scene.exists_position_of_firstStop?`: what comes before the step that stops a play succeeds;
- `Compilation.outcome_of_stop?`: the outcome of a run is that of its first stop.
-/

namespace AnalysisHost

variable {π : Type}

/-- What a step of a run fails with. -/
inductive Stop where
  /-- A plugin rejects the flags that it is shown. -/
  | rejected (e : FlagError)
  /-- A call to a plugin fails. The name is the one that the plugin has after the call. -/
  | failed (call : Call) (plugin : String) (f : Failure)
  deriving DecidableEq, Repr

/-- How a run ends that has been stopped. The host puts its layers around a failure. -/
def Stop.outcome : Stop → Outcome
  | rejected e => .invalidCommandLine e
  | failed call plugin f => .ofFailure (f.wrapAll (call.layers plugin))

/-- How a run ends if a verdict stops it. -/
def stoppedBy {ε : Type} (outcome : ε → Outcome) : Except ε Unit → Option Outcome
  | .ok _ => none
  | .error e => some (outcome e)

namespace Scene

variable [Plugin π] {s : Scene π} {stop : Stop}

/-- What a step fails with, if it does. -/
def stop? (s : Scene π) : Step → Option Stop
  | .claim i =>
    match s.plugins[i]? with
    | none => none
    | some p =>
      match Plugin.processArgs p s.args with
      | (.ok _, _) => none
      | (.error e, _) => some (.rejected e)
  | .call i c =>
    match s.plugins[i]? with
    | none => none
    | some p =>
      match c.make p s.session with
      | (.ok _, _, _) => none
      | (.error f, p, _) => some (.failed c (Plugin.name p) f)
  | .handOver | .announce _ | .report _ => none

/-- What the first step that fails fails with. -/
def firstStop? (s : Scene π) : List Step → Option Stop
  | [] => none
  | step :: steps =>
    match s.stop? step with
    | some stop => some stop
    | none => (s.perform step).2.firstStop? steps

/-! ## One step -/

theorem stop?_eq_none_iff {step : Step} : s.stop? step = none ↔ (s.perform step).1 = true := by
  cases step with
  | claim i =>
    cases hp : s.plugins[i]? with
    | none => simp [stop?, perform, hp]
    | some p =>
      rcases hclaim : Plugin.processArgs p s.args with ⟨_ | rest, p'⟩ <;>
        simp [stop?, perform, hp, hclaim]
  | call i c =>
    cases hp : s.plugins[i]? with
    | none => simp [stop?, perform, hp]
    | some p =>
      rcases hmake : c.make p s.session with ⟨_ | ⟨⟩, p', session⟩ <;>
        simp [stop?, perform, hp, hmake, Except.isOk, Except.toBool]
  | handOver => simp [stop?, perform]
  | announce event => simp [stop?, perform]
  | report findings => simp [stop?, perform]

theorem failed_of_stop? {step : Step} (h : s.stop? step = some stop) :
    (s.perform step).1 = false := by
  rw [← Bool.not_eq_true, ← stop?_eq_none_iff, h]
  exact Option.some_ne_none stop

/-! ## Several steps -/

theorem firstStop?_cons_of_stop {step : Step} (h : s.stop? step = some stop) (steps : List Step) :
    s.firstStop? (step :: steps) = some stop := by
  rw [firstStop?, h]

theorem firstStop?_cons_of_succeeded {step : Step} (h : (s.perform step).1 = true)
    (steps : List Step) : s.firstStop? (step :: steps) = (s.perform step).2.firstStop? steps := by
  rw [firstStop?, stop?_eq_none_iff.mpr h]

/-- **A play succeeds exactly if nothing stops it.** -/
theorem firstStop?_eq_none_iff {steps : List Step} :
    s.firstStop? steps = none ↔ (s.play steps).succeeded = true := by
  induction steps generalizing s with
  | nil => exact iff_of_true rfl rfl
  | cons step steps ih =>
    cases hstop : s.stop? step with
    | none =>
      have hs := stop?_eq_none_iff.mp hstop
      rw [firstStop?_cons_of_succeeded hs, play_cons_of_succeeded hs]
      exact ih
    | some stop =>
      rw [firstStop?_cons_of_stop hstop, play_cons_of_failed (failed_of_stop? hstop)]
      exact iff_of_false (Option.some_ne_none stop) Bool.false_ne_true

theorem firstStop?_append_of_succeeded {front : List Step}
    (h : (s.play front).succeeded = true) (back : List Step) :
    s.firstStop? (front ++ back) = (s.play front).scene.firstStop? back := by
  induction front generalizing s with
  | nil => rfl
  | cons step steps ih =>
    rw [List.cons_append]
    cases hs : (s.perform step).1 with
    | true =>
      rw [play_cons_of_succeeded hs] at h ⊢
      rw [firstStop?_cons_of_succeeded hs]
      exact ih h
    | false =>
      rw [play_cons_of_failed hs] at h
      cases h

theorem firstStop?_append_of_stopped {front : List Step} (h : s.firstStop? front = some stop)
    (back : List Step) : s.firstStop? (front ++ back) = some stop := by
  induction front generalizing s with
  | nil => cases h
  | cons step steps ih =>
    rw [List.cons_append]
    rw [firstStop?] at h ⊢
    cases hstop : s.stop? step with
    | none =>
      rw [hstop] at h
      exact ih h
    | some first =>
      rw [hstop] at h
      exact h

/-- A step that fails behind some that succeed is the first that does. -/
theorem firstStop?_of_position {front : List Step} {step : Step}
    (hfront : (s.play front).succeeded = true) (hstop : (s.play front).scene.stop? step = some stop)
    (back : List Step) : s.firstStop? (front ++ step :: back) = some stop := by
  rw [firstStop?_append_of_succeeded hfront, firstStop?_cons_of_stop hstop]

/-- **Where a play is stopped**: behind some steps that succeed. -/
theorem exists_position_of_firstStop? {steps : List Step} (h : s.firstStop? steps = some stop) :
    ∃ front step back, steps = front ++ step :: back ∧ (s.play front).succeeded = true ∧
      (s.play front).scene.stop? step = some stop := by
  induction steps generalizing s with
  | nil => cases h
  | cons step steps ih =>
    cases hs : (s.perform step).1 with
    | true =>
      rw [firstStop?_cons_of_succeeded hs] at h
      obtain ⟨front, last, back, rfl, hfront, hstop⟩ := ih h
      refine ⟨step :: front, last, back, rfl, ?_, ?_⟩
      · rw [play_cons_of_succeeded hs]
        exact hfront
      · rw [play_cons_of_succeeded hs]
        exact hstop
    | false =>
      cases hstop : s.stop? step with
      | none =>
        rw [stop?_eq_none_iff.mp hstop] at hs
        cases hs
      | some first =>
        rw [firstStop?_cons_of_stop hstop] at h
        cases h
        exact ⟨[], step, steps, rfl, rfl, hstop⟩

/-- The frames of a play that is stopped: those of the steps that succeed, and the one of the step
that does not. -/
theorem frames_of_position {front : List Step} {step : Step}
    (hfront : (s.play front).succeeded = true) (hstop : (s.play front).scene.stop? step = some stop)
    (back : List Step) :
    (s.play (front ++ step :: back)).frames =
      (s.play front).frames ++ ((s.play front).scene.frame? step).toList := by
  rw [play_append_of_succeeded hfront, play_cons_of_failed (failed_of_stop? hstop)]

end Scene

/-! ## Runs

The host makes its calls in sweeps. A sweep stops where the play of its steps stops, with the same
outcome, and so do a task and the whole schedule. -/

variable [Plugin π]

/-- What stops a sweep is what stops the play of one step for each plugin. Of the plugins, some have
been called already and some are waiting. -/
theorem firstStop?_sweep {ε α : Type} (call : π → α → Except ε Unit × π × α) (step : Nat → Step)
    (scene : List π → α → Scene π) (outcome : ε → Outcome)
    (hperform : ∀ called p waiting lent,
      (scene (called ++ p :: waiting) lent).perform (step called.length) =
        ((call p lent).1.isOk, scene (called ++ (call p lent).2.1 :: waiting) (call p lent).2.2))
    (hstop : ∀ called p waiting lent,
      ((scene (called ++ p :: waiting) lent).stop? (step called.length)).map Stop.outcome =
        stoppedBy outcome (call p lent).1)
    (called waiting : List π) (lent : α) :
    ((scene (called ++ waiting) lent).firstStop?
      ((List.range' called.length waiting.length).map step)).map Stop.outcome =
        stoppedBy outcome (sweep call waiting lent).verdict := by
  induction waiting generalizing called lent with
  | nil => rfl
  | cons p waiting ih =>
    have hp := hperform called p waiting lent
    have hs := hstop called p waiting lent
    simp only [List.length_cons, List.range'_succ, List.map_cons]
    rcases hcall : call p lent with ⟨verdict, p', lent'⟩
    rw [hcall] at hp hs
    cases verdict with
    | error e =>
      rw [sweep_cons_of_error hcall]
      obtain ⟨stop, hstop, hout⟩ := Option.map_eq_some_iff.mp hs
      rw [Scene.firstStop?_cons_of_stop hstop]
      exact congrArg some hout
    | ok _ =>
      rw [sweep_cons_of_ok hcall, Scene.firstStop?_cons_of_succeeded (by rw [hp]; rfl), hp]
      -- From here on the plugin, as the call left it, is one of those called.
      have := ih (called ++ [p']) lent'
      simp only [List.append_assoc, List.singleton_append, List.length_append,
        List.length_singleton] at this
      exact this

theorem firstStop?_claims (plugins : List π) (args : List String) (session : Session) :
    ((Scene.mk plugins args session).firstStop?
      ((List.range plugins.length).map .claim)).map Stop.outcome =
        stoppedBy .invalidCommandLine (claimFlags plugins args).verdict := by
  rw [List.range_eq_range']
  refine firstStop?_sweep _ .claim (fun plugins args => Scene.mk plugins args session) _ ?_ ?_ []
    plugins args
  · intro called p waiting args
    rw [Scene.perform_claim]
    rcases Plugin.processArgs p args with ⟨_ | rest, p'⟩ <;> rfl
  · intro called p waiting args
    simp only [Scene.stop?]
    rw [List.getElem?_append_right (Nat.le_refl _), Nat.sub_self, List.getElem?_cons_zero]
    rcases hclaim : Plugin.processArgs p args with ⟨_ | rest, p'⟩ <;>
      simp [hclaim, stoppedBy, Stop.outcome]

theorem firstStop?_calls (plugins : List π) (args : List String) (session : Session) (call : Call) :
    ((Scene.mk plugins args session).firstStop?
      ((List.range plugins.length).map (.call · call))).map Stop.outcome =
        stoppedBy .ofFailure (sweep call.makeLayered plugins session).verdict := by
  rw [List.range_eq_range']
  refine firstStop?_sweep call.makeLayered (.call · call)
    (fun plugins session => Scene.mk plugins args session) _ ?_ ?_ [] plugins session
  · intro called p waiting session
    rw [Scene.perform_call]
    rcases hmake : call.make p session with ⟨_ | _, p', session'⟩
    · rw [Call.makeLayered_of_error hmake]
      rfl
    · rw [Call.makeLayered_of_ok hmake]
  · intro called p waiting session
    simp only [Scene.stop?]
    rw [List.getElem?_append_right (Nat.le_refl _), Nat.sub_self, List.getElem?_cons_zero]
    rcases hmake : call.make p session with ⟨_ | _, p', session'⟩
    · rw [Call.makeLayered_of_error hmake]
      simp only [hmake]
      rfl
    · rw [Call.makeLayered_of_ok hmake]
      simp only [hmake]
      rfl

/-- What stops a task, if the lifecycle allows it. -/
theorem firstStop?_task {run : Progress π} {s : Scene π} (h : run.Agrees s) {task : Task}
    {tasks : List Task} (hl : run.lifecycle.stage.allows (task :: tasks) = true) :
    (s.firstStop? (task.steps s.plugins.length)).map Stop.outcome =
      stoppedBy .ofFailure (run.perform task).1 := by
  obtain ⟨plugins, session, lifecycle, units, history⟩ := run
  obtain ⟨splugins, args, ssession⟩ := s
  obtain ⟨rfl, rfl⟩ := h
  cases task with
  | enter next =>
    rw [Progress.perform, Lifecycle.advance_of_allows hl]
    rfl
  | announce event => rfl
  | report findings => rfl
  | call c => exact firstStop?_calls plugins args session c
  | unitDone => rfl

/-- What stops a schedule, if the lifecycle allows it. -/
theorem firstStop?_performAll {run : Progress π} {s : Scene π} (h : run.Agrees s)
    {tasks : List Task} (hl : run.lifecycle.stage.allows tasks = true) :
    (s.firstStop? (tasks.flatMap (Task.steps s.plugins.length))).map Stop.outcome =
      stoppedBy .ofFailure (run.performAll tasks).1 := by
  induction tasks generalizing run s with
  | nil => rfl
  | cons task tasks ih =>
    have hmatches := perform_matches h hl
    have hstop := firstStop?_task h hl
    -- The steps of the remaining tasks are those for as many plugins.
    have hlength := Scene.length_plugins_play s (task.steps s.plugins.length)
    rw [List.flatMap_cons, Progress.performAll]
    rcases hdone : run.perform task with ⟨f | _, done⟩
    · rw [hdone] at hstop
      obtain ⟨stop, hfirst, hout⟩ := Option.map_eq_some_iff.mp hstop
      rw [Scene.firstStop?_append_of_stopped hfirst]
      exact congrArg some hout
    · rw [hdone] at hmatches
      have hrest := ih hmatches.agrees (allows_of_perform hdone hl)
      rw [hlength] at hrest
      rw [Scene.firstStop?_append_of_succeeded hmatches.verdict]
      exact hrest

namespace Compilation

/-! ## The claims and the schedule

Flags are claimed before anything is scheduled. If they are rejected the run is over; otherwise its
frames are those of the claims and those of the schedule behind them. -/

/-- The steps in front of the schedule. -/
def claimSteps (c : Compilation π) : List Step :=
  (List.range c.plugins.length).map .claim ++ [.handOver]

/-- The scene in which the schedule begins. -/
def claimed (c : Compilation π) (args : List String) (files : Files) : Scene π where
  plugins := (claimFlags c.plugins args).plugins
  args := (claimFlags c.plugins args).lent
  session := c.openSession (claimFlags c.plugins args).lent files

variable {c : Compilation π} {args : List String} {files : Files}

omit [Plugin π] in
theorem steps_eq (c : Compilation π) :
    c.steps = c.claimSteps ++ c.schedule.flatMap (Task.steps c.plugins.length) := by
  rw [steps, claimSteps, List.append_assoc]
  rfl

theorem agrees_claimed (c : Compilation π) (args : List String) (files : Files) :
    (c.start (claimFlags c.plugins args) files).Agrees (c.claimed args files) := ⟨rfl, rfl⟩

/-- Claims that are accepted lead to the schedule. -/
theorem play_claimSteps (files : Files)
    (h : (claimFlags c.plugins args).verdict = .ok ()) :
    ((c.opening args files).play c.claimSteps).succeeded = true ∧
      ((c.opening args files).play c.claimSteps).scene = c.claimed args files := by
  obtain ⟨hok, hscene, -⟩ := play_claims c.plugins args (c.openSession [] files)
  rw [h] at hok
  rw [claimSteps, opening, Scene.play_append_of_succeeded hok, hscene]
  exact ⟨rfl, rfl⟩

/-- The moments of a run: of the claims, and then of the schedule, if it is reached. -/
theorem frames_of_claimed (files : Files) (h : (claimFlags c.plugins args).verdict = .ok ()) :
    c.frames args files =
      ((c.opening args files).play ((List.range c.plugins.length).map .claim)).frames ++
        ((c.claimed args files).play
          (c.schedule.flatMap (Task.steps c.plugins.length))).frames := by
  obtain ⟨hok, hscene, -⟩ := play_claims c.plugins args (c.openSession [] files)
  rw [h] at hok
  rw [frames, steps, opening, Scene.play_append_of_succeeded hok, hscene]
  rfl

theorem frames_of_rejected (files : Files) {e : FlagError}
    (h : (claimFlags c.plugins args).verdict = .error e) :
    c.frames args files =
      ((c.opening args files).play ((List.range c.plugins.length).map .claim)).frames := by
  obtain ⟨hok, -, -⟩ := play_claims c.plugins args (c.openSession [] files)
  rw [h] at hok
  rw [frames, steps, opening, Scene.play_append_of_failed hok]

/-- Claims that are refused are what stops the run. -/
theorem firstStop?_claimSteps (files : Files) {e : FlagError}
    (h : (claimFlags c.plugins args).verdict = .error e) :
    ∃ stop, (c.opening args files).firstStop? c.claimSteps = some stop ∧
      stop.outcome = .invalidCommandLine e := by
  have hclaims := firstStop?_claims c.plugins args (c.openSession [] files)
  rw [h] at hclaims
  obtain ⟨stop, hfirst, hout⟩ := Option.map_eq_some_iff.mp hclaims
  exact ⟨stop, Scene.firstStop?_append_of_stopped hfirst _, hout⟩

theorem length_plugins_claimed (files : Files)
    (h : (claimFlags c.plugins args).verdict = .ok ()) :
    (c.claimed args files).plugins.length = c.plugins.length := by
  rw [← (play_claimSteps files h).2]
  exact Scene.length_plugins_play _ _

theorem run_of_rejected {e : FlagError} (h : (claimFlags c.plugins args).verdict = .error e) :
    c.run args files = rejected e (claimFlags c.plugins args) files := by
  rw [run, h]

theorem run_of_claimed (h : (claimFlags c.plugins args).verdict = .ok ()) :
    c.run args files =
      let (verdict, done) := (c.start (claimFlags c.plugins args) files).performAll c.schedule
      concluded verdict done := by
  rw [run, h]

omit [Plugin π] in
/-- However a run ends that has got under way, it reports what is in its log. -/
theorem diagnostics_concluded (verdict : Except Failure Unit) (done : Progress π) :
    (concluded verdict done).report.diagnostics = done.session.log.diagnostics := by
  cases verdict <;> rfl

/-- A run that has got under way ends as the play of its schedule does. -/
theorem exists_concluded (files : Files) (h : (claimFlags c.plugins args).verdict = .ok ()) :
    ∃ verdict done, c.run args files = concluded verdict done ∧
      done.Agrees ((c.claimed args files).play
        (c.schedule.flatMap (Task.steps c.plugins.length))).scene := by
  have hmatches := performAll_matches (c.agrees_claimed args files) c.allows_schedule
  rw [length_plugins_claimed files h] at hmatches
  exact ⟨_, _, run_of_claimed h, hmatches.agrees⟩

/-! ## What stops a run -/

/-- What stops a run, if anything does. -/
def stop? (c : Compilation π) (args : List String) (files : Files) : Option Stop :=
  (c.opening args files).firstStop? c.steps

/-- Behind the claims it is the schedule that is stopped. -/
theorem stop?_of_claimed (files : Files)
    (h : (claimFlags c.plugins args).verdict = .ok ()) :
    (c.stop? args files).map Stop.outcome =
      stoppedBy .ofFailure
        ((c.start (claimFlags c.plugins args) files).performAll c.schedule).1 := by
  obtain ⟨hok, hscene⟩ := play_claimSteps files h
  rw [stop?, steps_eq, Scene.firstStop?_append_of_succeeded hok, hscene,
    ← length_plugins_claimed files h]
  exact firstStop?_performAll (c.agrees_claimed args files) c.allows_schedule

/-- **The outcome of a run that is stopped** is that of its first stop. -/
theorem outcome_of_stop? {stop : Stop} (h : c.stop? args files = some stop) :
    (c.run args files).report.outcome = stop.outcome := by
  cases hverdict : (claimFlags c.plugins args).verdict with
  | error e =>
    obtain ⟨first, hfirst, hout⟩ := firstStop?_claimSteps files hverdict
    rw [stop?, steps_eq, Scene.firstStop?_append_of_stopped hfirst] at h
    cases h
    rw [run_of_rejected hverdict, hout]
    rfl
  | ok _ =>
    have hrest := stop?_of_claimed files hverdict
    rw [h] at hrest
    rw [run_of_claimed hverdict]
    rcases hdone : (c.start (claimFlags c.plugins args) files).performAll c.schedule with
      ⟨f | _, done⟩
    · rw [hdone] at hrest
      exact (Option.some.inj hrest).symm
    · rw [hdone] at hrest
      cases hrest

end Compilation

end AnalysisHost
