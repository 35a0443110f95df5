import AnalysisHost.Proofs.Stopping

/-!
# What a report says of its run

The outcome, the stage, the diagnostics and the number of units of a report come from different
parts of a run. Whatever the plugins do, they agree with one another and with what took place
(`Compilation.report_truthful`).

The lifecycle never refuses a move: `Lifecycle.Stage.allows` follows the moves of a schedule, and
`Lifecycle.Stage.abortable` the stages in which calls are made, so that a call that fails can always
abort its run. The units are counted by `Task.unitDone`, and a unit is counted exactly if the play
of the steps up to its last one succeeds (`Compilation.lt_unitsCompiled_iff`).
-/

namespace AnalysisHost

variable {π : Type}

/-! ## The lifecycle -/

namespace Lifecycle.Stage

/-- Whether every call that tasks make is made in a stage from which a run can be aborted. -/
def abortable : Lifecycle.Stage → List Task → Bool
  | _, [] => true
  | _, .enter next :: tasks => next.abortable tasks
  | stage, .call _ :: tasks => stage.canMoveTo .aborted && stage.abortable tasks
  | stage, _ :: tasks => stage.abortable tasks

/-- The stage behind some tasks. -/
def behind : Lifecycle.Stage → List Task → Lifecycle.Stage
  | stage, [] => stage
  | _, .enter next :: tasks => next.behind tasks
  | stage, _ :: tasks => stage.behind tasks

theorem allows_of_append {stage : Stage} {front back : List Task}
    (h : stage.allows (front ++ back) = true) : stage.allows front = true := by
  induction front generalizing stage with
  | nil => rfl
  | cons task front ih =>
    cases task with
    | enter next =>
      simp only [List.cons_append, allows, Bool.and_eq_true] at h ⊢
      exact ⟨h.1, ih h.2⟩
    | announce event => exact ih h
    | report findings => exact ih h
    | call c => exact ih h
    | unitDone => exact ih h

theorem abortable_units_append (units : List CompilationUnit) (table : SymbolTable) {stage : Stage}
    (h : stage.canMoveTo .aborted = true) (rest : List Task) :
    stage.abortable (units.flatMap (·.tasks table) ++ rest) = stage.abortable rest := by
  induction units with
  | nil => rfl
  | cons u units ih =>
    rw [List.flatMap_cons, List.append_assoc]
    simp only [CompilationUnit.tasks, List.cons_append, List.nil_append, abortable, h,
      Bool.true_and]
    exact ih

theorem behind_append (stage : Stage) (front back : List Task) :
    stage.behind (front ++ back) = (stage.behind front).behind back := by
  induction front generalizing stage with
  | nil => rfl
  | cons task front ih => cases task <;> exact ih _

end Lifecycle.Stage

namespace Progress

variable [Plugin π] {run done : Progress π} {tasks : List Task} {f : Failure}

/-- A task that the lifecycle allows leads to the stage behind it, and fails only as a call. -/
theorem stage_perform {task : Task} (hl : run.lifecycle.stage.allows (task :: tasks) = true) :
    (run.perform task).2.lifecycle.stage = run.lifecycle.stage.behind [task] ∧
      ((run.perform task).1.isOk = false → ∃ c, task = .call c) := by
  cases task with
  | enter next =>
    rw [perform, Lifecycle.advance_of_allows hl]
    exact ⟨rfl, fun h => by cases h⟩
  | announce event => exact ⟨rfl, fun h => by cases h⟩
  | report findings => exact ⟨rfl, fun h => by cases h⟩
  | call c => exact ⟨rfl, fun _ => ⟨c, rfl⟩⟩
  | unitDone => exact ⟨rfl, fun h => by cases h⟩

/-- Tasks that are carried out leave what comes behind them allowed. -/
theorem allows_of_performAll {front back : List Task} (h : run.performAll front = (.ok (), done))
    (hl : run.lifecycle.stage.allows (front ++ back) = true) :
    done.lifecycle.stage.allows back = true := by
  induction front generalizing run with
  | nil =>
    cases h
    exact hl
  | cons task front ih =>
    rcases hdone : run.perform task with ⟨_ | _, next⟩
    · rw [performAll_cons_of_error hdone] at h
      cases h
    · rw [performAll_cons_of_ok hdone] at h
      exact ih h (allows_of_perform hdone hl)

/-- Tasks that are all carried out lead to the stage behind them. -/
theorem stage_of_performAll (h : run.performAll tasks = (.ok (), done))
    (hl : run.lifecycle.stage.allows tasks = true) :
    done.lifecycle.stage = run.lifecycle.stage.behind tasks := by
  induction tasks generalizing run with
  | nil =>
    cases h
    rfl
  | cons task tasks ih =>
    have hstage := (stage_perform hl).1
    rcases hdone : run.perform task with ⟨_ | _, next⟩
    · rw [performAll_cons_of_error hdone] at h
      cases h
    · rw [performAll_cons_of_ok hdone] at h
      rw [hdone] at hstage
      rw [ih h (allows_of_perform hdone hl), hstage]
      exact (Lifecycle.Stage.behind_append _ [task] tasks).symm

/-- Where calls are made in abortable stages only, a failure can abort the run. -/
theorem canAbort_of_performAll (h : run.performAll tasks = (.error f, done))
    (hl : run.lifecycle.stage.allows tasks = true)
    (ha : run.lifecycle.stage.abortable tasks = true) :
    done.lifecycle.stage.canMoveTo .aborted = true := by
  induction tasks generalizing run with
  | nil => cases h
  | cons task tasks ih =>
    obtain ⟨hstage, hcall⟩ := stage_perform hl
    rcases hdone : run.perform task with ⟨g | _, next⟩
    · rw [performAll_cons_of_error hdone] at h
      rw [hdone] at hstage hcall
      cases h
      -- Only a call can have failed, and a call leaves the stage as it is.
      obtain ⟨c, rfl⟩ := hcall rfl
      simp only [Lifecycle.Stage.abortable, Bool.and_eq_true] at ha
      rw [hstage]
      exact ha.1
    · rw [performAll_cons_of_ok hdone] at h
      refine ih h (allows_of_perform hdone hl) ?_
      rw [hdone] at hstage
      rw [hstage]
      cases task with
      | enter next => exact ha
      | announce event => exact ha
      | report findings => exact ha
      | call c => exact (Bool.and_eq_true _ _ ▸ ha).2
      | unitDone => exact ha

/-! ## The units counted -/

theorem unitsCompiled_perform (run : Progress π) (task : Task) :
    (run.perform task).2.unitsCompiled = run.unitsCompiled + [task].count .unitDone := by
  cases task with
  | enter next =>
    rw [perform]
    cases run.lifecycle.advance next <;> rfl
  | announce event => rfl
  | report findings => rfl
  | call c => rfl
  | unitDone => rfl

/-- Tasks count no unit twice, and all of them if they are all carried out. -/
theorem unitsCompiled_performAll (run : Progress π) (tasks : List Task) :
    run.unitsCompiled ≤ (run.performAll tasks).2.unitsCompiled ∧
      (run.performAll tasks).2.unitsCompiled ≤ run.unitsCompiled + tasks.count .unitDone ∧
      ((run.performAll tasks).1 = .ok () →
        (run.performAll tasks).2.unitsCompiled = run.unitsCompiled + tasks.count .unitDone) := by
  induction tasks generalizing run with
  | nil => exact ⟨Nat.le_refl _, Nat.le_refl _, fun _ => rfl⟩
  | cons task tasks ih =>
    have hcount : (task :: tasks).count .unitDone =
        [task].count .unitDone + tasks.count .unitDone := by
      rw [← List.count_append, List.singleton_append]
    have hunits := unitsCompiled_perform run task
    rcases hdone : run.perform task with ⟨_ | _, next⟩
    · rw [performAll_cons_of_error hdone]
      rw [hdone] at hunits
      simp only at hunits ⊢
      exact ⟨by omega, by omega, fun h => by cases h⟩
    · rw [performAll_cons_of_ok hdone]
      rw [hdone] at hunits
      simp only at hunits
      obtain ⟨hle, hub, heq⟩ := ih next
      exact ⟨by omega, by omega, fun h => by rw [heq h]; omega⟩

end Progress

/-! ## The schedule, cut in front of a unit -/

/-- Some steps of a play succeed exactly if all that there is to see of them took place, and nothing
that failed is among the last of it. -/
theorem Scene.play_succeeded_iff [Plugin π] (s : Scene π) (front during back : List Step)
    (hseen : during.filterMap Step.moment? ≠ []) :
    (s.play (front ++ during)).succeeded = true ↔
      ∃ f d b, (s.play (front ++ during ++ back)).frames = f ++ d ++ b ∧
        f.map Frame.moment = front.filterMap Step.moment? ∧
        d.map Frame.moment = during.filterMap Step.moment? ∧ ∀ g ∈ d, g.succeeded = true := by
  constructor
  · intro h
    have hfront : (s.play front).succeeded = true := by
      cases hs : (s.play front).succeeded with
      | true => rfl
      | false =>
        rw [play_append_of_failed hs, hs] at h
        cases h
    rw [play_append_of_succeeded h]
    rw [play_append_of_succeeded hfront] at h ⊢
    exact ⟨_, _, _, rfl, moments_play_of_succeeded hfront, moments_play_of_succeeded h,
      succeeded_of_mem_frames h⟩
  · rintro ⟨f, d, b, hframes, hf, hd, hok⟩
    cases hplay : (s.play (front ++ during)).succeeded with
    | true => rfl
    | false =>
      rw [play_append_of_failed hplay] at hframes
      -- There are no more moments than those of the steps, so nothing follows the last of them.
      have hprefix := moments_play_prefix s (front ++ during)
      have hlength := hprefix.length_le
      rw [hframes, List.filterMap_append, ← hf, ← hd] at hlength
      simp only [List.map_append, List.length_append, List.length_map] at hlength
      have hb : b = [] := List.eq_nil_of_length_eq_zero (by omega)
      obtain ⟨good, last, _, _, hlast, -, hbad, -⟩ := exists_failed_of_not_succeeded hplay
      rw [hframes, hb, List.append_nil] at hlast
      -- The failure comes last, so it is one of the moments that are no failures.
      have hne : d ≠ [] := by
        rintro rfl
        exact hseen hd.symm
      have hmem : last ∈ d := by
        rw [← List.dropLast_concat_getLast hne, ← List.append_assoc] at hlast
        rw [← List.singleton_inj.mp (List.append_inj_right' hlast rfl)]
        exact List.getLast_mem hne
      rw [hok last hmem] at hbad
      cases hbad

namespace Compilation

variable {c : Compilation π} {args : List String} {files : Files}

/-- The tasks of a run in front of its unit number `k`. -/
def scheduleTo (c : Compilation π) (k : Nat) : List Task :=
  [.enter .argsProcessed, .call .prepareContext, .call .setUp, .enter .initialized,
      .enter .phaseLoop] ++
    (c.units.take k).flatMap (·.tasks c.table)

/-- The tasks of a run from its unit number `k` on. -/
def scheduleFrom (c : Compilation π) (k : Nat) : List Task :=
  (c.units.drop k).flatMap (·.tasks c.table) ++ [.call .finish, .enter .finished]

theorem schedule_eq (c : Compilation π) (k : Nat) :
    c.schedule = c.scheduleTo k ++ c.scheduleFrom k := by
  rw [schedule, scheduleTo, scheduleFrom, List.append_assoc, List.append_assoc,
    ← List.append_assoc (List.flatMap _ (List.take k _)), ← List.flatMap_append,
    List.take_append_drop]

theorem scheduleTo_succ {k : Nat} {u : CompilationUnit} (h : c.units[k]? = some u) :
    c.scheduleTo (k + 1) = c.scheduleTo k ++ u.tasks c.table := by
  rw [scheduleTo, scheduleTo, List.append_assoc, List.take_add_one, h, List.flatMap_append]
  simp

/-- The moments of a run in front of its unit number `k`, if nothing fails. -/
def canonicalTo (c : Compilation π) (k : Nat) : List Moment :=
  let n := c.plugins.length
  Moment.ofEach n .processArgs ++ Moment.ofEach n .prepareContext ++ Moment.ofEach n .setUp ++
    (c.units.take k).flatMap (fun u => Moment.ofUnit n u.path)

/-- What can be seen of the steps in front of a unit. -/
theorem filterMap_moment_scheduleTo (c : Compilation π) (k : Nat) :
    (c.claimSteps ++ (c.scheduleTo k).flatMap (Task.steps c.plugins.length)).filterMap
      Step.moment? = c.canonicalTo k := by
  have hunits : (((c.units.take k).flatMap (·.tasks c.table)).flatMap
      (Task.steps c.plugins.length)).filterMap Step.moment? =
        (c.units.take k).flatMap (fun u => Moment.ofUnit c.plugins.length u.path) := by
    rw [List.flatMap_assoc, List.filterMap_flatMap]
    exact congrArg ((c.units.take k).flatMap ·)
      (funext fun u => filterMap_moment_unit _ u c.table)
  rw [claimSteps, scheduleTo, List.filterMap_append, List.filterMap_append, filterMap_moment_claims,
    List.flatMap_append, List.filterMap_append, hunits]
  simp only [List.flatMap_cons, List.flatMap_nil, Task.steps, List.filterMap_append,
    filterMap_moment_calls]
  simp [canonicalTo, Call.callback, Step.moment?]

theorem count_unitDone_scheduleTo {k : Nat} (h : k ≤ c.units.length) :
    (c.scheduleTo k).count .unitDone = k := by
  have hunit (u : CompilationUnit) : (u.tasks c.table).count .unitDone = 1 := by
    simp [CompilationUnit.tasks]
  have hunits : ∀ units : List CompilationUnit,
      (units.flatMap (·.tasks c.table)).count .unitDone = units.length := by
    intro units
    induction units with
    | nil => rfl
    | cons u units ih => rw [List.flatMap_cons, List.count_append, hunit, ih, List.length_cons,
        Nat.add_comm]
  rw [scheduleTo, List.count_append, hunits, List.length_take, Nat.min_eq_left h]
  simp

/-! ## The units of a run

The counter of a report is set by a task, and what took place is seen in frames. The steps up to a
unit tie the two together. -/

variable [Plugin π]

/-- All that there is to see of unit number `k` took place, and no call of it failed. -/
def WentThrough (c : Compilation π) (args : List String) (files : Files) (k : Nat) : Prop :=
  ∃ u front during back, c.units[k]? = some u ∧
    c.frames args files = front ++ during ++ back ∧
    front.map Frame.moment = c.canonicalTo k ∧
    during.map Frame.moment = Moment.ofUnit c.plugins.length u.path ∧
    ∀ f ∈ during, f.succeeded = true

/-- The steps of a run up to the end of the tasks in front of unit number `k`. -/
def stepsTo (c : Compilation π) (k : Nat) : List Step :=
  c.claimSteps ++ (c.scheduleTo k).flatMap (Task.steps c.plugins.length)

omit [Plugin π] in
theorem steps_eq_stepsTo (c : Compilation π) (k : Nat) :
    c.steps = c.stepsTo k ++ (c.scheduleFrom k).flatMap (Task.steps c.plugins.length) := by
  rw [steps_eq, c.schedule_eq k, stepsTo, List.flatMap_append, List.append_assoc]

theorem wentThrough_iff {k : Nat} (h : k < c.units.length) :
    c.WentThrough args files k ↔
      ((c.opening args files).play (c.stepsTo (k + 1))).succeeded = true := by
  let unit := (c.units[k].tasks c.table).flatMap (Task.steps c.plugins.length)
  let rest := (c.scheduleFrom (k + 1)).flatMap (Task.steps c.plugins.length)
  have hu : c.units[k]? = some c.units[k] := List.getElem?_eq_getElem h
  have hsplit : c.stepsTo (k + 1) = c.stepsTo k ++ unit := by
    rw [stepsTo, scheduleTo_succ hu, List.flatMap_append, ← List.append_assoc]
    rfl
  have hunit : unit.filterMap Step.moment? = Moment.ofUnit c.plugins.length c.units[k].path :=
    filterMap_moment_unit c.plugins.length c.units[k] c.table
  have hframes : c.frames args files =
      ((c.opening args files).play (c.stepsTo k ++ unit ++ rest)).frames := by
    rw [← hsplit, ← steps_eq_stepsTo]
    rfl
  have hseen : unit.filterMap Step.moment? ≠ [] := by simp [hunit, Moment.ofUnit]
  rw [hsplit, Scene.play_succeeded_iff _ _ _ rest hseen, ← hframes, hunit, stepsTo,
    filterMap_moment_scheduleTo]
  simp [WentThrough, hu]

/-- The claims and some of the tasks succeed exactly if the tasks can be carried out. -/
theorem play_stepsTo (files : Files) (h : (claimFlags c.plugins args).verdict = .ok ()) (k : Nat) :
    ((c.opening args files).play (c.stepsTo k)).succeeded =
      ((c.start (claimFlags c.plugins args) files).performAll (c.scheduleTo k)).1.isOk := by
  obtain ⟨hok, hscene⟩ := play_claimSteps files h
  have hl : Lifecycle.Stage.notStarted.allows (c.scheduleTo k ++ c.scheduleFrom k) = true := by
    rw [← schedule_eq]
    exact c.allows_schedule
  have hmatches := performAll_matches (c.agrees_claimed args files)
    (Lifecycle.Stage.allows_of_append hl)
  rw [length_plugins_claimed files h] at hmatches
  rw [stepsTo, Scene.play_append_of_succeeded hok, hscene]
  exact hmatches.verdict

/-- The tasks in front of a unit are carried out exactly if as many units are counted. -/
theorem lt_unitsCompiled_performAll (run : Progress π) (h : run.unitsCompiled = 0) {k : Nat}
    (hk : k < c.units.length) :
    k < (run.performAll c.schedule).2.unitsCompiled ↔
      (run.performAll (c.scheduleTo (k + 1))).1.isOk = true := by
  have hu : c.units[k]? = some c.units[k] := List.getElem?_eq_getElem hk
  have hlast : c.scheduleTo (k + 1) =
      (c.scheduleTo k ++ (c.units[k].tasks c.table).dropLast) ++ [.unitDone] := by
    rw [scheduleTo_succ hu, List.append_assoc]
    rfl
  have hfront : (c.scheduleTo k ++ (c.units[k].tasks c.table).dropLast).count .unitDone = k := by
    have := count_unitDone_scheduleTo (c := c) hk
    rw [hlast, List.count_append] at this
    simpa using this
  rw [c.schedule_eq (k + 1), Progress.performAll_append]
  rcases hdone : run.performAll (c.scheduleTo (k + 1)) with ⟨_ | _, done⟩
  · -- To count the unit does not fail, so what did stands in front of it.
    refine iff_of_false ?_ Bool.false_ne_true
    rw [hlast, Progress.performAll_append] at hdone
    have hle := (run.unitsCompiled_performAll
      (c.scheduleTo k ++ (c.units[k].tasks c.table).dropLast)).2.1
    rw [h, hfront] at hle
    split at hdone
    · cases hdone
    · rename_i heq
      cases hdone
      rw [heq] at hle
      simp only at hle ⊢
      omega
  · refine iff_of_true ?_ rfl
    have hcount := (run.unitsCompiled_performAll (c.scheduleTo (k + 1))).2.2 (by rw [hdone])
    have hle := (done.unitsCompiled_performAll (c.scheduleFrom (k + 1))).1
    rw [hdone, count_unitDone_scheduleTo hk, h] at hcount
    simp only at hcount ⊢
    omega

theorem unitsCompiled_performAll_le (run : Progress π) (h : run.unitsCompiled = 0) :
    (run.performAll c.schedule).2.unitsCompiled ≤ c.units.length ∧
      ((run.performAll c.schedule).1 = .ok () →
        (run.performAll c.schedule).2.unitsCompiled = c.units.length) := by
  have hcount : c.schedule.count .unitDone = c.units.length := by
    rw [c.schedule_eq c.units.length, List.count_append,
      count_unitDone_scheduleTo (Nat.le_refl _)]
    simp [scheduleFrom]
  obtain ⟨-, hle, heq⟩ := run.unitsCompiled_performAll c.schedule
  rw [h, hcount, Nat.zero_add] at hle heq
  exact ⟨hle, heq⟩

theorem unitsCompiled_run (files : Files) (h : (claimFlags c.plugins args).verdict = .ok ()) :
    (c.run args files).report.unitsCompiled =
      ((c.start (claimFlags c.plugins args) files).performAll c.schedule).2.unitsCompiled := by
  rw [run_of_claimed h]
  rcases (c.start (claimFlags c.plugins args) files).performAll c.schedule with ⟨_ | _, done⟩
  · rfl
  · rfl

/-- **The units that are counted are those that went through both phases.** -/
theorem lt_unitsCompiled_iff (c : Compilation π) (args : List String) (files : Files) (k : Nat) :
    k < (c.run args files).report.unitsCompiled ↔ c.WentThrough args files k := by
  by_cases hk : k < c.units.length
  · rw [wentThrough_iff hk]
    cases hverdict : (claimFlags c.plugins args).verdict with
    | error e =>
      obtain ⟨stop, hfirst, -⟩ := firstStop?_claimSteps files hverdict
      rw [run_of_rejected hverdict, ← Scene.firstStop?_eq_none_iff, stepsTo,
        Scene.firstStop?_append_of_stopped hfirst]
      exact iff_of_false (Nat.not_lt_zero k) (Option.some_ne_none stop)
    | ok _ =>
      rw [unitsCompiled_run files hverdict, play_stepsTo files hverdict]
      exact lt_unitsCompiled_performAll _ rfl hk
  · refine iff_of_false ?_ ?_
    · have hle : (c.run args files).report.unitsCompiled ≤ c.units.length := by
        cases hverdict : (claimFlags c.plugins args).verdict with
        | error e =>
          rw [run_of_rejected hverdict]
          exact Nat.zero_le _
        | ok _ =>
          rw [unitsCompiled_run files hverdict]
          exact (unitsCompiled_performAll_le _ rfl).1
      omega
    · rintro ⟨u, -, -, -, hu, -⟩
      exact hk (List.getElem?_eq_some_iff.mp hu).1

/-! ## The moves of a run

The stages of a run are those that its tasks enter, so the lifecycle never refuses a move that the
schedule makes, nor the abort of a failed one. -/

omit [Plugin π] in
theorem behind_units_append (units : List CompilationUnit) (table : SymbolTable)
    (stage : Lifecycle.Stage) (rest : List Task) :
    stage.behind (units.flatMap (·.tasks table) ++ rest) = stage.behind rest := by
  induction units with
  | nil => rfl
  | cons u units ih => exact ih

omit [Plugin π] in
theorem behind_schedule (c : Compilation π) :
    Lifecycle.Stage.notStarted.behind c.schedule = .finished := by
  rw [schedule, List.append_assoc]
  exact behind_units_append c.units c.table .phaseLoop _

omit [Plugin π] in
/-- Every call of a schedule is made in a stage from which the run can be aborted. -/
theorem abortable_schedule (c : Compilation π) :
    Lifecycle.Stage.notStarted.abortable c.schedule = true := by
  rw [schedule, List.append_assoc]
  exact Lifecycle.Stage.abortable_units_append c.units c.table rfl _

theorem abort_of_failed {claims : Sweep FlagError π (List String)} {f : Failure}
    {done : Progress π} (h : (c.start claims files).performAll c.schedule = (.error f, done)) :
    done.lifecycle.abort = .ok ⟨.aborted⟩ := by
  rw [Lifecycle.abort, Lifecycle.advance_eq_ok_iff]
  exact ⟨Progress.canAbort_of_performAll h c.allows_schedule c.abortable_schedule, rfl⟩

theorem advance_of_reached {claims : Sweep FlagError π (List String)} {front back : List Task}
    {stage : Lifecycle.Stage} {reached : Progress π}
    (hschedule : c.schedule = front ++ .enter stage :: back)
    (h : (c.start claims files).performAll front = (.ok (), reached)) :
    reached.lifecycle.advance stage = .ok ⟨stage⟩ := by
  have hl := c.allows_schedule
  rw [hschedule] at hl
  exact Lifecycle.advance_of_allows (Progress.allows_of_performAll h hl)

/-! ## The last moment of a run -/

end Compilation

/-- A plugin that is asked to claim its flags rejects what it is shown. -/
def Frame.Rejects [Plugin π] (f : Frame π) (e : FlagError) : Prop :=
  f.succeeded = false ∧ ∃ i p, f.moment = .called i .processArgs ∧ f.before.plugins[i]? = some p ∧
    (Plugin.processArgs p f.before.args).1 = .error e

/-- A call fails that is made once the flags are claimed. -/
def Frame.FailsUnderWay (f : Frame π) : Prop :=
  f.succeeded = false ∧ ∃ i callback, f.moment = .called i callback ∧ callback ≠ .processArgs

/-- What a frame shows of a stop. -/
def Frame.Shows [Plugin π] (f : Frame π) : Stop → Prop
  | .rejected e => f.Rejects e
  | .failed _ _ _ => f.FailsUnderWay

theorem Call.callback_ne_processArgs (call : Call) : call.callback ≠ .processArgs := by
  cases call with
  | inspect env => cases h : env.phase <;> simp [callback, h]
  | prepareContext => exact fun h => by cases h
  | setUp => exact fun h => by cases h
  | finish => exact fun h => by cases h

/-- A step that stops a play is seen to do so. -/
theorem Scene.exists_frame_of_stop? [Plugin π] {s : Scene π} {step : Step} {stop : Stop}
    (h : s.stop? step = some stop) :
    ∃ f, s.frame? step = some f ∧ f.succeeded = false ∧ f.Shows stop := by
  have hfailed := failed_of_stop? h
  cases step with
  | claim i =>
    refine ⟨⟨.called i .processArgs, s, _, _⟩, rfl, hfailed, ?_⟩
    rw [stop?] at h
    cases hp : s.plugins[i]? with
    | none => simp [hp] at h
    | some p =>
      rcases hclaim : Plugin.processArgs p s.args with ⟨e | rest, p'⟩
      · simp only [hp, hclaim] at h
        cases h
        exact ⟨hfailed, i, p, rfl, hp, by rw [hclaim]⟩
      · simp [hp, hclaim] at h
  | call i c =>
    refine ⟨⟨.called i c.callback, s, _, _⟩, rfl, hfailed, ?_⟩
    rw [stop?] at h
    cases hp : s.plugins[i]? with
    | none => simp [hp] at h
    | some p =>
      rcases hmake : c.make p s.session with ⟨f | _, p', session⟩
      · simp only [hp, hmake] at h
        cases h
        exact ⟨hfailed, i, c.callback, rfl, c.callback_ne_processArgs⟩
      · simp [hp, hmake] at h
  | handOver => cases h
  | announce event => cases h
  | report findings => cases h

/-! ## What a stop makes of a run -/

/-- A failure aborts a run or crashes it. -/
theorem Outcome.ofFailure_cases (f : Failure) :
    (∃ e, ofFailure f = .aborted e) ∨ ∃ message, ofFailure f = .crashed message := by
  rw [ofFailure]
  cases f.escalation? with
  | none => exact .inr ⟨f.text, rfl⟩
  | some e => exact .inl ⟨e, rfl⟩

theorem Stop.outcome_eq_invalidCommandLine_iff {stop : Stop} {e : FlagError} :
    stop.outcome = .invalidCommandLine e ↔ stop = .rejected e := by
  cases stop with
  | rejected e' => simp [outcome]
  | failed call plugin f =>
    rw [outcome]
    obtain ⟨e', h⟩ | ⟨message, h⟩ := Outcome.ofFailure_cases (f.wrapAll (call.layers plugin)) <;>
      simp [h]

namespace Compilation

variable [Plugin π] {c : Compilation π} {args : List String} {files : Files}

/-- Nothing in a run failed in front of its last moment, and of that something holds. -/
def EndsWith (c : Compilation π) (args : List String) (files : Files) (P : Frame π → Prop) : Prop :=
  ∃ front f, c.frames args files = front ++ [f] ∧ (∀ g ∈ front, g.succeeded = true) ∧ P f

theorem stop?_eq_none_iff :
    c.stop? args files = none ↔ ((c.opening args files).play c.steps).succeeded = true :=
  Scene.firstStop?_eq_none_iff

/-- A run that is stopped ends with the call that stops it. -/
theorem exists_last_of_stop? {stop : Stop} (h : c.stop? args files = some stop) :
    ∃ front f, c.frames args files = front ++ [f] ∧ (∀ g ∈ front, g.succeeded = true) ∧
      f.succeeded = false ∧ f.Shows stop := by
  obtain ⟨front, step, back, hsteps, hfront, hstop⟩ := Scene.exists_position_of_firstStop? h
  obtain ⟨f, hf, hfailed, hshows⟩ := Scene.exists_frame_of_stop? hstop
  refine ⟨((c.opening args files).play front).frames, f, ?_,
    Scene.succeeded_of_mem_frames hfront, hfailed, hshows⟩
  rw [frames, hsteps, Scene.frames_of_position hfront hstop, hf]
  rfl

/-- If the last moment of a run is a failure, it shows what stopped the run. -/
theorem exists_stop?_of_last {front : List (Frame π)} {f : Frame π}
    (hframes : c.frames args files = front ++ [f]) (hfailed : f.succeeded = false) :
    ∃ stop, c.stop? args files = some stop ∧ f.Shows stop := by
  cases hstop : c.stop? args files with
  | none =>
    have hok := Scene.succeeded_of_mem_frames (stop?_eq_none_iff.mp hstop) f
      (by show f ∈ c.frames args files; simp [hframes])
    rw [hfailed] at hok
    cases hok
  | some stop =>
    obtain ⟨before, last, hlast, -, -, hshows⟩ := exists_last_of_stop? hstop
    rw [hframes] at hlast
    rw [List.singleton_inj.mp (List.append_inj_right' hlast rfl)]
    exact ⟨stop, rfl, hshows⟩

/-! ## The outcome of a run -/

theorem completed_iff_stop? :
    (∃ status, (c.run args files).report.outcome = .completed status) ↔
      c.stop? args files = none := by
  rw [stop?_eq_none_iff]
  exact (c.run_matches args files).2.symm

/-- The command line of a run is rejected exactly if a rejected flag is what stops the run. -/
theorem invalidCommandLine_iff_stop? {e : FlagError} :
    (c.run args files).report.outcome = .invalidCommandLine e ↔
      c.stop? args files = some (.rejected e) := by
  cases hstop : c.stop? args files with
  | none =>
    obtain ⟨status, hcompleted⟩ := completed_iff_stop?.mpr hstop
    simp [hcompleted]
  | some stop =>
    rw [outcome_of_stop? hstop, Stop.outcome_eq_invalidCommandLine_iff, Option.some.injEq]

/-- What a report says of its run. -/
structure ReportTruthful (c : Compilation π) (args : List String) (files : Files) : Prop where
  /-- The command line is rejected exactly if a plugin rejects it, with the first such error. -/
  rejected_iff : ∀ e, (c.run args files).report.outcome = .invalidCommandLine e ↔
    c.EndsWith args files (·.Rejects e)
  rejected : ∀ e, (c.run args files).report.outcome = .invalidCommandLine e →
    (c.run args files).report.stage = .notStarted ∧
      (c.run args files).report.diagnostics = [] ∧ (c.run args files).report.unitsCompiled = 0
  /-- A run completes exactly if every callback is called and succeeds. -/
  completed_iff : (∃ status, (c.run args files).report.outcome = .completed status) ↔
    (c.frames args files).map Frame.moment = c.canonical ∧
      ∀ f ∈ c.frames args files, f.succeeded = true
  completed : ∀ status, (c.run args files).report.outcome = .completed status →
    (c.run args files).report.stage = .finished ∧
      (c.run args files).report.unitsCompiled = c.units.length ∧
      (status = .error ↔ ∃ d ∈ (c.run args files).report.diagnostics, d.severity = .error)
  /-- Otherwise a call has failed: a run is not stopped by anything else, the lifecycle included. -/
  stopped : (∀ e, (c.run args files).report.outcome ≠ .invalidCommandLine e) →
    (∀ status, (c.run args files).report.outcome ≠ .completed status) →
      ((∃ e, (c.run args files).report.outcome = .aborted e) ∨
        ∃ message, (c.run args files).report.outcome = .crashed message) ∧
      (c.run args files).report.stage = .aborted ∧ c.EndsWith args files (·.FailsUnderWay)
  /-- The units that are counted are those that went through both phases. -/
  counted : ∀ k, k < (c.run args files).report.unitsCompiled ↔ c.WentThrough args files k
  /-- Every move of a schedule is legal where it is reached. -/
  moves_legal : ∀ front stage back reached, c.schedule = front ++ .enter stage :: back →
    (c.start (claimFlags c.plugins args) files).performAll front = (.ok (), reached) →
      ∃ life, reached.lifecycle.advance stage = .ok life
  /-- Wherever a schedule fails, its run can be aborted. -/
  abort_legal : ∀ f done,
    (c.start (claimFlags c.plugins args) files).performAll c.schedule = (.error f, done) →
      ∃ life, done.lifecycle.abort = .ok life

theorem rejected_iff_endsWith {e : FlagError} :
    (c.run args files).report.outcome = .invalidCommandLine e ↔
      c.EndsWith args files (·.Rejects e) := by
  rw [invalidCommandLine_iff_stop?]
  constructor
  · intro h
    obtain ⟨front, f, hframes, hok, -, hshows⟩ := exists_last_of_stop? h
    exact ⟨front, f, hframes, hok, hshows⟩
  · rintro ⟨front, f, hframes, -, hrejects⟩
    obtain ⟨stop, hstop, hshows⟩ := exists_stop?_of_last hframes hrejects.1
    obtain ⟨-, i, p, hm, hp, he⟩ := hrejects
    rw [hstop]
    cases stop with
    | rejected e' =>
      -- Both errors are what the same plugin says of the same flags.
      obtain ⟨-, i', p', hm', hp', he'⟩ := hshows
      rw [hm, Moment.called.injEq] at hm'
      rw [← hm'.1, hp, Option.some.injEq] at hp'
      rw [← hp', he, Except.error.injEq] at he'
      rw [he']
    | failed call plugin g =>
      obtain ⟨-, i', callback, hm', hne⟩ := hshows
      rw [hm, Moment.called.injEq] at hm'
      exact absurd hm'.2.symm hne

theorem report_of_invalidCommandLine {e : FlagError}
    (h : (c.run args files).report.outcome = .invalidCommandLine e) :
    (c.run args files).report = ⟨.invalidCommandLine e, [], .notStarted, 0⟩ := by
  cases hverdict : (claimFlags c.plugins args).verdict with
  | error e' =>
    rw [run_of_rejected hverdict] at h ⊢
    rw [← h]
    rfl
  | ok _ =>
    -- Behind the claims it is a failure that stops a run.
    have hstop := stop?_of_claimed files hverdict
    rw [invalidCommandLine_iff_stop?.mp h] at hstop
    rcases hdone : (c.start (claimFlags c.plugins args) files).performAll c.schedule with
      ⟨f | _, done⟩
    · rw [hdone] at hstop
      simp only [Option.map_some, Stop.outcome, stoppedBy, Option.some.injEq] at hstop
      obtain ⟨e', hf⟩ | ⟨message, hf⟩ := Outcome.ofFailure_cases f <;> simp [hf] at hstop
    · rw [hdone] at hstop
      cases hstop

theorem completed_iff_frames :
    (∃ status, (c.run args files).report.outcome = .completed status) ↔
      (c.frames args files).map Frame.moment = c.canonical ∧
        ∀ f ∈ c.frames args files, f.succeeded = true := by
  rw [completed_iff_stop?, stop?_eq_none_iff]
  constructor
  · intro h
    refine ⟨?_, Scene.succeeded_of_mem_frames h⟩
    rw [← c.filterMap_moment_steps]
    exact Scene.moments_play_of_succeeded h
  · rintro ⟨-, hok⟩
    cases hplay : ((c.opening args files).play c.steps).succeeded with
    | true => rfl
    | false =>
      obtain ⟨front, f, _, _, hframes, -, hfailed, -⟩ := exists_failed_last hplay
      rw [hok f (by simp [hframes])] at hfailed
      cases hfailed

/-- A run that completes has got under way, and all its tasks were carried out. -/
theorem performAll_of_completed {status : ExitStatus}
    (h : (c.run args files).report.outcome = .completed status) :
    ∃ done, (c.start (claimFlags c.plugins args) files).performAll c.schedule = (.ok (), done) ∧
      c.run args files = concluded (.ok ()) done := by
  cases hverdict : (claimFlags c.plugins args).verdict with
  | error e =>
    rw [run_of_rejected hverdict] at h
    cases h
  | ok _ =>
    rw [run_of_claimed hverdict] at h ⊢
    rcases hdone : (c.start (claimFlags c.plugins args) files).performAll c.schedule with
      ⟨f | _, done⟩
    · rw [hdone] at h
      obtain ⟨e, hf⟩ | ⟨message, hf⟩ := Outcome.ofFailure_cases f <;>
        simp [concluded, hf] at h
    · exact ⟨done, rfl, rfl⟩

theorem report_of_completed {status : ExitStatus}
    (h : (c.run args files).report.outcome = .completed status) :
    (c.run args files).report.stage = .finished ∧
      (c.run args files).report.unitsCompiled = c.units.length ∧
      (status = .error ↔ ∃ d ∈ (c.run args files).report.diagnostics, d.severity = .error) := by
  obtain ⟨done, hdone, hrun⟩ := performAll_of_completed h
  have hstage := Progress.stage_of_performAll hdone c.allows_schedule
  have hunits := (unitsCompiled_performAll_le (c.start (claimFlags c.plugins args) files) rfl).2
    (by rw [hdone])
  have herror (d : Diagnostic) : d.severity.isError = true ↔ d.severity = .error := by
    cases d.severity <;> simp [Severity.isError]
  rw [hdone] at hunits
  rw [hrun] at h ⊢
  refine ⟨hstage.trans c.behind_schedule, hunits, ?_⟩
  obtain rfl : (if done.session.log.hasErrors then .error else .ok) = status := by
    simpa [concluded, Outcome.ofLog] using h
  simp [concluded, Log.hasErrors, herror]

/-- A run that is neither rejected nor completed is aborted, by a call that fails. -/
theorem report_of_stopped
    (hrejected : ∀ e, (c.run args files).report.outcome ≠ .invalidCommandLine e)
    (hcompleted : ∀ status, (c.run args files).report.outcome ≠ .completed status) :
    ((∃ e, (c.run args files).report.outcome = .aborted e) ∨
        ∃ message, (c.run args files).report.outcome = .crashed message) ∧
      (c.run args files).report.stage = .aborted ∧ c.EndsWith args files (·.FailsUnderWay) := by
  cases hstop : c.stop? args files with
  | none =>
    obtain ⟨status, h⟩ := completed_iff_stop?.mpr hstop
    exact absurd h (hcompleted status)
  | some stop =>
    obtain ⟨front, f, hframes, hok, -, hshows⟩ := exists_last_of_stop? hstop
    cases stop with
    | rejected e => exact absurd (invalidCommandLine_iff_stop?.mpr hstop) (hrejected e)
    | failed call plugin g =>
      refine ⟨?_, ?_, front, f, hframes, hok, hshows⟩
      · rw [outcome_of_stop? hstop]
        exact Outcome.ofFailure_cases _
      · cases hverdict : (claimFlags c.plugins args).verdict with
        | error e =>
          rw [run_of_rejected hverdict] at hrejected
          exact absurd rfl (hrejected e)
        | ok _ =>
          rw [run_of_claimed hverdict] at hcompleted ⊢
          rcases hdone : (c.start (claimFlags c.plugins args) files).performAll c.schedule with
            ⟨f | _, done⟩
          · show failedStage done.lifecycle = .aborted
            rw [failedStage, abort_of_failed hdone]
          · rw [hdone] at hcompleted
            exact absurd rfl (hcompleted _)

/-- **A report agrees with its run**, whatever the plugins do: in its outcome, its stage, its
diagnostics and the units that it counts. -/
theorem report_truthful (c : Compilation π) (args : List String) (files : Files) :
    c.ReportTruthful args files where
  rejected_iff _ := rejected_iff_endsWith
  rejected _ h := by
    rw [report_of_invalidCommandLine h]
    exact ⟨rfl, rfl, rfl⟩
  completed_iff := completed_iff_frames
  completed _ := report_of_completed
  stopped := report_of_stopped
  counted := c.lt_unitsCompiled_iff args files
  moves_legal _ _ _ _ hschedule h := ⟨_, advance_of_reached hschedule h⟩
  abort_legal _ _ h := ⟨_, abort_of_failed h⟩

end Compilation

end AnalysisHost
