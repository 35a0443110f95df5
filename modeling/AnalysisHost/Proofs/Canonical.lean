import AnalysisHost.Analysis.PhaseTrace
import AnalysisHost.Proofs.Scene

/-!
# The canonical sequence of a run

`Compilation.canonical` lists the moments of a run in which nothing fails. Whatever the plugins do,
the moments of a run are a prefix of it, cut right behind the first call that fails, and the history
of the run is what these moments leave.

The proof has two parts. `Compilation.run` and the play of `Compilation.steps` go through the same
scenes and write the same history (`run_matches`), one lemma for each of the nested loops: a sweep
(`play_sweep`), a task (`perform_matches`), a schedule (`performAll_matches`). What a play shows is
known from `Scene.play` alone.
-/

namespace AnalysisHost

variable {π : Type}

/-! ## The canonical sequence -/

namespace Moment

/-- One callback of each of `n` plugins, in registration order. -/
def ofEach (n : Nat) (callback : Callback) : List Moment :=
  (List.range n).map (.called · callback)

/-- The moments of a unit that goes through both phases. -/
def ofUnit (n : Nat) (path : String) : List Moment :=
  [.announced (.started .attribution path), .announced (.finished .attribution path)] ++
    ofEach n (.afterAttribution path) ++
    [.announced (.started .flow path), .announced (.finished .flow path)] ++
    ofEach n (.afterFlow path)

end Moment

namespace Compilation

/-- The moments of a run in which nothing fails. -/
def canonical (c : Compilation π) : List Moment :=
  let n := c.plugins.length
  Moment.ofEach n .processArgs ++ Moment.ofEach n .prepareContext ++ Moment.ofEach n .setUp ++
    c.units.flatMap (fun u => Moment.ofUnit n u.path) ++ Moment.ofEach n .finish

end Compilation

/-! ## The steps of a run -/

/-- The steps of a task, with `n` plugins. To move on in the lifecycle and to count a unit are none:
neither plugins nor listeners take part. -/
def Task.steps (n : Nat) : Task → List Step
  | .enter _ => []
  | .announce event => [.announce event]
  | .report findings => [.report findings]
  | .call c => (List.range n).map (.call · c)
  | .unitDone => []

namespace Compilation

/-- The steps of a run in which nothing fails. -/
def steps (c : Compilation π) : List Step :=
  (List.range c.plugins.length).map .claim ++
    (.handOver :: c.schedule.flatMap (Task.steps c.plugins.length))

/-- The scene in which a run begins. -/
def opening (c : Compilation π) (args : List String) (files : Files) : Scene π where
  plugins := c.plugins
  args := args
  session := c.openSession [] files

/-- The moments of a run as they take place. -/
def frames [Plugin π] (c : Compilation π) (args : List String) (files : Files) : List (Frame π) :=
  ((c.opening args files).play c.steps).frames

theorem filterMap_moment_calls (n : Nat) (call : Call) :
    ((List.range n).map (Step.call · call)).filterMap Step.moment? =
      Moment.ofEach n call.callback := by
  rw [List.filterMap_map]
  exact congrFun (List.filterMap_eq_map (f := fun i => Moment.called i call.callback)) _

theorem filterMap_moment_claims (n : Nat) :
    ((List.range n).map Step.claim).filterMap Step.moment? = Moment.ofEach n .processArgs := by
  rw [List.filterMap_map]
  exact congrFun (List.filterMap_eq_map (f := fun i => Moment.called i .processArgs)) _

/-- What can be seen of the tasks of a unit. -/
theorem filterMap_moment_unit (n : Nat) (u : CompilationUnit) (table : SymbolTable) :
    ((u.tasks table).flatMap (Task.steps n)).filterMap Step.moment? = Moment.ofUnit n u.path := by
  simp only [CompilationUnit.tasks, List.flatMap_cons, List.flatMap_nil, Task.steps,
    List.filterMap_append, filterMap_moment_calls, List.filterMap_cons, List.filterMap_nil,
    Step.moment?]
  simp [Moment.ofUnit, Call.callback, Env.phase, Env.path]

/-- What can be seen of the steps of a run is the canonical sequence. -/
theorem filterMap_moment_steps (c : Compilation π) :
    c.steps.filterMap Step.moment? = c.canonical := by
  have hunits : ((c.units.flatMap (·.tasks c.table)).flatMap
      (Task.steps c.plugins.length)).filterMap Step.moment? =
        c.units.flatMap (fun u => Moment.ofUnit c.plugins.length u.path) := by
    rw [List.flatMap_assoc, List.filterMap_flatMap]
    exact congrArg (c.units.flatMap ·) (funext fun u => filterMap_moment_unit _ u c.table)
  rw [steps, schedule, List.filterMap_append, filterMap_moment_claims,
    List.filterMap_cons_none rfl, List.flatMap_append, List.flatMap_append,
    List.filterMap_append, List.filterMap_append, hunits]
  simp only [List.flatMap_cons, List.flatMap_nil, Task.steps, List.filterMap_append,
    filterMap_moment_calls]
  simp [canonical, Call.callback]

end Compilation

/-! ## A sweep is a play of one step for each plugin -/

variable [Plugin π]

/-- A sweep and the play of one step for each plugin, if the step does to a scene what the call does
to what is lent. Of the plugins, some have been called already and some are waiting. -/
theorem play_sweep {ε α : Type} (call : π → α → Except ε Unit × π × α) (step : Nat → Step)
    (scene : List π → α → Scene π) {callback : Callback}
    (hmoment : ∀ i, (step i).moment? = some (.called i callback))
    (hperform : ∀ called p waiting lent,
      (scene (called ++ p :: waiting) lent).perform (step called.length) =
        ((call p lent).1.isOk, scene (called ++ (call p lent).2.1 :: waiting) (call p lent).2.2))
    (called waiting : List π) (lent : α) :
    let s := sweep call waiting lent
    let t := (scene (called ++ waiting) lent).play
      ((List.range' called.length waiting.length).map step)
    t.succeeded = s.verdict.isOk ∧ t.scene = scene (called ++ s.plugins) s.lent ∧
      t.frames.flatMap Frame.occurrences =
        (List.range' called.length s.calls).map (.called · callback) := by
  induction waiting generalizing called lent with
  | nil => simp [sweep, Scene.play, Except.isOk, Except.toBool]
  | cons p waiting ih =>
    have hp := hperform called p waiting lent
    have hframe : ((scene (called ++ p :: waiting) lent).frame? (step called.length)).toList.flatMap
        Frame.occurrences = [.called called.length callback] := by
      simp [Scene.frame?, hmoment, Frame.occurrences]
    -- The next plugin to be called stands right behind those that have been.
    simp only [List.length_cons, List.range'_succ, List.map_cons]
    rcases hcall : call p lent with ⟨verdict, p', lent'⟩
    rw [hcall] at hp
    cases verdict with
    | error e =>
      rw [sweep_cons_of_error hcall, Scene.play_cons_of_failed (by rw [hp]; rfl), hp]
      exact ⟨rfl, rfl, hframe⟩
    | ok _ =>
      rw [sweep_cons_of_ok hcall, Scene.play_cons_of_succeeded (by rw [hp]; rfl), hp]
      -- From here on the plugin, as the call left it, is one of those called.
      have := ih (called ++ [p']) lent'
      simp only [List.append_assoc, List.singleton_append, List.length_append,
        List.length_singleton] at this
      obtain ⟨hok, hscene, hframes⟩ := this
      refine ⟨hok, hscene, ?_⟩
      rw [List.flatMap_append, hframe, hframes]
      rfl

/-- The step of a plugin that claims its flags, behind those that have claimed theirs. -/
theorem Scene.perform_claim (called : List π) (p : π) (waiting : List π) (args : List String)
    (session : Session) :
    (Scene.mk (called ++ p :: waiting) args session).perform (.claim called.length) =
      match Plugin.processArgs p args with
      | (.ok rest, p) => (true, ⟨called ++ p :: waiting, rest, session⟩)
      | (.error _, p) => (false, ⟨called ++ p :: waiting, args, session⟩) := by
  simp only [perform]
  rw [List.getElem?_append_right (Nat.le_refl _), Nat.sub_self, List.getElem?_cons_zero]
  rcases hclaim : Plugin.processArgs p args with ⟨_ | rest, p'⟩ <;> simp [hclaim]

/-- The step of a plugin that is called, behind those that have been called. -/
theorem Scene.perform_call (called : List π) (p : π) (waiting : List π) (args : List String)
    (session : Session) (c : Call) :
    (Scene.mk (called ++ p :: waiting) args session).perform (.call called.length c) =
      ((c.make p session).1.isOk,
        ⟨called ++ (c.make p session).2.1 :: waiting, args, (c.make p session).2.2⟩) := by
  simp only [perform]
  rw [List.getElem?_append_right (Nat.le_refl _), Nat.sub_self, List.getElem?_cons_zero]
  simp

/-- Claiming flags is a play. -/
theorem play_claims (plugins : List π) (args : List String) (session : Session) :
    let s := claimFlags plugins args
    let t := (Scene.mk plugins args session).play ((List.range plugins.length).map .claim)
    t.succeeded = s.verdict.isOk ∧ t.scene = ⟨s.plugins, s.lent, session⟩ ∧
      t.frames.flatMap Frame.occurrences = s.history .processArgs := by
  rw [List.range_eq_range']
  have := play_sweep
    (fun p args =>
      match Plugin.processArgs p args with
      | (.ok rest, p) => (.ok (), p, rest)
      | (.error e, p) => (.error e, p, args))
    .claim (fun plugins args => Scene.mk plugins args session) (fun _ => rfl) ?_ [] plugins args
  · refine ⟨this.1, this.2.1, this.2.2.trans ?_⟩
    rw [Sweep.history, List.range_eq_range']
    rfl
  · intro called p waiting args
    rw [Scene.perform_claim]
    rcases Plugin.processArgs p args with ⟨_ | rest, p'⟩ <;> rfl

/-- A call to every plugin is a play. -/
theorem play_calls (plugins : List π) (args : List String) (session : Session) (call : Call) :
    let s := sweep call.makeLayered plugins session
    let t := (Scene.mk plugins args session).play ((List.range plugins.length).map (.call · call))
    t.succeeded = s.verdict.isOk ∧ t.scene = ⟨s.plugins, args, s.lent⟩ ∧
      t.frames.flatMap Frame.occurrences = s.history call.callback := by
  rw [List.range_eq_range']
  have := play_sweep call.makeLayered (.call · call)
    (fun plugins session => Scene.mk plugins args session) (fun _ => rfl) ?_ [] plugins session
  · refine ⟨this.1, this.2.1, this.2.2.trans ?_⟩
    rw [Sweep.history, List.range_eq_range']
    rfl
  · intro called p waiting session
    rw [Scene.perform_call]
    rcases hmake : call.make p session with ⟨_ | _, p', session'⟩
    · rw [Call.makeLayered_of_error hmake]
      rfl
    · rw [Call.makeLayered_of_ok hmake]

/-! ## A schedule is a play -/

/-- Whether the moves that tasks make in the lifecycle are legal, from a stage on. -/
def Lifecycle.Stage.allows : Lifecycle.Stage → List Task → Bool
  | _, [] => true
  | stage, .enter next :: tasks => stage.canMoveTo next && next.allows tasks
  | stage, _ :: tasks => stage.allows tasks

omit [Plugin π] in
theorem Lifecycle.advance_of_allows {life : Lifecycle} {next : Stage} {tasks : List Task}
    (h : life.stage.allows (.enter next :: tasks) = true) : life.advance next = .ok ⟨next⟩ := by
  simp only [Stage.allows, Bool.and_eq_true] at h
  exact advance_eq_ok_iff.mpr ⟨h.1, rfl⟩

/-- A scene shows the plugins and the session of a run. It knows nothing of the lifecycle and of the
units counted. -/
structure Progress.Agrees (run : Progress π) (s : Scene π) : Prop where
  plugins : run.plugins = s.plugins
  session : run.session = s.session

/-- From a run under way, carrying out tasks and playing steps come to the same: the same verdict,
agreement at the end, and the same addition to the history. -/
structure Progress.Matches (run : Progress π) (done : Except Failure Unit × Progress π)
    (t : Scene.Take π) : Prop where
  verdict : t.succeeded = done.1.isOk
  agrees : done.2.Agrees t.scene
  history : done.2.history = run.history ++ t.frames.flatMap Frame.occurrences

/-- A task is a play, if the lifecycle allows it. -/
theorem perform_matches {run : Progress π} {s : Scene π} (h : run.Agrees s) {task : Task}
    {tasks : List Task} (hl : run.lifecycle.stage.allows (task :: tasks) = true) :
    run.Matches (run.perform task) (s.play (task.steps s.plugins.length)) := by
  obtain ⟨plugins, session, lifecycle, units, history⟩ := run
  obtain ⟨splugins, args, ssession⟩ := s
  obtain ⟨rfl, rfl⟩ := h
  cases task with
  | enter next =>
    simp only [Progress.perform, Lifecycle.advance_of_allows hl]
    exact ⟨rfl, ⟨rfl, rfl⟩, (List.append_nil _).symm⟩
  | announce event =>
    refine ⟨rfl, ⟨rfl, rfl⟩, ?_⟩
    simp [Progress.perform, Progress.announce, Task.steps, Scene.play, Scene.perform,
      Scene.frame?, Step.moment?, Frame.occurrences]
  | report findings =>
    exact ⟨rfl, ⟨rfl, rfl⟩, (List.append_nil _).symm⟩
  | call c =>
    obtain ⟨hok, hscene, hframes⟩ := play_calls plugins args session c
    refine ⟨hok, ?_, ?_⟩
    · rw [Task.steps, hscene]
      exact ⟨rfl, rfl⟩
    · rw [Task.steps, hframes]
      rfl
  | unitDone =>
    exact ⟨rfl, ⟨rfl, rfl⟩, (List.append_nil _).symm⟩

theorem allows_of_perform {run done : Progress π} {task : Task} {tasks : List Task}
    (h : run.perform task = (.ok (), done))
    (hl : run.lifecycle.stage.allows (task :: tasks) = true) :
    done.lifecycle.stage.allows tasks = true := by
  cases task with
  | enter next =>
    simp only [Progress.perform, Lifecycle.advance_of_allows hl, Prod.mk.injEq, true_and] at h
    subst h
    simp only [Lifecycle.Stage.allows, Bool.and_eq_true] at hl
    exact hl.2
  | announce event =>
    cases h
    exact hl
  | report findings =>
    cases h
    exact hl
  | call c =>
    have hrun := congrArg (fun r => r.2.lifecycle) h
    simp only [Progress.perform, Progress.call] at hrun
    rw [← hrun]
    exact hl
  | unitDone =>
    cases h
    exact hl

/-- Carrying out tasks is a play, if the lifecycle allows them. -/
theorem performAll_matches {run : Progress π} {s : Scene π} (h : run.Agrees s) {tasks : List Task}
    (hl : run.lifecycle.stage.allows tasks = true) :
    run.Matches (run.performAll tasks) (s.play (tasks.flatMap (Task.steps s.plugins.length))) := by
  induction tasks generalizing run s with
  | nil => exact ⟨rfl, h, (List.append_nil _).symm⟩
  | cons task tasks ih =>
    have htask := perform_matches h hl
    -- The steps of the remaining tasks are those for as many plugins.
    have hlength := Scene.length_plugins_play s (task.steps s.plugins.length)
    rw [List.flatMap_cons, Progress.performAll]
    rcases hdone : run.perform task with ⟨_ | _, done⟩
    · rw [hdone] at htask
      rw [Scene.play_append_of_failed htask.verdict]
      exact htask
    · rw [hdone] at htask
      have hrest := ih htask.agrees (allows_of_perform hdone hl)
      rw [hlength] at hrest
      rw [Scene.play_append_of_succeeded htask.verdict]
      refine ⟨hrest.verdict, hrest.agrees, ?_⟩
      rw [hrest.history, htask.history, List.flatMap_append, List.append_assoc]

/-! ## A run is a play -/

namespace Compilation

omit [Plugin π] in
/-- The tasks of units make no move in the lifecycle. -/
theorem allows_units_append (units : List CompilationUnit) (table : SymbolTable)
    (stage : Lifecycle.Stage) (rest : List Task) :
    stage.allows (units.flatMap (·.tasks table) ++ rest) = stage.allows rest := by
  induction units with
  | nil => rfl
  | cons u units ih => exact ih

omit [Plugin π] in
/-- The lifecycle allows the whole schedule, so no run is ever stopped by a move in it. -/
theorem allows_schedule (c : Compilation π) :
    Lifecycle.Stage.notStarted.allows c.schedule = true := by
  rw [schedule, List.append_assoc]
  exact allows_units_append c.units c.table .phaseLoop _

omit [Plugin π] in
/-- A run that got under way completes exactly if nothing stopped it. -/
theorem completed_concluded_iff (verdict : Except Failure Unit) (done : Progress π) :
    (∃ status, (concluded verdict done).report.outcome = .completed status) ↔
      verdict.isOk = true := by
  cases verdict with
  | ok _ => simp [concluded, Outcome.ofLog, Except.isOk, Except.toBool]
  | error f =>
    simp only [concluded, Outcome.ofFailure]
    cases f.escalation? <;> simp [Except.isOk, Except.toBool]

/-- A run and its play: the history is what the frames leave, and the run completes exactly if
nothing in the play fails. -/
theorem run_matches (c : Compilation π) (args : List String) (files : Files) :
    (c.run args files).history = (c.frames args files).flatMap Frame.occurrences ∧
      (((c.opening args files).play c.steps).succeeded = true ↔
        ∃ status, (c.run args files).report.outcome = .completed status) := by
  let claims := claimFlags c.plugins args
  have hclaims := play_claims c.plugins args (c.openSession [] files)
  obtain ⟨hok, hscene, hframes⟩ := hclaims
  have hlength := Scene.length_plugins_play (c.opening args files)
    ((List.range c.plugins.length).map .claim)
  rw [frames, steps, opening]
  rw [opening, hscene] at hlength
  rcases hverdict : claims.verdict with e | _
  · -- A claim failed, so neither the run nor the play gets any further.
    rw [hverdict] at hok
    rw [Scene.play_append_of_failed hok, hok]
    simp [run, claims, hverdict, rejected, hframes, Except.isOk, Except.toBool]
  · -- The scene behind the claims is what the schedule starts from.
    rw [hverdict] at hok
    rw [Scene.play_append_of_succeeded hok, hscene, Scene.play_cons_of_succeeded rfl]
    have hagrees : (c.start claims files).Agrees
        ⟨claims.plugins, claims.lent, c.openSession claims.lent files⟩ := ⟨rfl, rfl⟩
    have hrest := performAll_matches hagrees c.allows_schedule
    rw [hlength] at hrest
    have hrun : c.run args files =
        concluded ((c.start claims files).performAll c.schedule).1
          ((c.start claims files).performAll c.schedule).2 := by
      rw [run]
      simp only [claims] at hverdict
      rw [hverdict]
    rw [hrun]
    constructor
    · show ((c.start claims files).performAll c.schedule).2.history = _
      rw [hrest.history, List.flatMap_append, hframes]
      rfl
    · rw [completed_concluded_iff]
      exact iff_of_eq (congrArg (· = true) hrest.verdict)

/-! ## Where the canonical sequence is cut -/

omit [Plugin π] in
/-- The canonical sequence only calls plugins that are there. -/
theorem lt_of_called_mem_canonical {c : Compilation π} {plugin : Nat} {callback : Callback}
    (h : .called plugin callback ∈ c.canonical) : plugin < c.plugins.length := by
  simp only [canonical, Moment.ofEach, Moment.ofUnit, List.mem_append, List.mem_map, List.mem_range,
    List.mem_flatMap, List.mem_cons, Moment.called.injEq] at h
  grind

omit [Plugin π] in
/-- The canonical sequence ends with the conclusion of the last plugin, which comes nowhere else. -/
theorem canonical_eq_concat {c : Compilation π} {n : Nat} (h : c.plugins.length = n + 1) :
    ∃ front, c.canonical = front ++ [.called n .finish] ∧ .called n .finish ∉ front := by
  refine ⟨Moment.ofEach (n + 1) .processArgs ++ Moment.ofEach (n + 1) .prepareContext ++
    Moment.ofEach (n + 1) .setUp ++ c.units.flatMap (fun u => Moment.ofUnit (n + 1) u.path) ++
    Moment.ofEach n .finish, ?_, ?_⟩
  · simp [canonical, h, Moment.ofEach, List.range_succ]
  · simp [Moment.ofEach, Moment.ofUnit]

theorem moments_prefix (c : Compilation π) (args : List String) (files : Files) :
    (c.frames args files).map Frame.moment <+: c.canonical := by
  rw [← c.filterMap_moment_steps]
  exact Scene.moments_play_prefix _ _

theorem exists_failed_last {c : Compilation π} {args : List String} {files : Files}
    (h : ((c.opening args files).play c.steps).succeeded = false) :
    ∃ front f plugin callback, c.frames args files = front ++ [f] ∧
      (∀ g ∈ front, g.succeeded = true) ∧ f.succeeded = false ∧
      f.moment = .called plugin callback :=
  Scene.exists_failed_of_not_succeeded h

/-- The moments of a run are the whole canonical sequence exactly if no call fails, or none but the
very last of the sequence. -/
theorem moments_eq_canonical_iff (c : Compilation π) (args : List String) (files : Files) :
    (c.frames args files).map Frame.moment = c.canonical ↔
      ∀ f ∈ c.frames args files, f.succeeded = false →
        f.moment = .called (c.plugins.length - 1) .finish := by
  cases hplay : ((c.opening args files).play c.steps).succeeded with
  | true =>
    refine iff_of_true ?_ ?_
    · rw [← c.filterMap_moment_steps]
      exact Scene.moments_play_of_succeeded hplay
    · intro f hf hfailed
      rw [Scene.succeeded_of_mem_frames hplay f hf] at hfailed
      cases hfailed
  | false =>
    obtain ⟨front, f, plugin, callback, hframes, hok, hfailed, hm⟩ := exists_failed_last hplay
    have hmem : .called plugin callback ∈ c.canonical := by
      refine (c.moments_prefix args files).subset ?_
      rw [hframes, ← hm]
      simp
    -- A call was made, so there is a last plugin.
    obtain ⟨n, hn⟩ := Nat.exists_eq_add_one_of_ne_zero
      (Nat.ne_of_gt (Nat.lt_of_le_of_lt (Nat.zero_le _) (lt_of_called_mem_canonical hmem)))
    obtain ⟨before, hcanonical, hnot⟩ := canonical_eq_concat hn
    rw [hn, Nat.add_sub_cancel]
    constructor
    · -- The whole sequence ends with the conclusion of the last plugin, and so do the frames.
      intro hwhole g hg hgfailed
      rw [hframes, List.mem_append, List.mem_singleton] at hg
      rcases hg with hg | rfl
      · rw [hok g hg] at hgfailed
        cases hgfailed
      · rw [hframes, hcanonical, List.map_append] at hwhole
        apply List.singleton_inj.mp
        exact List.append_inj_right' hwhole rfl
    · -- A proper prefix would stop in front of the only place where that conclusion stands.
      intro h
      have hlast : f.moment = .called n .finish := h f (by rw [hframes]; simp) hfailed
      have hprefix := c.moments_prefix args files
      rw [hframes, List.map_append, List.map_singleton, hlast, hcanonical,
        List.prefix_concat_iff] at hprefix
      rcases hprefix with hwhole | hshort
      · rw [hframes, hcanonical, List.map_append, List.map_singleton, hlast]
        exact hwhole
      · exact absurd (hshort.subset (by simp)) hnot

/-- **The history of a run follows the canonical sequence.** Its moments are a prefix of the
canonical sequence. Of the calls among them none but the last fails; if the prefix is a proper one,
then the last does; and it is a proper one unless no call fails or the one that does is the last of
the whole sequence. The run completes exactly if no call fails. The history is what the moments
leave: a call itself, and an event once for every listener that was there before it, in the order of
installation, and that is also what each of these listeners hears. -/
theorem history_follows_canonical (c : Compilation π) (args : List String) (files : Files) :
    let frames := c.frames args files
    let moments := frames.map Frame.moment
    let run := c.run args files
    moments <+: c.canonical ∧
      run.history = frames.flatMap Frame.occurrences ∧
      (∀ f ∈ frames.dropLast, f.succeeded = true) ∧
      (moments ≠ c.canonical → ∃ f plugin callback, frames.getLast? = some f ∧
        f.moment = .called plugin callback ∧ f.succeeded = false) ∧
      (moments = c.canonical ↔ ∀ f ∈ frames, f.succeeded = false →
        f.moment = .called (c.plugins.length - 1) .finish) ∧
      ((∀ f ∈ frames, f.succeeded = true) ↔ ∃ status, run.report.outcome = .completed status) ∧
      ∀ f ∈ frames, ∀ event, f.moment = .announced event →
        let before := f.before.session.context
        let after := f.after.session.context
        f.occurrences = (List.range before.listeners.length).map (fun i => .heard ⟨i, event⟩) ∧
          after.listeners.length = before.listeners.length ∧
          ∀ i < before.listeners.length, after.heard i = before.heard i ++ [event] := by
  intro frames moments run
  obtain ⟨hhistory, hcompleted⟩ := c.run_matches args files
  refine ⟨c.moments_prefix args files, hhistory, ?_, ?_, c.moments_eq_canonical_iff args files,
    ?_, ?_⟩
  · cases hplay : ((c.opening args files).play c.steps).succeeded with
    | true =>
      intro f hf
      exact Scene.succeeded_of_mem_frames hplay f ((List.dropLast_sublist _).subset hf)
    | false =>
      obtain ⟨front, f, _, _, hframes, hok, -⟩ := exists_failed_last hplay
      simp only [frames, hframes, List.dropLast_concat]
      exact hok
  · intro hshort
    cases hplay : ((c.opening args files).play c.steps).succeeded with
    | true =>
      refine absurd ?_ hshort
      rw [← c.filterMap_moment_steps]
      exact Scene.moments_play_of_succeeded hplay
    | false =>
      obtain ⟨front, f, plugin, callback, hframes, -, hfailed, hm⟩ := exists_failed_last hplay
      exact ⟨f, plugin, callback, by simp [frames, hframes], hm, hfailed⟩
  · rw [← hcompleted]
    cases hplay : ((c.opening args files).play c.steps).succeeded with
    | true => exact iff_of_true (Scene.succeeded_of_mem_frames hplay) rfl
    | false =>
      obtain ⟨front, f, _, _, hframes, -, hfailed, -⟩ := exists_failed_last hplay
      refine iff_of_false (fun h => ?_) Bool.false_ne_true
      rw [h f (by simp [frames, hframes])] at hfailed
      cases hfailed
  · intro f hf event hm before after
    have hafter : after = before.notify event := Scene.context_after_of_announced hf hm
    refine ⟨?_, ?_, ?_⟩
    · simp [Frame.occurrences, hm, Context.deliveries_eq, before]
    · rw [hafter, Context.length_listeners_notify]
    · intro i hi
      rw [hafter, Context.heard_notify before event hi]

/-- That a call fails does not mean that something is missing: here the trace cannot be written, so
the last call of the canonical sequence fails, and all of the sequence has taken place. -/
theorem whole_sequence_of_failed_finish :
    let c : Compilation PhaseTrace := { units := [], table := {}, plugins := [{}] }
    let frames := c.frames ["--trace-dir=blocked"] { entries := [(["blocked"], .file (some ""))] }
    ¬ (frames.map Frame.moment = c.canonical ↔ ∀ f ∈ frames, f.succeeded = true) := by
  decide +kernel

end Compilation

end AnalysisHost
