import AnalysisHost.Proofs.Tracing

/-!
# What a run writes

Of all that happens in a run, one thing writes a file: an analysis that traces to a directory
concludes, and succeeds in it. `Frame.WritesTrace` is that moment, and this file says what it comes
to for the files that a run leaves.

- `Compilation.sameFiles_of_not_writesTrace`: a run that writes no trace writes no file at all;
- `Compilation.hasTraced_of_writesTrace`: a trace that has been written is there at the end.
-/

namespace AnalysisHost

/-! ## What is written -/

/-- A trace is written: an analysis that traces to a directory concludes, and what it has traced
goes into the file. -/
def Frame.WritesTrace (f : Frame Bundled) : Prop :=
  ∃ i t directory, f.moment = .called i .finish ∧ f.before.plugins[i]? = some (.phaseTrace t) ∧
    t.directory? = some directory ∧
    PhaseTrace.writeTrace f.before.session.files directory
      (t.lastTrace f.before.session).toJson.render = (.ok (), f.after.session.files)

/-- A trace is written in the course of a run. -/
def Compilation.WritesTrace (c : Compilation Bundled) (args : List String) (files : Files) : Prop :=
  ∃ f ∈ c.frames args files, f.WritesTrace

/-- A trace that cannot be written leaves the files as they are. -/
theorem PhaseTrace.sameFiles_writeTrace {files files' : Files} {directory text : String}
    {e : FileError} (h : writeTrace files directory text = (.error e, files')) :
    files.SameFiles files' := by
  have hmade := files.sameFiles_createDirectories directory
  unfold writeTrace at h
  rcases hcreate : files.createDirectories directory with ⟨e' | _, made⟩
  · rw [hcreate] at h hmade
    cases h
    exact hmade
  · rw [hcreate] at h hmade
    dsimp only at h
    split at h
    · cases h
      exact hmade
    · cases h

/-- Nothing but the conclusion of a trace writes a file. -/
theorem Bundled.sameFiles_make (p : Bundled) (c : Call) (s : Session) :
    s.files.SameFiles (c.make p s).2.2.files ∨
      ∃ t directory, p = .phaseTrace t ∧ c = .finish ∧ t.directory? = some directory ∧
        PhaseTrace.writeTrace s.files directory (t.lastTrace s).toJson.render =
          (.ok (), (c.make p s).2.2.files) := by
  obtain hp | ⟨t, rfl⟩ := p.isTrace_eq_false_or
  · obtain ⟨e, he⟩ := exists_acts hp c (ImportCycles.graphIn s.context)
    rw [he.make_eq s (p.sees_self s)]
    exact .inl (Files.SameFiles.refl s.files)
  · cases c with
    | prepareContext => exact .inl (Files.SameFiles.refl s.files)
    | setUp => exact .inl (Files.SameFiles.refl s.files)
    | inspect env =>
      left
      cases hphase : env.phase with
      | attribution =>
        rw [Call.make_inspect_attribution hphase]
        exact Files.SameFiles.refl s.files
      | flow =>
        rw [Call.make_inspect_flow hphase]
        exact Files.SameFiles.refl s.files
    | finish =>
      have hfiles : (Call.finish.make (phaseTrace t) s).2.2.files = (t.finish s).2.2.files := rfl
      rw [hfiles]
      cases hdirectory : t.directory? with
      | none =>
        rw [PhaseTrace.finish_of_none hdirectory]
        exact .inl (Files.SameFiles.refl s.files)
      | some directory =>
        rcases hwrite : PhaseTrace.writeTrace s.files directory (t.lastTrace s).toJson.render with
          ⟨e | _, files⟩
        · rw [PhaseTrace.finish_of_write_error hdirectory hwrite]
          exact .inl (PhaseTrace.sameFiles_writeTrace hwrite)
        · rw [PhaseTrace.finish_of_written hdirectory hwrite]
          exact .inr ⟨t, directory, rfl, rfl, hdirectory, hwrite⟩

namespace Scene

theorem sameFiles_perform (s : Scene Bundled) (step : Step) :
    s.session.files.SameFiles (s.perform step).2.session.files ∨
      ∃ f, s.frame? step = some f ∧ f.WritesTrace := by
  cases step with
  | call i c =>
    cases hp : s.plugins[i]? with
    | none =>
      left
      simp only [perform, hp]
      exact Files.SameFiles.refl _
    | some p =>
      have hfiles : (s.perform (.call i c)).2.session.files = (c.make p s.session).2.2.files := by
        simp only [perform, hp]
      rw [hfiles]
      obtain hsame | ⟨t, directory, rfl, rfl, hdirectory, hwrite⟩ := p.sameFiles_make c s.session
      · exact .inl hsame
      · rw [← hfiles] at hwrite
        exact .inr ⟨_, rfl, i, t, directory, rfl, hp, hdirectory, hwrite⟩
  | claim i =>
    left
    simp only [perform]
    split
    · exact Files.SameFiles.refl _
    · split <;> exact Files.SameFiles.refl _
  | handOver => exact .inl (Files.SameFiles.refl _)
  | announce event => exact .inl (Files.SameFiles.refl _)
  | report findings => exact .inl (Files.SameFiles.refl _)

theorem sameFiles_play {s : Scene Bundled} {steps : List Step}
    (h : ∀ f ∈ (s.play steps).frames, ¬ f.WritesTrace) :
    s.session.files.SameFiles (s.play steps).scene.session.files := by
  induction steps generalizing s with
  | nil => exact Files.SameFiles.refl _
  | cons step steps ih =>
    -- The frame of the first step is there whether it succeeds or not.
    have hfirst (hmem : (s.frame? step).toList ⊆ (s.play (step :: steps)).frames) :
        s.session.files.SameFiles (s.perform step).2.session.files := by
      obtain hsame | ⟨f, hf, hwrites⟩ := s.sameFiles_perform step
      · exact hsame
      · exact absurd hwrites (h f (hmem (Option.mem_toList.mpr hf)))
    cases hs : (s.perform step).1 with
    | true =>
      rw [play_cons_of_succeeded hs] at h hfirst ⊢
      refine (hfirst (List.subset_append_left _ _)).trans (ih ?_)
      intro f hf
      exact h f (List.mem_append_right _ hf)
    | false =>
      rw [play_cons_of_failed hs] at hfirst ⊢
      exact hfirst (List.Subset.refl _)

end Scene

/-- **A run that writes no trace writes no file at all.** There may be directories that were not
there before. -/
theorem Compilation.sameFiles_of_not_writesTrace {c : Compilation Bundled} {args : List String}
    {files : Files} (h : ¬ c.WritesTrace args files) :
    files.SameFiles (c.run args files).files := by
  cases hverdict : (claimFlags c.plugins args).verdict with
  | error e =>
    rw [run_of_rejected hverdict]
    exact Files.SameFiles.refl files
  | ok _ =>
    obtain ⟨verdict, done, hrun, hagrees⟩ := exists_concluded files hverdict
    rw [hrun]
    show files.SameFiles done.session.files
    rw [hagrees.session]
    apply Scene.sameFiles_play (s := c.claimed args files)
    intro f hf hwrites
    apply h
    refine ⟨f, ?_, hwrites⟩
    rw [frames_of_claimed files hverdict]
    exact List.mem_append_right _ hf

/-! ## The trace in the file -/

/-- What has been read in a trace file is read there as long as no file changes. -/
theorem PhaseTrace.Written.of_sameFiles {files files' : Files} {directory : String} {trace : Trace}
    (h : Written files directory trace) (hsame : files.SameFiles files') :
    Written files' directory trace := by
  obtain ⟨text, htext, hprinted⟩ := h
  exact ⟨text, hsame.readText?_eq_some htext, hprinted⟩

namespace Bundled

/-- Which analysis it is, and where it traces to. -/
def label (p : Bundled) : String × Option String := (Plugin.name p, p.directory?)

theorem label_make (c : Call) (p : Bundled) (s : Session) :
    (c.make p s).2.1.label = p.label := by
  have hdirectory : (c.make p s).2.1.directory? = p.directory? := congrArg (·.2) (role_make p c s)
  rw [label, label, name_make, hdirectory]

theorem name_claimFlags (ps : List Bundled) (args : List String) :
    (claimFlags ps args).plugins.map Plugin.name = ps.map Plugin.name := by
  apply map_plugins_sweep
  intro p args
  rcases hclaim : Plugin.processArgs p args with ⟨_ | _, p'⟩
  · exact name_processArgs hclaim
  · exact name_processArgs hclaim

/-- Two lists of analyses with the same labels have the same analyses in the same places. -/
theorem exists_getElem?_of_labels {ps qs : List Bundled} (h : ps.map label = qs.map label)
    {i : Nat} {p : Bundled} (hp : ps[i]? = some p) :
    ∃ q, qs[i]? = some q ∧ Plugin.name q = Plugin.name p ∧ q.directory? = p.directory? := by
  have hlabel : (qs.map label)[i]? = some p.label := by
    rw [← h, List.getElem?_map, hp]
    rfl
  rw [List.getElem?_map, Option.map_eq_some_iff] at hlabel
  obtain ⟨q, hq, heq⟩ := hlabel
  exact ⟨q, hq, congrArg (·.1) heq, congrArg (·.2) heq⟩

/-- A trace is read in the file for it, in the directory that one of some analyses traces to. -/
def HasTraced (ps : List Bundled) (files : Files) : Prop :=
  ∃ p ∈ ps, ∃ directory trace, p.directory? = some directory ∧
    PhaseTrace.Written files directory trace

end Bundled

/-- Only the step of a conclusion is seen as one. -/
theorem Step.eq_finish_of_moment? {step : Step} {i : Nat}
    (h : step.moment? = some (.called i .finish)) : step = .call i .finish := by
  cases step with
  | call j c =>
    cases c with
    | inspect env => cases hphase : env.phase <;> simp [moment?, Call.callback, hphase] at h
    | finish =>
      cases h
      rfl
    | prepareContext => cases h
    | setUp => cases h
  | claim j => cases h
  | handOver => cases h
  | announce event => cases h
  | report findings => cases h

/-- The step in which a trace concludes. -/
theorem Scene.perform_trace_finish {s : Scene Bundled} {i : Nat} {t : PhaseTrace}
    (hp : s.plugins[i]? = some (.phaseTrace t)) :
    s.perform (.call i .finish) =
      ((t.finish s.session).1.isOk,
        ⟨s.plugins.set i (.phaseTrace (t.finish s.session).2.1), s.args,
          (t.finish s.session).2.2⟩) := by
  simp only [perform, hp]
  rfl

/-- The moment at which a trace is written is a conclusion that succeeds. -/
theorem Frame.WritesTrace.of_frame {f : Frame Bundled} (h : f.WritesTrace) {s : Scene Bundled}
    {step : Step} (hf : s.frame? step = some f) :
    f.succeeded = true ∧ ∃ i p directory trace, step = .call i .finish ∧
      s.plugins[i]? = some p ∧ p.directory? = some directory ∧
      PhaseTrace.Written (s.perform step).2.session.files directory trace := by
  obtain ⟨moment, hmoment, rfl⟩ := Option.map_eq_some_iff.mp hf
  obtain ⟨i, t, directory, rfl, hp, hdirectory, hwrite⟩ := h
  obtain rfl := Step.eq_finish_of_moment? hmoment
  refine ⟨?_, i, .phaseTrace t, directory, _, rfl, hp, hdirectory,
    (PhaseTrace.written_iff_of_writeTrace hwrite).mpr rfl⟩
  rw [Scene.perform_trace_finish hp, PhaseTrace.finish_of_written hdirectory hwrite]
  rfl

/-- What traces to a directory writes a trace when it concludes, if that succeeds. -/
theorem Scene.writesTrace_of_succeeded {s : Scene Bundled} {i : Nat} {p : Bundled}
    (hp : s.plugins[i]? = some p) (hdirectory : p.directory? ≠ none) {f : Frame Bundled}
    (hf : s.frame? (.call i .finish) = some f) (hok : f.succeeded = true) : f.WritesTrace := by
  obtain ⟨directory, hdirectory⟩ := Option.ne_none_iff_exists'.mp hdirectory
  obtain ⟨moment, hmoment, rfl⟩ := Option.map_eq_some_iff.mp hf
  cases hmoment
  cases p with
  | phaseTrace t =>
    have hverdict : (s.perform (.call i .finish)).1 = true := hok
    rw [perform_trace_finish hp] at hverdict
    rcases hwrite : PhaseTrace.writeTrace s.session.files directory
        (t.lastTrace s.session).toJson.render with ⟨e | _, files⟩
    · rw [PhaseTrace.finish_of_write_error hdirectory hwrite] at hverdict
      cases hverdict
    · refine ⟨i, t, directory, rfl, hp, hdirectory, ?_⟩
      rw [perform_trace_finish hp, PhaseTrace.finish_of_written hdirectory hwrite]
      exact hwrite
  | _ => cases hdirectory

namespace Scene

variable {s : Scene Bundled} {ps : List Bundled}

/-- Once a trace is in the file, it stays there. -/
theorem hasTraced_perform (hlabels : s.plugins.map Bundled.label = ps.map Bundled.label)
    {step : Step} (h : Bundled.HasTraced ps s.session.files ∨
      ∃ f, s.frame? step = some f ∧ f.WritesTrace) :
    Bundled.HasTraced ps (s.perform step).2.session.files := by
  have hwritten {f : Frame Bundled} (hf : s.frame? step = some f) (hwrites : f.WritesTrace) :
      Bundled.HasTraced ps (s.perform step).2.session.files := by
    obtain ⟨-, i, p, directory, trace, -, hp, hdirectory, hfile⟩ := hwrites.of_frame hf
    obtain ⟨q, hq, -, hsame⟩ := Bundled.exists_getElem?_of_labels hlabels hp
    exact ⟨q, List.mem_of_getElem? hq, directory, trace, hsame.trans hdirectory, hfile⟩
  obtain hsame | ⟨f, hf, hwrites⟩ := s.sameFiles_perform step
  · rcases h with ⟨p, hp, directory, trace, hdirectory, hfile⟩ | ⟨f, hf, hwrites⟩
    · exact ⟨p, hp, directory, trace, hdirectory, hfile.of_sameFiles hsame⟩
    · exact hwritten hf hwrites
  · exact hwritten hf hwrites

theorem hasTraced_play (hlabels : s.plugins.map Bundled.label = ps.map Bundled.label)
    {steps : List Step} (hsteps : ∀ step ∈ steps, ∀ i, step ≠ .claim i)
    (h : Bundled.HasTraced ps s.session.files ∨
      ∃ f ∈ (s.play steps).frames, f.WritesTrace) :
    Bundled.HasTraced ps (s.play steps).scene.session.files := by
  induction steps generalizing s with
  | nil =>
    rcases h with h | ⟨f, hf, -⟩
    · exact h
    · cases hf
  | cons step steps ih =>
    obtain ⟨hstep, hrest⟩ := List.forall_mem_cons.mp hsteps
    cases hs : (s.perform step).1 with
    | true =>
      rw [play_cons_of_succeeded hs] at h ⊢
      apply ih ((map_plugins_perform Bundled.label_make hstep s).trans hlabels) hrest
      rcases h with h | ⟨f, hf, hwrites⟩
      · exact .inl (hasTraced_perform hlabels (.inl h))
      · rcases List.mem_append.mp hf with hf | hf
        · exact .inl (hasTraced_perform hlabels (.inr ⟨f, Option.mem_toList.mp hf, hwrites⟩))
        · exact .inr ⟨f, hf, hwrites⟩
    | false =>
      rw [play_cons_of_failed hs] at h ⊢
      apply hasTraced_perform hlabels
      rcases h with h | ⟨f, hf, hwrites⟩
      · exact .inl h
      · exact .inr ⟨f, Option.mem_toList.mp hf, hwrites⟩

end Scene

namespace Compilation

variable {c : Compilation Bundled} {args : List String} {files : Files}

theorem claim_not_mem_schedule {π : Type} {c : Compilation π} {n : Nat} (i : Nat) :
    .claim i ∉ c.schedule.flatMap (Task.steps n) := by
  intro h
  obtain ⟨task, -, hstep⟩ := List.mem_flatMap.mp h
  cases task <;> simp [Task.steps] at hstep

/-- No trace is written while flags are claimed. -/
theorem not_writesTrace_of_claims {s : Scene Bundled} {n : Nat} {f : Frame Bundled}
    (hf : f ∈ (s.play ((List.range n).map .claim)).frames) : ¬ f.WritesTrace := by
  intro hwrites
  obtain ⟨before, step, hstep, hframe⟩ := Scene.exists_step_of_mem_frames hf
  obtain ⟨-, i, -, -, -, rfl, -⟩ := hwrites.of_frame hframe
  simp at hstep

/-- A trace is written in the course of the schedule. -/
theorem writesTrace_iff (hverdict : (claimFlags c.plugins args).verdict = .ok ()) :
    c.WritesTrace args files ↔
      ∃ f ∈ ((c.claimed args files).play
        (c.schedule.flatMap (Task.steps c.plugins.length))).frames, f.WritesTrace := by
  unfold WritesTrace
  rw [frames_of_claimed files hverdict]
  constructor
  · rintro ⟨f, hf, hwrites⟩
    rcases List.mem_append.mp hf with hf | hf
    · exact absurd hwrites (not_writesTrace_of_claims hf)
    · exact ⟨f, hf, hwrites⟩
  · rintro ⟨f, hf, hwrites⟩
    exact ⟨f, List.mem_append_right _ hf, hwrites⟩

/-- **A trace that is written is there at the end of the run**, in the directory of an analysis. -/
theorem hasTraced_of_writesTrace (h : c.WritesTrace args files) :
    Bundled.HasTraced (claimFlags c.plugins args).plugins (c.run args files).files := by
  cases hverdict : (claimFlags c.plugins args).verdict with
  | error e =>
    obtain ⟨f, hf, hwrites⟩ := h
    rw [frames_of_rejected files hverdict] at hf
    exact absurd hwrites (not_writesTrace_of_claims hf)
  | ok _ =>
    obtain ⟨verdict, done, hrun, hagrees⟩ := exists_concluded files hverdict
    rw [hrun]
    show Bundled.HasTraced _ done.session.files
    rw [hagrees.session]
    apply Scene.hasTraced_play (s := c.claimed args files) rfl
    · rintro step hstep i rfl
      exact claim_not_mem_schedule i hstep
    · exact .inr ((writesTrace_iff hverdict).mp h)

end Compilation

end AnalysisHost
