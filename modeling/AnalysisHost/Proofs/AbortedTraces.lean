import AnalysisHost.Proofs.Escalations
import AnalysisHost.Proofs.FailedCalls
import AnalysisHost.Proofs.Interference
import AnalysisHost.Proofs.Promotion
import AnalysisHost.Proofs.WrittenTraces

/-!
# Traces of aborted runs

A trace is written when its analysis concludes, so a run that is aborted before leaves none. But the
analyses conclude one after the other, and the strict dependency check escalates when it concludes
itself: what traces in front of it has then been written already.

- `Compilation.finish_mem_front_iff`: what has concluded in front of a call;
- `Compilation.StopsAt.writesTrace_iff_missing`: which aborted runs write a trace;
- `Bundled.leavesNoTrace_iff`: when a run keeps to "who is aborted leaves no trace".
-/

namespace AnalysisHost

/-- If a run is aborted, it has not written a trace. -/
def Compilation.LeavesNoTrace (c : Compilation Bundled) (args : List String) (files : Files) :
    Prop :=
  (∃ e, (c.run args files).report.outcome = .aborted e) → ¬ c.WritesTrace args files

/-! ## The order of a schedule -/

namespace Compilation

section Order

variable {π : Type} {c : Compilation π} {n : Nat}

/-- All analyses conclude in turn, behind everything else. -/
theorem schedule_steps_eq_concat (c : Compilation π) (n : Nat) :
    c.schedule.flatMap (Task.steps n) =
      (c.scheduleTo c.units.length).flatMap (Task.steps n) ++
        (List.range n).map (.call · .finish) := by
  rw [schedule_eq_concat, List.flatMap_append]
  simp [Task.steps]

theorem call_finish_not_mem (c : Compilation π) (n k i : Nat) :
    .call i .finish ∉ (c.scheduleTo k).flatMap (Task.steps n) := by
  intro h
  obtain ⟨task, htask, hstep⟩ := List.mem_flatMap.mp h
  cases task with
  | call call =>
    obtain ⟨j, -, hcall⟩ := List.mem_map.mp hstep
    cases hcall
    exact c.finish_not_mem_scheduleTo k htask
  | _ => simp [Task.steps] at hstep

/-- What comes in front of a call: a plugin has concluded there exactly if the call is the
conclusion of a plugin behind it. -/
theorem finish_mem_front_iff {front back : List Step} {j : Nat} {call : Call}
    (h : c.schedule.flatMap (Task.steps n) = front ++ .call j call :: back) {i : Nat} :
    .call i .finish ∈ front ↔ call = .finish ∧ i < j := by
  rw [schedule_steps_eq_concat] at h
  rcases List.append_eq_append_iff.mp h with ⟨concluded, rfl, hsplit⟩ | ⟨rest, hfront, hsplit⟩
  · -- The call is one of the conclusions, and those in front of it are those of the plugins before.
    have hcall : ((List.range n).map (Step.call · Call.finish))[concluded.length]? =
        some (.call j call) := by
      rw [hsplit]
      simp
    have hlength : concluded.length < n := by
      have := (List.getElem?_eq_some_iff.mp hcall).1
      simpa using this
    obtain ⟨rfl, rfl⟩ : concluded.length = j ∧ Call.finish = call := by
      simpa [hlength] using hcall
    have hconcluded : concluded = (List.range concluded.length).map (.call · .finish) := by
      have htake := congrArg (List.take concluded.length) hsplit
      rw [List.take_left, ← List.map_take, List.take_range, Nat.min_eq_left hlength.le] at htake
      exact htake.symm
    rw [List.mem_append, hconcluded]
    simp [c.call_finish_not_mem n c.units.length i]
  · -- Nothing has concluded yet, unless this is the very first conclusion.
    have hnot : .call i .finish ∉ front := by
      intro hmem
      apply c.call_finish_not_mem n c.units.length i
      rw [hfront]
      exact List.mem_append_left _ hmem
    refine iff_of_false hnot ?_
    rintro ⟨rfl, hij⟩
    cases rest with
    | nil =>
      cases n with
      | zero => cases hsplit
      | succ n =>
        rw [List.range_succ_eq_map] at hsplit
        cases hsplit
        cases hij
    | cons step rest =>
      cases hsplit
      apply c.call_finish_not_mem n c.units.length j
      rw [hfront]
      simp

end Order

end Compilation

/-! ## Where a run is stopped -/

namespace Scene

variable {s : Scene Bundled} {stop : Stop}

/-- A stop that aborts a run is the call of an analysis that escalates. -/
theorem fails_of_stop? {j : Nat} {call : Call} (h : s.stop? (.call j call) = some stop)
    {e : Escalation} (houtcome : stop.outcome = .aborted e) :
    ∃ p, s.plugins[j]? = some p ∧ p.Fails call (.escalate e.status e.message) := by
  rw [stop?] at h
  cases hp : s.plugins[j]? with
  | none => simp [hp] at h
  | some p =>
    rcases hmake : call.make p s.session with ⟨f | _, p', session⟩
    · simp only [hp, hmake, Option.some.injEq] at h
      subst h
      have hfails := Bundled.fails_of_make (congrArg (·.1) hmake)
      obtain ⟨e', rfl⟩ := hfails.eq_escalate
      rw [Stop.outcome_failed_of_escalation rfl] at houtcome
      cases houtcome
      exact ⟨p, rfl, hfails⟩
    · simp [hp, hmake] at h

/-- The step that stops a play writes no trace. -/
theorem writesTrace_play_iff {front : List Step} {step : Step}
    (hfront : (s.play front).succeeded = true) (hstop : (s.play front).scene.stop? step = some stop)
    (back : List Step) :
    (∃ f ∈ (s.play (front ++ step :: back)).frames, f.WritesTrace) ↔
      ∃ f ∈ (s.play front).frames, f.WritesTrace := by
  rw [frames_of_position hfront hstop]
  constructor
  · rintro ⟨f, hf, hwrites⟩
    rcases List.mem_append.mp hf with hf | hf
    · exact ⟨f, hf, hwrites⟩
    · have hok := (hwrites.of_frame (Option.mem_toList.mp hf)).1
      rw [succeeded_of_mem_frame? hf, failed_of_stop? hstop] at hok
      cases hok
  · rintro ⟨f, hf, hwrites⟩
    exact ⟨f, List.mem_append_left _ hf, hwrites⟩

end Scene

namespace Compilation

variable {c : Compilation Bundled} {args : List String} {files : Files}

/-- An aborted run stops behind some steps of its schedule that succeed, at the call of an analysis
that escalates. -/
structure StopsAt (c : Compilation Bundled) (args : List String) (files : Files) (e : Escalation)
    (front : List Step) (j : Nat) (call : Call) : Prop where
  steps : ∃ back, c.schedule.flatMap (Task.steps c.plugins.length) = front ++ .call j call :: back
  succeeded : ((c.claimed args files).play front).succeeded = true
  fails : ∃ p, ((c.claimed args files).play front).scene.plugins[j]? = some p ∧
    p.Fails call (.escalate e.status e.message)
  /-- What is written is written in front of the call. -/
  writesTrace_iff : c.WritesTrace args files ↔
    ∃ f ∈ ((c.claimed args files).play front).frames, f.WritesTrace

theorem exists_stopsAt {e : Escalation} (h : (c.run args files).report.outcome = .aborted e) :
    ∃ front j call, c.StopsAt args files e front j call := by
  cases hverdict : (claimFlags c.plugins args).verdict with
  | error flagError =>
    rw [run_of_rejected hverdict] at h
    cases h
  | ok _ =>
    cases hfirst : c.stop? args files with
    | none =>
      obtain ⟨status, hcompleted⟩ := completed_iff_stop?.mpr hfirst
      rw [hcompleted] at h
      cases h
    | some stop =>
      have houtcome := outcome_of_stop? hfirst
      rw [h] at houtcome
      -- Behind the claims it is a step of the schedule that stops the run, and that is a call.
      obtain ⟨hok, hscene⟩ := play_claimSteps files hverdict
      rw [stop?, steps_eq, Scene.firstStop?_append_of_succeeded hok, hscene] at hfirst
      obtain ⟨front, step, back, hsteps, hfront, hstop⟩ :=
        Scene.exists_position_of_firstStop? hfirst
      cases step with
      | call j call =>
        refine ⟨front, j, call, ⟨back, hsteps⟩, hfront,
          Scene.fails_of_stop? hstop houtcome.symm, ?_⟩
        rw [writesTrace_iff hverdict, hsteps]
        exact Scene.writesTrace_play_iff hfront hstop back
      | claim i =>
        refine absurd ?_ (claim_not_mem_schedule (c := c) (n := c.plugins.length) i)
        rw [hsteps]
        simp
      | handOver => cases hstop
      | announce event => cases hstop
      | report findings => cases hstop

namespace StopsAt

variable {e : Escalation} {front : List Step} {j : Nat} {call : Call}

theorem not_claim (h : c.StopsAt args files e front j call) :
    ∀ step ∈ front, ∀ i, step ≠ .claim i := by
  rintro step hstep i rfl
  obtain ⟨back, hsteps⟩ := h.steps
  refine claim_not_mem_schedule (c := c) (n := c.plugins.length) i ?_
  rw [hsteps]
  exact List.mem_append_left _ hstep

/-- Until then the analyses have kept their labels. -/
theorem labels (h : c.StopsAt args files e front j call) :
    ((c.claimed args files).play front).scene.plugins.map Bundled.label =
        (claimFlags c.plugins args).plugins.map Bundled.label ∧
      ∀ f ∈ ((c.claimed args files).play front).frames, f.before.plugins.map Bundled.label =
        (claimFlags c.plugins args).plugins.map Bundled.label := by
  obtain ⟨hlast, hframes⟩ := Scene.play_keeps
    (P := fun s : Scene Bundled => s.plugins.map Bundled.label =
      (claimFlags c.plugins args).plugins.map Bundled.label)
    (fun step hstep s hs =>
      (Scene.map_plugins_perform Bundled.label_make (h.not_claim step hstep) s).trans hs)
    (s := c.claimed args files) rfl
  refine ⟨hlast, ?_⟩
  intro f hf
  obtain ⟨-, -, hbefore, -⟩ := hframes f hf
  exact hbefore

/-- A trace is written exactly if what traces to a directory has concluded by then. -/
theorem writesTrace_iff_front (h : c.StopsAt args files e front j call) :
    c.WritesTrace args files ↔ ∃ i p, .call i .finish ∈ front ∧
      (claimFlags c.plugins args).plugins[i]? = some p ∧ p.directory? ≠ none := by
  obtain ⟨-, hlabels⟩ := h.labels
  rw [h.writesTrace_iff]
  constructor
  · rintro ⟨f, hf, hwrites⟩
    obtain ⟨step, hstep, -, hframe⟩ := (Scene.play_keeps (P := fun _ => True)
      (fun _ _ _ _ => trivial) trivial).2 f hf
    obtain ⟨-, i, p, directory, trace, rfl, hp, hdirectory, -⟩ := hwrites.of_frame hframe
    obtain ⟨q, hq, -, hsame⟩ := Bundled.exists_getElem?_of_labels (hlabels f hf) hp
    refine ⟨i, q, hstep, hq, ?_⟩
    rw [hsame, hdirectory]
    exact Option.some_ne_none directory
  · rintro ⟨i, q, hstep, hq, hdirectory⟩
    obtain ⟨f, hf, hframe, hok⟩ := Scene.exists_frame_of_mem h.succeeded hstep rfl
    obtain ⟨p, hp, -, hsame⟩ := Bundled.exists_getElem?_of_labels (hlabels f hf).symm hq
    rw [← hsame] at hdirectory
    exact ⟨f, hf, Scene.writesTrace_of_succeeded hp hdirectory hframe hok⟩

end StopsAt

end Compilation

/-! ## Who is aborted behind a trace -/

namespace Bundled

/-- What traces to a directory stands in front of the strict dependency check. -/
def TracesInFront (ps : List Bundled) : Prop :=
  ∃ (i j : Nat) (p q : Bundled), i < j ∧ ps[i]? = some p ∧ p.directory? ≠ none ∧
    ps[j]? = some q ∧ Plugin.name q = StrictDeps.analysisName

theorem name_of_directory? {p : Bundled} (h : p.directory? ≠ none) :
    Plugin.name p = PhaseTrace.analysisName := by
  cases p with
  | phaseTrace t => rfl
  | _ => exact absurd rfl h

/-- Among analyses without a name twice, an analysis is found by its name. -/
theorem eq_of_name {ps : List Bundled} (hnames : (ps.map Plugin.name).Nodup) {i j : Nat}
    {p q : Bundled} (hp : ps[i]? = some p) (hq : ps[j]? = some q)
    (hname : Plugin.name p = Plugin.name q) : i = j := by
  have hi : i < (ps.map Plugin.name).length := by
    rw [List.length_map]
    exact (List.getElem?_eq_some_iff.mp hp).1
  apply (List.getElem?_inj hi hnames).mp
  rw [List.getElem?_map, List.getElem?_map, hp, hq, Option.map_some, Option.map_some, hname]

end Bundled

/-- **Which aborted runs have written a trace**: those that are aborted for the sake of undeclared
packages, with the trace in front of the check. -/
theorem Compilation.StopsAt.writesTrace_iff_missing {c : Compilation Bundled} {args : List String}
    {files : Files} {e : Escalation} {front : List Step} {j : Nat} {call : Call}
    (h : c.StopsAt args files e front j call) (hnames : c.pluginNames.Nodup) :
    c.WritesTrace args files ↔
      (∃ packages, e = ⟨.error, StrictDeps.missingMessage packages⟩) ∧
        Bundled.TracesInFront (claimFlags c.plugins args).plugins := by
  obtain ⟨back, hsteps⟩ := h.steps
  obtain ⟨p, hp, hfails⟩ := h.fails
  obtain ⟨q, hq, hname, -⟩ := Bundled.exists_getElem?_of_labels h.labels.1 hp
  have hnodup : ((claimFlags c.plugins args).plugins.map Plugin.name).Nodup := by
    rw [Bundled.name_claimFlags]
    exact hnames
  rw [h.writesTrace_iff_front]
  generalize hfailure : Failure.escalate e.status e.message = f at hfails
  constructor
  · rintro ⟨i, t, hfinish, ht, hdirectory⟩
    obtain ⟨rfl, hij⟩ := (Compilation.finish_mem_front_iff hsteps).mp hfinish
    cases hfails with
    | missing s strict undeclared =>
      obtain ⟨hstatus, hmessage⟩ := Failure.escalate_inj hfailure
      refine ⟨⟨s.missing, ?_⟩, i, j, t, q, hij, ht, hdirectory, hq, hname⟩
      rw [← hstatus, ← hmessage]
    | unwritten s enabled message =>
      -- That would be a second trace.
      have hsame : i = j := Bundled.eq_of_name hnodup ht hq
        ((Bundled.name_of_directory? hdirectory).trans hname.symm)
      exact absurd hsame (Nat.ne_of_lt hij)
  · rintro ⟨⟨packages, rfl⟩, i, k, t, r, hik, ht, hdirectory, hr, hcheck⟩
    cases hfails with
    | missing s strict undeclared =>
      obtain rfl : k = j := Bundled.eq_of_name hnodup hr hq (hcheck.trans hname.symm)
      exact ⟨i, t, (Compilation.finish_mem_front_iff hsteps).mpr ⟨rfl, hik⟩, ht, hdirectory⟩
    | cycle s fatal env =>
      exact absurd (Failure.escalate_inj hfailure).2 (StrictDeps.missingMessage_ne_cycle packages)
    | unwritten s enabled message =>
      cases (Failure.escalate_inj hfailure).1

/-- In the order in which the analyses are bundled the check concludes before the trace, so an
aborted run never leaves one. -/
theorem Bundled.compilation_leavesNoTrace (m : Manifest) (warningsAsErrors : Bool)
    (args : List String) (files : Files) :
    (compilation m warningsAsErrors).LeavesNoTrace args files := by
  rintro ⟨e, haborted⟩ hwrites
  have hnames : (all.map Plugin.name).Nodup := by decide
  obtain ⟨front, j, call, hstops⟩ := Compilation.exists_stopsAt haborted
  obtain ⟨-, i, k, p, q, hik, hp, hdirectory, hq, hcheck⟩ :=
    (hstops.writesTrace_iff_missing hnames).mp hwrites
  have hk : (all.map Plugin.name)[k]? = some StrictDeps.analysisName := by
    rw [← name_claimFlags all args, List.getElem?_map, ← hcheck]
    exact congrArg (Option.map Plugin.name) hq
  obtain rfl : 0 = k := (List.getElem?_inj (by decide) hnames).mp hk.symm
  exact Nat.not_lt_zero i hik

namespace Bundled

/-- **When a run keeps to "who is aborted leaves no trace"**: unless it is aborted for the sake of
undeclared packages, with the trace registered in front of the check. A run that writes no trace
writes no file, and a trace that is written is there at the end. -/
theorem leavesNoTrace_iff {m : Manifest} {plugins : List Bundled} {c : Compilation Bundled}
    (hc : (Compilation.ofManifest m).registerAll plugins = .ok c) (warningsAsErrors : Bool)
    (args : List String) (files : Files) :
    let d : Compilation Bundled := { c with warningsAsErrors }
    let run := d.run args files
    let claimed := (claimFlags d.plugins args).plugins
    (d.LeavesNoTrace args files ↔
        ¬ ((∃ packages,
            run.report.outcome = .aborted ⟨.error, StrictDeps.missingMessage packages⟩) ∧
          TracesInFront claimed)) ∧
      (¬ d.WritesTrace args files → files.SameFiles run.files) ∧
      (d.WritesTrace args files → HasTraced claimed run.files) := by
  intro d run claimed
  obtain ⟨rfl, hnames⟩ := Compilation.registerAll_eq_ok hc List.nodup_nil
  refine ⟨?_, Compilation.sameFiles_of_not_writesTrace, Compilation.hasTraced_of_writesTrace⟩
  constructor
  · rintro hleaves ⟨⟨packages, haborted⟩, hfront⟩
    obtain ⟨front, j, call, hstops⟩ := Compilation.exists_stopsAt haborted
    apply hleaves ⟨_, haborted⟩
    exact (hstops.writesTrace_iff_missing hnames).mpr ⟨⟨packages, rfl⟩, hfront⟩
  · rintro hnot ⟨e, haborted⟩ hwrites
    obtain ⟨front, j, call, hstops⟩ := Compilation.exists_stopsAt haborted
    obtain ⟨⟨packages, rfl⟩, hfront⟩ := (hstops.writesTrace_iff_missing hnames).mp hwrites
    exact hnot ⟨⟨packages, haborted⟩, hfront⟩

/-- A unit that imports from a package that nobody declares. -/
def undeclaredImport : Manifest where
  classpath := [{ package := "lib", types := ["Util"] }]
  units := [{ path := "A.java", package := "a", imports := ["lib.Util"], types := ["A"] }]

/-- The check in front of the trace: the run is aborted, and no file is written. -/
theorem leavesNoTrace_of_check_first :
    let plugins : List Bundled := [.strictDeps {}, .phaseTrace {}]
    let c := compilationWith undeclaredImport plugins false
    let args := ["--trace-dir=out", "--check=strict"]
    (Compilation.ofManifest undeclaredImport).registerAll plugins = .ok c ∧
      (c.run args {}).report.outcome = .aborted ⟨.error, "missing direct dependencies: lib"⟩ ∧
      c.LeavesNoTrace args {} ∧ ({} : Files).SameFiles (c.run args {}).files := by
  intro plugins c args
  have hc : (Compilation.ofManifest undeclaredImport).registerAll plugins = .ok c := rfl
  have haborted : (c.run args {}).report.outcome =
      .aborted ⟨.error, "missing direct dependencies: lib"⟩ := by decide +kernel
  have hclaimed : (claimFlags c.plugins args).plugins =
      [.strictDeps { mode := .strict }, .phaseTrace { directory? := some "out" }] := by
    decide +kernel
  obtain ⟨hleaves, hsame, -⟩ := leavesNoTrace_iff hc false args {}
  have hkept : c.LeavesNoTrace args {} := by
    refine hleaves.mpr ?_
    rintro ⟨-, i, j, p, q, hij, -, -, hq, hname⟩
    -- Only the first of the two is the check.
    have hq : (claimFlags c.plugins args).plugins[j]? = some q := hq
    rw [hclaimed] at hq
    match j with
    | 0 => exact Nat.not_lt_zero i hij
    | 1 =>
      cases hq
      exact absurd hname (by decide)
    | j + 2 => cases hq
  exact ⟨hc, haborted, hkept, hsame (hkept ⟨_, haborted⟩)⟩

/-- The trace in front of the check: the run is aborted, and has left its trace. -/
theorem trace_left_by_aborted_run :
    let plugins : List Bundled := [.phaseTrace {}, .strictDeps {}]
    let c := compilationWith undeclaredImport plugins false
    let args := ["--trace-dir=out", "--check=strict"]
    (Compilation.ofManifest undeclaredImport).registerAll plugins = .ok c ∧
      (c.run args {}).report.outcome = .aborted ⟨.error, "missing direct dependencies: lib"⟩ ∧
      ((c.run args {}).files.readText? "out/trace.json").isSome = true ∧
      ¬ c.LeavesNoTrace args {} := by
  intro plugins c args
  have haborted : (c.run args {}).report.outcome =
      .aborted ⟨.error, "missing direct dependencies: lib"⟩ := by decide +kernel
  have hclaimed : (claimFlags c.plugins args).plugins =
      [.phaseTrace { directory? := some "out" }, .strictDeps { mode := .strict }] := by
    decide +kernel
  refine ⟨rfl, haborted, by decide +kernel, ?_⟩
  intro hleaves
  obtain ⟨front, j, call, hstops⟩ := Compilation.exists_stopsAt haborted
  have hnames : c.pluginNames.Nodup := by decide +kernel
  apply hleaves ⟨_, haborted⟩
  refine (hstops.writesTrace_iff_missing hnames).mpr ⟨⟨["lib"], rfl⟩, ?_⟩
  rw [hclaimed]
  exact ⟨0, 1, _, _, Nat.zero_lt_one, rfl, Option.some_ne_none "out", rfl, rfl⟩

end Bundled

end AnalysisHost
