import AnalysisHost.Proofs.CallEffects

/-!
# What the analyses fail with

Whatever an analysis comes upon, there are three things for which it ends a run: where cycles are
fatal a cycle, when it looks at a unit; and when it concludes, undeclared packages where the check
is strict, or a trace that cannot be written. `Bundled.fails_of_make` says so. Each of the three is
an escalation, and its status and message tell it from the others.
-/

namespace AnalysisHost

theorem Failure.escalate_inj {status status' : AbortStatus} {message message' : String}
    (h : escalate status message = escalate status' message') :
    status = status' ∧ message = message' := by
  cases h
  exact ⟨rfl, rfl⟩

namespace ImportCycles

/-- What ends a run while cycles are noted is the first one where they are fatal. -/
theorem error_noteCycles {unit : String} {p : ImportCycles} {log : Log}
    {found : List (List String)} {f : Failure} (h : (noteCycles unit p log found).1 = .error f) :
    p.mode = .fatal ∧ f = .escalate .error "illegal import cycle" := by
  induction found generalizing p log with
  | nil => cases h
  | cons cycle rest ih =>
    rw [noteCycles] at h
    split at h
    · exact ih h
    · dsimp only at h
      split at h
      · next hfatal =>
        cases h
        exact ⟨hfatal, rfl⟩
      · -- Noting a cycle does not change the mode.
        have hrest := ih h
        exact hrest

/-- The search fails at a unit only if cycles are fatal, and always with the same words. -/
theorem error_afterFlow {p : ImportCycles} {env : Env} {s : Session} {f : Failure}
    (h : (p.afterFlow env s).1 = .error f) :
    p.mode = .fatal ∧ f = .escalate .error "illegal import cycle" := by
  unfold afterFlow at h
  split at h
  · cases h
  · exact error_noteCycles h

end ImportCycles

namespace Bundled

/-- The calls in which an analysis fails, and what it fails with. -/
inductive Fails : Bundled → Call → Failure → Prop
  | missing (p : StrictDeps) (strict : p.mode = .strict) (undeclared : p.missing ≠ []) :
    Fails (.strictDeps p) .finish (.escalate .error (StrictDeps.missingMessage p.missing))
  | cycle (p : ImportCycles) (fatal : p.mode = .fatal) (env : Env) :
    Fails (.importCycles p) (.inspect env) (.escalate .error "illegal import cycle")
  | unwritten (t : PhaseTrace) (enabled : t.directory? ≠ none) (message : String) :
    Fails (.phaseTrace t) .finish (.escalate .sysErr message)

variable {c : Call} {s : Session} {f : Failure}

/-- The check fails when it concludes, if it is strict and misses a package. -/
theorem fails_strictDeps {p : StrictDeps} (h : (c.make (Bundled.strictDeps p) s).1 = .error f) :
    Fails (.strictDeps p) c f := by
  cases c with
  | prepareContext => cases h
  | setUp => cases h
  | inspect env =>
    cases hphase : env.phase with
    | attribution =>
      obtain ⟨p', ds, -, heq⟩ := p.exists_afterAttribution env
      rw [Call.make_inspect_attribution hphase] at h
      have hverdict : (p.afterAttribution env s).1 = .error f := h
      rw [heq] at hverdict
      cases hverdict
    | flow =>
      rw [Call.make_inspect_flow hphase] at h
      cases h
  | finish =>
    have hverdict : (p.finish s).1 = .error f := h
    by_cases hmissing : p.mode = .strict ∧ p.missing ≠ []
    · obtain ⟨p', s', hfails⟩ := StrictDeps.finish_of_missing hmissing.1 hmissing.2 s
      rw [hfails] at hverdict
      cases hverdict
      exact .missing p hmissing.1 hmissing.2
    · obtain ⟨s', hpasses, -⟩ := StrictDeps.finish_passes hmissing s
      rw [hpasses] at hverdict
      cases hverdict

/-- The search fails after the flow of a unit that closes a fatal cycle. -/
theorem fails_importCycles {p : ImportCycles}
    (h : (c.make (Bundled.importCycles p) s).1 = .error f) : Fails (.importCycles p) c f := by
  cases c with
  | prepareContext => cases h
  | setUp => cases h
  | inspect env =>
    cases hphase : env.phase with
    | attribution =>
      rw [Call.make_inspect_attribution hphase] at h
      cases h
    | flow =>
      rw [Call.make_inspect_flow hphase] at h
      obtain ⟨hfatal, rfl⟩ := ImportCycles.error_afterFlow (p := p) h
      exact .cycle p hfatal env
  | finish =>
    obtain ⟨ds, -, heq⟩ := p.exists_finish (ImportCycles.graphIn s.context)
    have hverdict : (p.finish s).1 = .error f := h
    rw [heq s rfl] at hverdict
    cases hverdict

/-- The conventions fail in no call. -/
theorem succeeds_naming (p : Naming) : (c.make (Bundled.naming p) s).1 = .ok () := by
  cases c with
  | prepareContext => rfl
  | setUp => rfl
  | inspect env =>
    cases hphase : env.phase with
    | attribution =>
      obtain ⟨ds, -, heq⟩ := p.exists_afterAttribution env
      rw [Call.make_inspect_attribution hphase]
      exact congrArg (·.1) (heq s)
    | flow =>
      rw [Call.make_inspect_flow hphase]
      rfl
  | finish => rfl

/-- The trace fails when it concludes, if its file cannot be written. -/
theorem fails_phaseTrace {t : PhaseTrace} (h : (c.make (Bundled.phaseTrace t) s).1 = .error f) :
    Fails (.phaseTrace t) c f := by
  cases c with
  | prepareContext =>
    obtain ⟨t', context, hprepare, -, -⟩ := t.prepareContext_passes s.context
    have hverdict : (t.prepareContext s.context).1 = .error f := h
    rw [hprepare] at hverdict
    cases hverdict
  | setUp => cases h
  | inspect env =>
    cases hphase : env.phase with
    | attribution =>
      rw [Call.make_inspect_attribution hphase] at h
      cases h
    | flow =>
      rw [Call.make_inspect_flow hphase] at h
      cases h
  | finish =>
    have hverdict : (t.finish s).1 = .error f := h
    cases hdirectory : t.directory? with
    | none =>
      rw [PhaseTrace.finish_of_none hdirectory] at hverdict
      cases hverdict
    | some directory =>
      rcases hwrite : PhaseTrace.writeTrace s.files directory (t.lastTrace s).toJson.render with
        ⟨e | _, files⟩
      · rw [PhaseTrace.finish_of_write_error hdirectory hwrite] at hverdict
        cases hverdict
        apply Fails.unwritten
        rw [hdirectory]
        exact Option.some_ne_none directory
      · rw [PhaseTrace.finish_of_written hdirectory hwrite] at hverdict
        cases hverdict

/-- **In which calls an analysis fails, and with what.** -/
theorem fails_of_make {p : Bundled} (h : (c.make p s).1 = .error f) : Fails p c f := by
  cases p with
  | strictDeps p => exact fails_strictDeps h
  | importCycles p => exact fails_importCycles h
  | naming p =>
    rw [succeeds_naming] at h
    cases h
  | phaseTrace t => exact fails_phaseTrace h

/-- Whoever fails escalates, so none of the bundled analyses makes a run crash. -/
theorem Fails.eq_escalate {p : Bundled} (h : Fails p c f) :
    ∃ e : Escalation, f = .escalate e.status e.message := by
  cases h with
  | missing p => exact ⟨⟨.error, _⟩, rfl⟩
  | cycle p => exact ⟨⟨.error, _⟩, rfl⟩
  | unwritten t _ message => exact ⟨⟨.sysErr, message⟩, rfl⟩

end Bundled

namespace StrictDeps

/-- The two messages that abort a run with an error are told apart. -/
theorem missingMessage_ne_cycle (packages : List String) :
    missingMessage packages ≠ "illegal import cycle" := by
  have hstart (front back : String) (c : Char) (h : front.toList.head? = some c) :
      (front ++ back).toList.head? = some c := by
    rw [String.toList_append, List.head?_append, h, Option.some_or]
  have hmissing : (missingMessage packages).toList.head? = some 'm' := hstart _ _ _ (by simp)
  intro h
  rw [h] at hmissing
  simp at hmissing

end StrictDeps

end AnalysisHost
