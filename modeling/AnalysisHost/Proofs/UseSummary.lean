import AnalysisHost.Proofs.BundledCallbacks

/-!
# Undeclared imports and their summary

Of an undeclared package the strict dependency check notes, unit by unit, which units use it, and
it sums that up when it concludes. `Occurrence` is one import that it reports on the way, and
`StrictDeps.sums_up` says that reports and summary agree, whichever units the check has seen, how
often it has seen them, and whatever their imports resolve to.

- `StrictDeps.afterAttribution_seen`, `StrictDeps.inspectAll_seen`: one unit, and any number of
  them;
- `StrictDeps.unitCount_seen`: a unit counts once for a package, however often it imports from it.
-/

namespace AnalysisHost.StrictDeps

/-! ## Occurrences -/

/-- An import resolves to the classpath, and its package is neither declared nor nested in a
declared one. -/
def Undeclared (direct : List String) (r : Resolution) : Prop :=
  r.origin = .classpath ∧ ∀ d ∈ direct, ¬ Nested d r.imported.package

instance (direct : List String) (r : Resolution) : Decidable (Undeclared direct r) :=
  inferInstanceAs (Decidable (_ ∧ _))

/-- A unit imports from an undeclared package. -/
structure Occurrence where
  unit : String
  imported : Import
  deriving DecidableEq, Repr

namespace Occurrence

def package (o : Occurrence) : String := o.imported.package

/-- The diagnostic for an occurrence names the import and the unit. -/
def finding (mode : CheckMode) (o : Occurrence) : Diagnostic where
  severity := if mode = .strict then .error else .warning
  source := "strict-deps"
  message :=
    s!"'{o.imported.qualified}' is provided by '{o.package}', which is not a direct dependency"
  unit? := some o.unit
  location? := some s!"import {o.imported.qualified}"

end Occurrence

/-- The occurrences in one unit, in the order of its imports. -/
def occurrencesIn (direct : List String) (env : Env) : List Occurrence :=
  (env.resolved.filter fun r => decide (Undeclared direct r)).map fun r => ⟨env.path, r.imported⟩

/-- All occurrences that a check reports in some units. Switched off, it reports none. -/
def occurrences (mode : CheckMode) (direct : List String) (envs : List Env) : List Occurrence :=
  if mode = .off then [] else envs.flatMap (occurrencesIn direct)

/-- The packages of some occurrences, each once, in the order in which they occur first. -/
def packagesOf (os : List Occurrence) : List String := (os.map Occurrence.package).eraseDups

/-- The units in which a package occurs. -/
def unitsOf (os : List Occurrence) (package : String) : Finset String :=
  ((os.filter fun o => decide (o.package = package)).map Occurrence.unit).toFinset

/-- The note that sums a package up. -/
def usageNote (os : List Occurrence) (package : String) : Diagnostic where
  severity := .note
  source := "strict-deps"
  message :=
    let units := (unitsOf os package).card
    s!"'{package}' is used by {units} unit(s) but not declared with {directDepFlag}"

/-! ## Looking at units

In a mode that is on, the check remembers every occurrence and reports the undeclared ones. In a
mode that is off it does neither, so its summary is that of no occurrences. -/

/-- Let the check look at one unit after another, until a call fails. -/
def inspectAll (p : StrictDeps) : List Env → Session → Reply StrictDeps Session
  | [], s => (.ok (), p, s)
  | env :: envs, s =>
    match p.afterAttribution env s with
    | (.ok (), p', s') => p'.inspectAll envs s'
    | failed => failed

/-- A check that has come across some occurrences. -/
def seen (mode : CheckMode) (direct : List String) (os : List Occurrence) : StrictDeps where
  mode := mode
  direct := direct
  uses := (os.map fun o => ⟨o.package, o.unit⟩).eraseDups

variable {mode : CheckMode} {direct : List String}

/-- The check tells undeclared uses from others as `Undeclared` does. -/
theorem isUndeclared_seen (os : List Occurrence) :
    (seen mode direct os).isUndeclared = fun r => decide (Undeclared direct r) := by
  funext r
  rw [Bool.eq_iff_iff, isUndeclared_iff, decide_eq_true_iff]
  rfl

/-- The report of a use is the finding of its occurrence. -/
theorem undeclaredImport_eq {p : StrictDeps} (unit : String) (i : Import) :
    p.undeclaredImport unit i = Occurrence.finding p.mode ⟨unit, i⟩ := by
  unfold undeclaredImport
  cases p.mode <;> rfl

/-- A unit adds its occurrences, and they are reported. -/
theorem afterAttribution_seen (hmode : mode ≠ .off) (os : List Occurrence) (env : Env)
    (s : Session) :
    (seen mode direct os).afterAttribution env s =
      (.ok (), seen mode direct (os ++ occurrencesIn direct env),
        { s with
          log := s.log.reportAll ((occurrencesIn direct env).map (Occurrence.finding mode)) }) := by
  have huses : usesIn direct env =
      (occurrencesIn direct env).map fun o => ⟨o.package, o.unit⟩ := by
    show (env.resolved.filter (seen mode direct []).isUndeclared).map _ = _
    rw [isUndeclared_seen, occurrencesIn, List.map_map]
    rfl
  have hfindings :
      (env.resolved.filter (seen mode direct os).isUndeclared).map (fun r =>
        (seen mode direct os).undeclaredImport env.path r.imported) =
      (occurrencesIn direct env).map (Occurrence.finding mode) := by
    rw [isUndeclared_seen, occurrencesIn, List.map_map]
    exact List.map_congr_left fun r _ => undeclaredImport_eq env.path r.imported
  rw [afterAttribution_of_noted hmode rfl, hfindings]
  unfold seen
  rw [huses, List.map_append]

/-- Some units are inspected: all that occurs in them is remembered, in order, and what is
undeclared is reported. -/
theorem inspectAll_seen (hmode : mode ≠ .off) (os : List Occurrence) (envs : List Env)
    (s : Session) :
    (seen mode direct os).inspectAll envs s =
      (.ok (), seen mode direct (os ++ envs.flatMap (occurrencesIn direct)),
        { s with
          log := s.log.reportAll
            ((envs.flatMap (occurrencesIn direct)).map (Occurrence.finding mode)) }) := by
  induction envs generalizing os s with
  | nil =>
    rw [List.flatMap_nil, List.append_nil]
    rfl
  | cons env envs ih =>
    rw [inspectAll, afterAttribution_seen hmode]
    dsimp only
    rw [ih, List.flatMap_cons, List.append_assoc, List.map_append, Log.reportAll_append]

/-- A check that is off remembers nothing. -/
theorem inspectAll_off (envs : List Env) (s : Session) :
    (seen .off direct []).inspectAll envs s = (.ok (), seen .off direct [], s) := by
  induction envs with
  | nil => rfl
  | cons env envs ih => exact ih

/-- Whatever its mode, a check has come across the occurrences that it reports. -/
theorem inspectAll_eq (mode : CheckMode) (direct : List String) (envs : List Env) (s : Session) :
    ({ mode, direct } : StrictDeps).inspectAll envs s =
      (.ok (), seen mode direct (occurrences mode direct envs),
        { s with
          log := s.log.reportAll
            ((occurrences mode direct envs).map (Occurrence.finding mode)) }) := by
  unfold occurrences
  by_cases hmode : mode = .off
  · subst hmode
    exact inspectAll_off envs s
  · rw [if_neg hmode]
    exact inspectAll_seen hmode [] envs s

/-! ## Summing up -/

/-- The packages that are missing are those of the occurrences, each once. -/
theorem missing_seen (os : List Occurrence) : (seen mode direct os).missing = packagesOf os := by
  rw [missing_eq rfl, List.map_map]
  rfl

/-- Uses of one package differ by their units, so counting uses is counting units. -/
theorem unitCount_seen (os : List Occurrence) (package : String) :
    (seen mode direct os).unitCount package = (unitsOf os package).card := by
  have hnodup : (((seen mode direct os).uses.filter fun use =>
      decide (use.package = package)).map UndeclaredUse.unit).Nodup := by
    refine List.Nodup.map_on ?_ ((nodup_eraseDups _).filter _)
    grind [UndeclaredUse]
  rw [unitCount, List.countP_eq_length_filter, ← List.length_map UndeclaredUse.unit,
    ← List.toFinset_card_of_nodup hnodup]
  congr 1
  ext unit
  simp only [unitsOf, seen, List.mem_toFinset, List.mem_map, List.mem_filter, List.mem_eraseDups,
    decide_eq_true_eq]
  grind

example :
    let os : List Occurrence :=
      [⟨"A.java", "lib", "Util"⟩, ⟨"A.java", "lib", "Map"⟩, ⟨"B.java", "lib", "Util"⟩]
    (seen .warn [] os).unitCount "lib" = 2 := by
  decide

/-- The note of a package counts the units of its occurrences. -/
theorem missingNote_seen (os : List Occurrence) (package : String) :
    (seen mode direct os).missingNote package = usageNote os package := by
  unfold missingNote usageNote
  rw [unitCount_seen]
  rfl

/-- Only a strict check with something missing fails, and its message names all that is missing. -/
theorem verdict_eq_error_iff {missing : List String} {failure : Failure} :
    verdict mode missing = .error failure ↔
      mode = .strict ∧ missing ≠ [] ∧ failure = .escalate .error (missingMessage missing) := by
  unfold verdict
  split <;> grind

/-- A check that starts afresh looks at some units. -/
def inspect (mode : CheckMode) (direct : List String) (envs : List Env) (s : Session) :
    Reply StrictDeps Session :=
  ({ mode, direct } : StrictDeps).inspectAll envs s

/-- What a check reports of some units, and how it concludes, on whatever session. -/
structure SumsUp (mode : CheckMode) (direct : List String) (envs : List Env) (s : Session) :
    Prop where
  /-- No unit makes it fail. -/
  passes : (inspect mode direct envs s).1 = .ok ()
  /-- Each occurrence is reported, in its place, and nothing else is. -/
  reported : (inspect mode direct envs s).2.2.log.diagnostics =
    s.log.diagnostics ++
      (occurrences mode direct envs).map fun o => s.log.recorded (o.finding mode)
  /-- Each package gets one note, with the number of its units. -/
  noted : ∀ s', ((inspect mode direct envs s).2.1.finish s').2.2.log.diagnostics =
    s'.log.diagnostics ++
      (packagesOf (occurrences mode direct envs)).map (usageNote (occurrences mode direct envs))
  /-- A strict check fails if there is a package, and lists all of them. -/
  fails_iff : ∀ s' failure, ((inspect mode direct envs s).2.1.finish s').1 = .error failure ↔
    mode = .strict ∧ packagesOf (occurrences mode direct envs) ≠ [] ∧
      failure = .escalate .error (missingMessage (packagesOf (occurrences mode direct envs)))

/-- **The summary agrees with the reports**, in every mode and over all units that a check sees. -/
theorem sums_up (mode : CheckMode) (direct : List String) (envs : List Env) (s : Session) :
    SumsUp mode direct envs s := by
  have hinspected : inspect mode direct envs s = _ := inspectAll_eq mode direct envs s
  constructor
  case passes => rw [hinspected]
  case reported =>
    rw [hinspected, Log.diagnostics_reportAll, List.map_map]
    rfl
  case noted =>
    intro s'
    rw [hinspected, finish_eq, Log.diagnostics_reportAll, missing_seen, List.map_map]
    refine congrArg _ (List.map_congr_left fun package _ => ?_)
    show s'.log.recorded (missingNote _ package) = _
    rw [missingNote_seen]
    apply Log.recorded_of_ne_warning
    show Severity.note ≠ _
    decide
  case fails_iff =>
    intro s' failure
    rw [hinspected, finish_eq, missing_seen]
    exact verdict_eq_error_iff

end AnalysisHost.StrictDeps
