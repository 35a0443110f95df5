import AnalysisHost.Proofs.CallEffects

/-!
# Where imports come from

The symbol table is keyed by qualified names, and an import is split at its last dot. In a valid
manifest no type has a dot in its name, so the two fit together, and what the attribute phase says
of an import is true of the package and the type that the import names: `Manifest.BearsOut`.

An edge of the shared graph comes from an import that resolves to a unit, and every task of a run
keeps the graph to such edges (`Progress.graph_performAll`). So the nodes of the graph are packages
of units, whichever analyses take part in a run and however it ends.
-/

namespace AnalysisHost

/-! ## Declarations -/

/-- A unit declares the type that an import names, in the package that it names. -/
def UnitEntry.Declares (u : UnitEntry) (i : Import) : Prop :=
  u.package = i.package ∧ i.name ∈ u.types

instance (u : UnitEntry) (i : Import) : Decidable (u.Declares i) :=
  inferInstanceAs (Decidable (_ ∧ _))

/-- An entry of the classpath has the type that an import names, in the package that it names. -/
def ClasspathEntry.Declares (e : ClasspathEntry) (i : Import) : Prop :=
  e.package = i.package ∧ i.name ∈ e.types

instance (e : ClasspathEntry) (i : Import) : Decidable (e.Declares i) :=
  inferInstanceAs (Decidable (_ ∧ _))

theorem Import.ofText_eq_iff {text package type : String}
    (h : Manifest.importFault? text.toList = none) (hdot : '.' ∉ type.toList) :
    ofText text = ⟨package, type⟩ ↔ qualify package type = text := by
  constructor
  · intro heq
    have hqualify := qualify_ofText h
    rw [heq] at hqualify
    exact hqualify
  · exact ofText_of_qualify h hdot

namespace SymbolTable

/-- The unit that an import resolves to declares its qualified name. -/
theorem mem_declared_of_resolve {table : SymbolTable} {i : Import} {path : String}
    (h : table.resolve i = .source path) : (i.qualified, path) ∈ table.declared := by
  unfold resolve originOf at h
  split at h
  · next unit hunit =>
    cases h
    obtain ⟨d, hd, rfl⟩ := Option.map_eq_some_iff.mp hunit
    have hname : d.1 = i.qualified := by simpa using List.find?_some hd
    rw [← hname]
    exact List.mem_reverse.mp (List.mem_of_find?_eq_some hd)
  · split at h <;> cases h

end SymbolTable

namespace Manifest

variable {m : Manifest}

/-! ## Paths -/

theorem filter_path_of_nodup {units : List UnitEntry} (hnodup : (units.map (·.path)).Nodup)
    {u : UnitEntry} (hu : u ∈ units) :
    (units.filter fun v => decide (v.path = u.path)) = [u] := by
  induction units with
  | nil => cases hu
  | cons first rest ih =>
    obtain ⟨hfirst, hrest⟩ := List.nodup_cons.mp hnodup
    rcases List.mem_cons.mp hu with rfl | hmem
    · have hnone : (rest.filter fun v => decide (v.path = u.path)) = [] := by
        rw [List.filter_eq_nil_iff]
        intro v hv heq
        exact hfirst (List.mem_map.mpr ⟨v, hv, of_decide_eq_true heq⟩)
      rw [List.filter_cons_of_pos (by simp), hnone]
    · have hne : first.path ≠ u.path := by
        intro heq
        exact hfirst (List.mem_map.mpr ⟨u, hmem, heq.symm⟩)
      rw [List.filter_cons_of_neg (by simpa using hne)]
      exact ih hrest hmem

/-- The path of a unit finds that unit and no other. -/
theorem Valid.filter_path_eq (h : m.Valid) {u : UnitEntry} (hu : u ∈ m.units) :
    (m.units.filter fun v => decide (v.path = u.path)) = [u] :=
  filter_path_of_nodup (valid_iff.mp h).paths hu

/-! ## Origins -/

/-- What it means for the origin of an import to be right. -/
def BearsOut (m : Manifest) (i : Import) : Origin → Prop
  | .source path => ∃ u, (m.units.filter fun v => decide (v.path = path)) = [u] ∧ u.Declares i
  | .classpath => (∃ e ∈ m.classpath, e.Declares i) ∧ ∀ u ∈ m.units, ¬ u.Declares i
  | .unresolved => (∀ u ∈ m.units, ¬ u.Declares i) ∧ ∀ e ∈ m.classpath, ¬ e.Declares i

variable {text : String}

/-- The names that units put into the table are those of the types that they declare. -/
theorem Valid.declared_iff (hvalid : m.Valid) (htext : importFault? text.toList = none) :
    (∃ d ∈ m.table.declared, d.1 = (Import.ofText text).qualified) ↔
      ∃ u ∈ m.units, u.Declares (Import.ofText text) := by
  rw [(Import.ofText_eq htext).1, table, SymbolTable.mem_declared_build]
  constructor
  · rintro ⟨w, hw, type, htype, heq⟩
    obtain ⟨u, hu, rfl⟩ := List.mem_map.mp hw
    have hdot := ((hvalid.unit hu).types type htype).dot_not_mem
    refine ⟨u, hu, ?_⟩
    rw [(Import.ofText_eq_iff htext hdot).mpr heq]
    exact ⟨rfl, htype⟩
  · rintro ⟨u, hu, hpackage, htype⟩
    refine ⟨u.lower, List.mem_map_of_mem hu, (Import.ofText text).name, htype, ?_⟩
    show qualify u.package _ = text
    rw [hpackage]
    exact Import.qualify_ofText htext

theorem Valid.mem_classpath_iff (hvalid : m.Valid) (htext : importFault? text.toList = none) :
    (Import.ofText text).qualified ∈ m.table.classpath ↔
      ∃ e ∈ m.classpath, e.Declares (Import.ofText text) := by
  rw [(Import.ofText_eq htext).1, table, SymbolTable.mem_classpath_build]
  constructor
  · rintro ⟨e, he, type, htype, heq⟩
    have hdot := (hvalid.classpathTypes he type htype).dot_not_mem
    refine ⟨e, he, ?_⟩
    rw [(Import.ofText_eq_iff htext hdot).mpr heq]
    exact ⟨rfl, htype⟩
  · rintro ⟨e, he, hpackage, htype⟩
    refine ⟨e, he, (Import.ofText text).name, htype, ?_⟩
    rw [hpackage]
    exact Import.qualify_ofText htext

/-- The unit at the path of an origin declares what the import names. -/
theorem Valid.declares_of_resolve (hvalid : m.Valid) (htext : importFault? text.toList = none)
    {path : String} (h : m.table.resolve (Import.ofText text) = .source path) :
    ∃ u ∈ m.units, u.path = path ∧ u.Declares (Import.ofText text) := by
  have hdeclared := SymbolTable.mem_declared_of_resolve h
  obtain ⟨w, hw, hmem⟩ := List.mem_flatMap.mp hdeclared
  obtain ⟨u, hu, rfl⟩ := List.mem_map.mp hw
  obtain ⟨type, htype, heq⟩ := List.mem_map.mp hmem
  obtain ⟨hname, hpath⟩ := Prod.mk.injEq .. ▸ heq
  rw [(Import.ofText_eq htext).1] at hname
  have hdot := ((hvalid.unit hu).types type htype).dot_not_mem
  refine ⟨u, hu, hpath, ?_⟩
  rw [(Import.ofText_eq_iff htext hdot).mpr hname]
  exact ⟨rfl, htype⟩

/-- Whatever an import of a valid manifest resolves to is right. -/
theorem Valid.bearsOut (hvalid : m.Valid) (htext : importFault? text.toList = none) :
    m.BearsOut (Import.ofText text) (m.table.resolve (Import.ofText text)) := by
  have hdeclared := hvalid.declared_iff htext
  have hclasspath := hvalid.mem_classpath_iff htext
  cases horigin : m.table.resolve (Import.ofText text) with
  | source path =>
    obtain ⟨u, hu, rfl, hdeclares⟩ := hvalid.declares_of_resolve htext horigin
    exact ⟨u, hvalid.filter_path_eq hu, hdeclares⟩
  | classpath =>
    obtain ⟨hnone, hmem⟩ := SymbolTable.resolve_eq_classpath_iff.mp horigin
    rw [hdeclared] at hnone
    refine ⟨hclasspath.mp hmem, ?_⟩
    intro u hu hdeclares
    exact hnone ⟨u, hu, hdeclares⟩
  | unresolved =>
    have hnone : ¬ ∃ d ∈ m.table.declared, d.1 = (Import.ofText text).qualified := by
      intro hd
      obtain ⟨path, hpath⟩ := SymbolTable.resolve_eq_source_iff.mpr hd
      rw [horigin] at hpath
      cases hpath
    constructor
    · intro u hu hdeclares
      exact hnone (hdeclared.mpr ⟨u, hu, hdeclares⟩)
    · intro e he hdeclares
      have hresolve := SymbolTable.resolve_eq_classpath_iff.mpr
        ⟨hnone, hclasspath.mpr ⟨e, he, hdeclares⟩⟩
      rw [horigin] at hresolve
      cases hresolve

end Manifest

/-! ## The shared graph in a run -/

namespace Progress

variable {P : PackageGraph → Prop}

/-- Only a look at a unit changes the graph. -/
theorem graph_perform {task : Task}
    (hadd : ∀ env, task = .call (.inspect env) → ∀ g, P g → P (ImportCycles.withEdges g env))
    {run : Progress Bundled} (h : P (ImportCycles.graphIn run.session.context)) :
    P (ImportCycles.graphIn (run.perform task).2.session.context) := by
  cases task with
  | enter stage =>
    unfold perform
    dsimp only
    split
    · exact h
    · exact h
  | announce event => exact h
  | report findings => exact h
  | unitDone => exact h
  | call c =>
    refine sweep_keeps (P := fun s : Session => P (ImportCycles.graphIn s.context)) ?_ h
    intro p _ s hs
    rcases p.graphIn_make c s with heq | ⟨-, env, rfl, heq⟩
    · show P (ImportCycles.graphIn (c.make p s).2.2.context)
      rw [heq]
      exact hs
    · show P (ImportCycles.graphIn ((Call.inspect env).make p s).2.2.context)
      rw [heq]
      exact hadd env rfl _ hs

theorem graph_performAll {tasks : List Task}
    (hadd : ∀ env, .call (.inspect env) ∈ tasks → ∀ g, P g → P (ImportCycles.withEdges g env))
    {run : Progress Bundled} (h : P (ImportCycles.graphIn run.session.context)) :
    P (ImportCycles.graphIn (run.performAll tasks).2.session.context) := by
  refine performAll_keeps
    (P := fun run : Progress Bundled => P (ImportCycles.graphIn run.session.context)) ?_ h
  intro task htask run hrun
  apply graph_perform _ hrun
  rintro env rfl
  exact hadd env htask

end Progress

namespace Compilation

/-- Whoever looks at a unit sees what its imports resolve to. -/
theorem of_mem_schedule {π : Type} {c : Compilation π} {env : Env}
    (h : .call (.inspect env) ∈ c.schedule) :
    env.tree ∈ c.units ∧ env.resolved = env.tree.resolutions c.table := by
  simp only [schedule, CompilationUnit.tasks, List.mem_append, List.mem_flatMap, List.mem_cons,
    List.not_mem_nil, or_false, reduceCtorEq, false_or, Task.call.injEq, Call.inspect.injEq] at h
  obtain ⟨u, hu, rfl | rfl⟩ := h
  · exact ⟨hu, rfl⟩
  · exact ⟨hu, rfl⟩

/-- What the edges of each unit keep of a graph holds of the graph that a run leaves. -/
theorem graph_run {c : Compilation Bundled} {P : PackageGraph → Prop} (hempty : P .empty)
    (hadd : ∀ env : Env, env.tree ∈ c.units → env.resolved = env.tree.resolutions c.table →
      ∀ g, P g → P (ImportCycles.withEdges g env))
    (args : List String) (files : Files) :
    P (ImportCycles.graphIn (c.run args files).context) := by
  unfold run
  dsimp only
  split
  · exact hempty
  · refine Progress.graph_performAll ?_ hempty
    intro env henv
    obtain ⟨htree, hresolved⟩ := of_mem_schedule henv
    exact hadd env htree hresolved

end Compilation

/-! ## Nodes -/

/-- A package that an edge comes from or leads to. -/
def PackageGraph.IsNode (g : PackageGraph) (a : String) : Prop := ∃ b, g.Adj a b ∨ g.Adj b a

namespace Manifest

variable {m : Manifest}

/-- Edges join packages of units. -/
def Joins (m : Manifest) (g : PackageGraph) : Prop :=
  ∀ a b, g.Adj a b → (∃ u ∈ m.units, u.package = a) ∧ ∃ u ∈ m.units, u.package = b

theorem Valid.joins_withEdges (hvalid : m.Valid) {env : Env} (htree : env.tree ∈ m.lower)
    (hresolved : env.resolved = env.tree.resolutions m.table) {g : PackageGraph} (h : m.Joins g) :
    m.Joins (ImportCycles.withEdges g env) := by
  intro a b hadj
  rcases ImportCycles.adj_addEdges.mp hadj with hold | ⟨rfl, hb⟩
  · exact h a b hold
  · obtain ⟨u, hu, hlower⟩ := List.mem_map.mp htree
    rw [hresolved, Env.package, ← hlower] at hb
    obtain ⟨-, v, hv, hpackage, -⟩ := (mem_unitTargets_iff hvalid hu).mp hb
    refine ⟨⟨u, hu, ?_⟩, v, hv, hpackage⟩
    rw [Env.package, ← hlower]
    rfl

/-- **Resolution is well founded.** What each import of a unit resolves to is right, and so every
package in the graph that a run shares is the package of a unit. -/
theorem Valid.resolution_wellFounded (hvalid : m.Valid) :
    (∀ u ∈ m.lower, ∀ r ∈ u.resolutions m.table, m.BearsOut r.imported r.origin) ∧
      ∀ (plugins : List Bundled) (warningsAsErrors : Bool) (args : List String) (files : Files)
        (package : String),
        (ImportCycles.graphIn
          ((Bundled.compilationWith m plugins warningsAsErrors).run args files).context).IsNode
            package →
          ∃ u ∈ m.units, u.package = package := by
  constructor
  · intro w hw r hr
    obtain ⟨u, hu, rfl⟩ := List.mem_map.mp hw
    obtain ⟨i, hi, rfl⟩ := List.mem_map.mp hr
    obtain ⟨text, htext, rfl⟩ := List.mem_map.mp hi
    exact hvalid.bearsOut ((hvalid.unit hu).imports text htext)
  · intro plugins warningsAsErrors args files package hnode
    have hjoins : m.Joins (ImportCycles.graphIn
        ((Bundled.compilationWith m plugins warningsAsErrors).run args files).context) := by
      apply Compilation.graph_run
      · intro a b hadj
        cases hadj
      · intro env htree hresolved g hg
        exact hvalid.joins_withEdges htree hresolved hg
    obtain ⟨b, hadj | hadj⟩ := hnode
    · exact (hjoins _ _ hadj).1
    · exact (hjoins _ _ hadj).2

/-- Two units that import from each other, one of them also from the classpath and from nowhere. -/
def threeOrigins : Manifest where
  classpath := [{ package := "lib", types := ["Util"] }]
  units :=
    [{ path := "A.java", package := "a", imports := ["b.B", "lib.Util", "c.C"], types := ["A"] },
      { path := "B.java", package := "b", imports := ["a.A"], types := ["B"] }]

/-- The three origins that an import may have, and a node of the graph of a run. -/
theorem resolution_wellFounded_of_three_origins :
    threeOrigins.Valid ∧ threeOrigins.BearsOut ⟨"b", "B"⟩ (.source "B.java") ∧
      threeOrigins.BearsOut ⟨"lib", "Util"⟩ .classpath ∧
      threeOrigins.BearsOut ⟨"c", "C"⟩ .unresolved ∧
      ∃ u ∈ threeOrigins.units, u.package = "a" := by
  have hvalid : threeOrigins.Valid := by
    show threeOrigins.check = .ok ()
    decide +kernel
  obtain ⟨hright, hnodes⟩ := Valid.resolution_wellFounded hvalid
  have hunit : (⟨"A.java", "a", ["b.B", "lib.Util", "c.C"], ["A"], []⟩ : UnitEntry).lower ∈
      threeOrigins.lower := List.mem_cons_self
  have hnode : (ImportCycles.graphIn
      ((Bundled.compilationWith threeOrigins Bundled.all false).run [] {}).context).IsNode "a" :=
    ⟨"b", .inl (by decide +kernel)⟩
  refine ⟨hvalid, ?_, ?_, ?_, hnodes _ _ _ _ _ hnode⟩
  · exact hright _ hunit ⟨⟨"b", "B"⟩, .source "B.java"⟩ (by decide +kernel)
  · exact hright _ hunit ⟨⟨"lib", "Util"⟩, .classpath⟩ (by decide +kernel)
  · exact hright _ hunit ⟨⟨"c", "C"⟩, .unresolved⟩ (by decide +kernel)

end Manifest

end AnalysisHost
