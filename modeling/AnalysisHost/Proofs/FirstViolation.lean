import AnalysisHost.Manifest.Validity
import AnalysisHost.Proofs.NameForms

/-!
# The first violation

The checks of a manifest are nested loops that carry along the paths and the declarations met so
far. Laid out in a row, the things they look at are the `elements` of the manifest, and what the
loops carry along can be read off the elements in front.

- `Violates`: what is wrong with an element, given those in front of it;
- `WellFormed`: the rules for a manifest as a whole, without an order;
- `check_eq`: the checks go along the row;
- `check_accepts_or_reports_first`: they accept exactly the well-formed manifests, and report the
  first violation in the others.
-/

namespace AnalysisHost.Manifest

/-! ## The row of elements

The order of the elements is the order in which the checks look at them. -/

/-- Something that the checks of a manifest look at. -/
inductive Element where
  | path (path : String)
  | package (package : String)
  | imported (unit text : String)
  | name (kind : NameKind) (name : String)
  | declaration (declaration : Declaration)
  deriving DecidableEq, Repr

def Element.path? : Element → Option String
  | .path p => some p
  | .package _ | .imported _ _ | .name _ _ | .declaration _ => none

def Element.declaration? : Element → Option Declaration
  | .declaration d => some d
  | .path _ | .package _ | .imported _ _ | .name _ _ => none

def classpathElements (entry : ClasspathEntry) : List Element :=
  [.package entry.package] ++ entry.types.map (.name .type)

/-- A type is looked at twice: for its form, then as a declaration. -/
def typeElements (unit : UnitEntry) (type : String) : List Element :=
  [.name .type type, .declaration ⟨qualify unit.package type, unit.path⟩]

def unitElements (unit : UnitEntry) : List Element :=
  [.path unit.path] ++ ([.package unit.package] ++ (unit.imports.map (.imported unit.path) ++
    (unit.types.flatMap (typeElements unit) ++ (unit.methods.map (·.name)).map (.name .method))))

def elements (m : Manifest) : List Element :=
  m.classpath.flatMap classpathElements ++ m.units.flatMap unitElements

/-! ## Rules -/

/-- The first unit that declares a type, among some elements. -/
def FirstDeclares (before : List Element) (qualified unit : String) : Prop :=
  ∃ front back, before = front ++ .declaration ⟨qualified, unit⟩ :: back ∧
    ∀ other, .declaration ⟨qualified, other⟩ ∉ front

/-- An element breaks a rule behind the given elements. -/
inductive Violates (before : List Element) : Element → Violation → Prop
  | badPackage {package : String} {fault : NameFault} (h : QualifiedFault package.toList fault) :
      Violates before (.package package) (.badPackage package fault)
  | badImport {unit text : String} {fault : NameFault} (h : ImportFault text.toList fault) :
      Violates before (.imported unit text) (.badImport unit text fault)
  | badName {kind : NameKind} {name : String} {fault : NameFault}
      (h : IdentifierFault name.toList fault) :
      Violates before (.name kind name) (.badName kind name fault)
  | duplicateUnit {path : String} (h : .path path ∈ before) :
      Violates before (.path path) (.duplicateUnit path)
  | duplicateType {qualified first second : String} (h : FirstDeclares before qualified first) :
      Violates before (.declaration ⟨qualified, second⟩) (.duplicateType qualified first second)

/-- A violation is the first one of a row: an element breaks a rule and none in front of it does. -/
def FirstViolation (row : List Element) (v : Violation) : Prop :=
  ∃ before e behind, row = before ++ e :: behind ∧ Violates before e v ∧
    ∀ front x back, before = front ++ x :: back → ∀ w, ¬ Violates front x w

/-- What is demanded of a manifest. -/
structure WellFormed (m : Manifest) : Prop where
  classpathPackages : ∀ entry ∈ m.classpath, IsQualified entry.package.toList
  classpathTypes : ∀ entry ∈ m.classpath, ∀ type ∈ entry.types, IsIdentifier type.toList
  packages : ∀ u ∈ m.units, IsQualified u.package.toList
  imports : ∀ u ∈ m.units, ∀ text ∈ u.imports, IsImport text.toList
  types : ∀ u ∈ m.units, ∀ type ∈ u.types, IsIdentifier type.toList
  methods : ∀ u ∈ m.units, ∀ method ∈ u.methods, IsIdentifier method.name.toList
  paths : (m.units.map (·.path)).Nodup
  declared : (m.units.flatMap fun u => u.types.map (qualify u.package)).Nodup

/-! ## The violation of an element

What a check says of one element, computed from the elements in front of it. It is the same as the
relation `Violates` (`violation?_eq_some_iff`). -/

def violation? (before : List Element) : Element → Option Violation
  | .path path => if path ∈ before.filterMap Element.path? then some (.duplicateUnit path) else none
  | .package package => (qualifiedFault? package.toList).map (.badPackage package)
  | .imported unit text => (importFault? text.toList).map (.badImport unit text)
  | .name kind name => (identifierFault? name.toList).map (.badName kind name)
  | .declaration ⟨qualified, unit⟩ =>
    ((before.filterMap Element.declaration?).find? fun d => decide (d.qualified = qualified)).map
      fun first => .duplicateType qualified first.unit unit

/-- The paths that the checks carry along are those of the elements in front. -/
theorem mem_paths_iff {before : List Element} {path : String} :
    path ∈ before.filterMap Element.path? ↔ .path path ∈ before := by
  rw [List.mem_filterMap]
  constructor
  · rintro ⟨e, he, hpath⟩
    cases e <;> cases hpath
    exact he
  · intro h
    exact ⟨_, h, rfl⟩

/-- The declarations that are carried along are searched from the front, so the first unit that
declares a type is found. -/
theorem find?_declaration_eq_some_iff {before : List Element} {qualified : String}
    {d : Declaration} :
    ((before.filterMap Element.declaration?).find? fun d => decide (d.qualified = qualified)) =
      some d ↔ d.qualified = qualified ∧ FirstDeclares before qualified d.unit := by
  rw [List.find?_eq_some_iff_append]
  constructor
  · rintro ⟨hd, earlier, later, heq, hearlier⟩
    have hname : d.qualified = qualified := of_decide_eq_true hd
    obtain ⟨first, rest, rfl, rfl, hrest⟩ := List.filterMap_eq_append_iff.mp heq
    obtain ⟨between, e, back, rfl, hbetween, he, -⟩ := List.filterMap_eq_cons_iff.mp hrest
    have he' : e = .declaration ⟨qualified, d.unit⟩ := by
      cases e <;> cases he
      rw [← hname]
    refine ⟨hname, first ++ between, back, by rw [he', List.append_assoc], ?_⟩
    intro other hmem
    rcases List.mem_append.mp hmem with hmem | hmem
    · have hnot := hearlier ⟨qualified, other⟩ (List.mem_filterMap.mpr ⟨_, hmem, rfl⟩)
      simp at hnot
    · cases hbetween _ hmem
  · rintro ⟨rfl, front, back, rfl, hfront⟩
    refine ⟨by simp, front.filterMap Element.declaration?, back.filterMap Element.declaration?,
      by simp [Element.declaration?], ?_⟩
    intro c hc
    obtain ⟨e, he, hdeclaration⟩ := List.mem_filterMap.mp hc
    have hne : c.qualified ≠ d.qualified := by
      intro hname
      apply hfront c.unit
      rw [← hname]
      cases e <;> cases hdeclaration
      exact he
    simpa using hne

/-- What a check says of an element is what is wrong with it. -/
theorem violation?_eq_some_iff {before : List Element} {e : Element} {v : Violation} :
    violation? before e = some v ↔ Violates before e v := by
  cases e with
  | path path =>
    simp only [violation?, mem_paths_iff]
    constructor
    · intro h
      split at h
      · next hmem =>
        cases h
        exact .duplicateUnit hmem
      · cases h
    · intro h
      cases h with
      | duplicateUnit hmem => rw [if_pos hmem]
  | package package =>
    simp only [violation?, Option.map_eq_some_iff, qualifiedFault?_eq_some_iff]
    constructor
    · rintro ⟨fault, h, rfl⟩
      exact .badPackage h
    · intro h
      cases h with
      | badPackage h => exact ⟨_, h, rfl⟩
  | imported unit text =>
    simp only [violation?, Option.map_eq_some_iff, importFault?_eq_some_iff]
    constructor
    · rintro ⟨fault, h, rfl⟩
      exact .badImport h
    · intro h
      cases h with
      | badImport h => exact ⟨_, h, rfl⟩
  | name kind name =>
    simp only [violation?, Option.map_eq_some_iff, identifierFault?_eq_some_iff]
    constructor
    · rintro ⟨fault, h, rfl⟩
      exact .badName h
    · intro h
      cases h with
      | badName h => exact ⟨_, h, rfl⟩
  | declaration d =>
    obtain ⟨qualified, second⟩ := d
    simp only [violation?, Option.map_eq_some_iff, find?_declaration_eq_some_iff]
    constructor
    · rintro ⟨⟨_, first⟩, ⟨rfl, h⟩, rfl⟩
      exact .duplicateType h
    · intro h
      cases h with
      | @duplicateType _ first _ h => exact ⟨⟨qualified, first⟩, ⟨rfl, h⟩, rfl⟩

theorem violation?_eq_none_iff {before : List Element} {e : Element} :
    violation? before e = none ↔ ∀ v, ¬ Violates before e v := by
  simp [Option.eq_none_iff_forall_ne_some, violation?_eq_some_iff]

/-! ## Along the row

The search for a violation goes along the row and keeps what it has passed, because duplicates are
told by what is in front. -/

def firstViolation? (before : List Element) : List Element → Option Violation
  | [] => none
  | e :: es => (violation? before e).or (firstViolation? (before ++ [e]) es)

@[simp] theorem firstViolation?_nil (before : List Element) :
    firstViolation? before [] = none := rfl

@[simp] theorem firstViolation?_cons (before : List Element) (e : Element) (es : List Element) :
    firstViolation? before (e :: es) =
      (violation? before e).or (firstViolation? (before ++ [e]) es) := rfl

theorem firstViolation?_singleton (before : List Element) (e : Element) :
    firstViolation? before [e] = violation? before e := by
  simp

/-- A search along a row goes on along the next one, with the first row in front of it. -/
theorem firstViolation?_append (before es es' : List Element) :
    firstViolation? before (es ++ es') =
      (firstViolation? before es).or (firstViolation? (before ++ es) es') := by
  induction es generalizing before with
  | nil => simp
  | cons e es ih => simp [ih, Option.or_assoc]

/-- Nothing is found in a row exactly if nothing is wrong with any element, given those in front of
it. -/
theorem firstViolation?_eq_none_iff {before es : List Element} :
    firstViolation? before es = none ↔
      ∀ front x back, es = front ++ x :: back → ∀ w, ¬ Violates (before ++ front) x w := by
  constructor
  · rintro h front x back rfl
    rw [firstViolation?_append, Option.or_eq_none_iff, firstViolation?_cons,
      Option.or_eq_none_iff] at h
    exact violation?_eq_none_iff.mp h.2.1
  · intro h
    induction es generalizing before with
    | nil => rfl
    | cons e es ih =>
      have he : violation? before e = none := by
        rw [violation?_eq_none_iff]
        simpa using h [] e es rfl
      rw [firstViolation?_cons, he, Option.none_or]
      apply ih
      intro front x back heq w
      have hrest := h (e :: front) x back (by rw [heq]; rfl) w
      simpa using hrest

/-- What is found is the violation of an element, and nothing is found in front of it. -/
theorem firstViolation?_eq_some {before es : List Element} {v : Violation} :
    firstViolation? before es = some v ↔
      ∃ front e behind, es = front ++ e :: behind ∧ violation? (before ++ front) e = some v ∧
        firstViolation? before front = none := by
  constructor
  · intro h
    induction es generalizing before with
    | nil => cases h
    | cons e es ih =>
      cases he : violation? before e with
      | some w =>
        rw [firstViolation?_cons, he] at h
        cases h
        exact ⟨[], e, es, rfl, by simpa using he, rfl⟩
      | none =>
        rw [firstViolation?_cons, he, Option.none_or] at h
        obtain ⟨front, x, behind, rfl, hx, hfront⟩ := ih h
        refine ⟨e :: front, x, behind, rfl, by simpa using hx, ?_⟩
        rw [firstViolation?_cons, he, hfront]
        rfl
  · rintro ⟨front, e, behind, rfl, he, hfront⟩
    rw [firstViolation?_append, hfront, firstViolation?_cons, he]
    rfl

/-- What is found in a row is its first violation. -/
theorem firstViolation?_eq_some_iff {row : List Element} {v : Violation} :
    firstViolation? [] row = some v ↔ FirstViolation row v := by
  simp only [firstViolation?_eq_some, violation?_eq_some_iff, firstViolation?_eq_none_iff,
    List.nil_append, FirstViolation]

/-! ### The checks go along the row

Each check is the search along its part of the row, whatever is in front (`before`). Loops of checks
are put together with `verdict_bind`. -/

/-- The answer of a check that has found a violation, or none. -/
def verdict {α : Type} (found : Option Violation) (a : α) : Except Violation α :=
  match found with
  | none => .ok a
  | some v => .error v

theorem verdict_eq_ok_iff {α : Type} {found : Option Violation} {a : α} :
    verdict found a = .ok a ↔ found = none := by
  cases found <;> simp [verdict]

theorem verdict_eq_error_iff {α : Type} {found : Option Violation} {a : α} {v : Violation} :
    verdict found a = .error v ↔ found = some v := by
  cases found <;> simp [verdict]

/-- One check after another. -/
theorem verdict_bind {α β : Type} {found found' : Option Violation} {a : α} {b : β}
    {f : α → Except Violation β} (h : f a = verdict found' b) :
    (verdict found a >>= f) = verdict (found.or found') b := by
  cases found with
  | none => exact h
  | some v => rfl

/-- What a check gives back apart from its verdict can be replaced behind it. -/
theorem verdict_map {α β : Type} (found : Option Violation) (a : α) (b : β) :
    (verdict found a >>= fun _ => pure b) = verdict found b := by
  cases found <;> rfl

variable (before : List Element)

/-- The form of a package is one element of the row. It does not depend on what is in front, and
neither do those of imports and names. -/
theorem checkPackage_eq (package : String) :
    checkPackage package = verdict (firstViolation? before [.package package]) () := by
  unfold checkPackage
  cases h : qualifiedFault? package.toList <;> simp [violation?, h, verdict]

theorem checkName_eq (kind : NameKind) (name : String) :
    checkName kind name = verdict (firstViolation? before [.name kind name]) () := by
  unfold checkName
  cases h : identifierFault? name.toList <;> simp [violation?, h, verdict]

theorem checkImport_eq (unit text : String) :
    checkImport unit text = verdict (firstViolation? before [.imported unit text]) () := by
  unfold checkImport
  cases h : importFault? text.toList <;> simp [violation?, h, verdict]

/-- Checks made one behind the other go along the parts that each of them looks at. -/
theorem checkEach_eq {α : Type} {check : α → Except Violation Unit} {part : α → List Element}
    (h : ∀ before a, check a = verdict (firstViolation? before (part a)) ()) (as : List α) :
    checkEach check as = verdict (firstViolation? before (as.flatMap part)) () := by
  induction as generalizing before with
  | nil => rfl
  | cons a as ih =>
    rw [List.flatMap_cons, firstViolation?_append, checkEach, h before a]
    exact verdict_bind (ih (before ++ part a))

theorem checkNames_eq (kind : NameKind) (names : List String) :
    checkEach (checkName kind) names =
      verdict (firstViolation? before (names.map (.name kind))) () := by
  rw [List.map_eq_flatMap]
  exact checkEach_eq before (fun before name => checkName_eq before kind name) names

theorem checkImports_eq (unit : String) (imports : List String) :
    checkEach (checkImport unit) imports =
      verdict (firstViolation? before (imports.map (.imported unit))) () := by
  rw [List.map_eq_flatMap]
  exact checkEach_eq before (fun before text => checkImport_eq before unit text) imports

/-- An entry of the classpath is its package and then its types. -/
theorem checkClasspathEntry_eq (entry : ClasspathEntry) :
    checkClasspathEntry entry = verdict (firstViolation? before (classpathElements entry)) () := by
  unfold checkClasspathEntry classpathElements
  rw [firstViolation?_append, checkPackage_eq before]
  apply verdict_bind
  exact checkNames_eq _ .type entry.types

/-! ### What is carried along

The loops carry lists of paths and of declarations. These are read off the elements that have been
passed, which are followed here part by part. -/

@[simp] theorem filterMap_declaration?_names (kind : NameKind) (names : List String) :
    (names.map (Element.name kind)).filterMap Element.declaration? = [] := by
  simp [List.filterMap_eq_nil_iff, Element.declaration?]

@[simp] theorem filterMap_declaration?_imports (unit : String) (imports : List String) :
    (imports.map (Element.imported unit)).filterMap Element.declaration? = [] := by
  simp [List.filterMap_eq_nil_iff, Element.declaration?]

@[simp] theorem filterMap_declaration?_types (unit : UnitEntry) (types : List String) :
    (types.flatMap (typeElements unit)).filterMap Element.declaration? =
      types.map fun type => ⟨qualify unit.package type, unit.path⟩ := by
  induction types with
  | nil => rfl
  | cons type types ih =>
    rw [List.flatMap_cons, List.filterMap_append, ih]
    rfl

@[simp] theorem filterMap_path?_names (kind : NameKind) (names : List String) :
    (names.map (Element.name kind)).filterMap Element.path? = [] := by
  simp [List.filterMap_eq_nil_iff, Element.path?]

@[simp] theorem filterMap_path?_imports (unit : String) (imports : List String) :
    (imports.map (Element.imported unit)).filterMap Element.path? = [] := by
  simp [List.filterMap_eq_nil_iff, Element.path?]

@[simp] theorem filterMap_path?_types (unit : UnitEntry) (types : List String) :
    (types.flatMap (typeElements unit)).filterMap Element.path? = [] := by
  induction types with
  | nil => rfl
  | cons type types ih =>
    rw [List.flatMap_cons, List.filterMap_append, ih]
    rfl

@[simp] theorem declarations_unitElements (unit : UnitEntry) :
    (unitElements unit).filterMap Element.declaration? =
      unit.types.map fun type => ⟨qualify unit.package type, unit.path⟩ := by
  rw [unitElements, List.filterMap_append, List.filterMap_append, List.filterMap_append,
    List.filterMap_append, filterMap_declaration?_imports, filterMap_declaration?_types,
    filterMap_declaration?_names, List.append_nil]
  rfl

@[simp] theorem paths_unitElements (unit : UnitEntry) :
    (unitElements unit).filterMap Element.path? = [unit.path] := by
  rw [unitElements, List.filterMap_append, List.filterMap_append, List.filterMap_append,
    List.filterMap_append, filterMap_path?_imports, filterMap_path?_types, filterMap_path?_names]
  rfl

/-- The types of a unit: the form of a type, then its declaration, which is carried along. -/
theorem checkTypes_eq (unit : UnitEntry) (types : List String) :
    checkTypes unit (before.filterMap Element.declaration?) types =
      verdict (firstViolation? before (types.flatMap (typeElements unit)))
        ((before ++ types.flatMap (typeElements unit)).filterMap Element.declaration?) := by
  induction types generalizing before with
  | nil => simp [checkTypes, verdict]
  | cons type types ih =>
    -- The form of the type, its declaration, and the types behind it.
    have hrow : (type :: types).flatMap (typeElements unit) =
        [.name .type type] ++ ([.declaration ⟨qualify unit.package type, unit.path⟩] ++
          types.flatMap (typeElements unit)) := rfl
    have hdeclared : (before ++ [Element.name .type type]).filterMap Element.declaration? =
        before.filterMap Element.declaration? := by
      simp [Element.declaration?]
    rw [hrow, firstViolation?_append, checkTypes, checkName_eq before]
    apply verdict_bind
    rw [firstViolation?_append, firstViolation?_singleton, violation?, hdeclared]
    dsimp only
    cases hfind : (before.filterMap Element.declaration?).find? fun d =>
        decide (d.qualified = qualify unit.package type) with
    | some first => rfl
    | none =>
      have hrest := ih (before ++ [.name .type type] ++
        [.declaration ⟨qualify unit.package type, unit.path⟩])
      rw [List.filterMap_append, hdeclared, List.append_assoc _ _ (List.flatMap _ _)] at hrest
      rw [Option.map_none, Option.none_or, ← List.append_assoc]
      exact hrest

/-- A unit: its path, its package, its imports, its types and its methods, in this order. What is
carried behind it are the declarations of all units up to it. -/
theorem checkUnit_eq (unit : UnitEntry) :
    checkUnit (before.filterMap Element.path?) (before.filterMap Element.declaration?) unit =
      verdict (firstViolation? before (unitElements unit))
        ((before ++ unitElements unit).filterMap Element.declaration?) := by
  rw [List.filterMap_append, declarations_unitElements]
  unfold checkUnit unitElements
  rw [firstViolation?_append, firstViolation?_singleton, violation?]
  by_cases hpath : unit.path ∈ before.filterMap Element.path?
  · rw [if_pos hpath, if_pos hpath]
    rfl
  rw [if_neg hpath, if_neg hpath, Option.none_or, firstViolation?_append]
  show (checkPackage unit.package >>= _) = _
  rw [checkPackage_eq (before ++ [.path unit.path])]
  apply verdict_bind
  rw [firstViolation?_append,
    checkImports_eq (before ++ [.path unit.path] ++ [.package unit.package])]
  apply verdict_bind
  rw [firstViolation?_append]
  -- Neither the path nor the package nor an import declares anything.
  have htypes := checkTypes_eq (before ++ [.path unit.path] ++ [.package unit.package] ++
    unit.imports.map (.imported unit.path)) unit unit.types
  simp only [List.filterMap_append, filterMap_declaration?_imports, filterMap_declaration?_types,
    List.filterMap_cons, List.filterMap_nil, Element.declaration?, List.append_nil] at htypes
  rw [htypes]
  apply verdict_bind
  rw [checkNames_eq]
  exact verdict_map ..

/-- All units, each with the paths and declarations of those in front. -/
theorem checkUnits_eq (units : List UnitEntry) :
    checkUnits (before.filterMap Element.path?) (before.filterMap Element.declaration?) units =
      verdict (firstViolation? before (units.flatMap unitElements)) () := by
  induction units generalizing before with
  | nil => rfl
  | cons unit units ih =>
    rw [List.flatMap_cons, firstViolation?_append, checkUnits, checkUnit_eq]
    apply verdict_bind
    have hrest := ih (before ++ unitElements unit)
    rw [List.filterMap_append (f := Element.path?), paths_unitElements] at hrest
    exact hrest

/-- The classpath has no paths and declares nothing, so it adds nothing to what is carried along. -/
theorem carried_classpath (entries : List ClasspathEntry) :
    (entries.flatMap classpathElements).filterMap Element.path? = [] ∧
      (entries.flatMap classpathElements).filterMap Element.declaration? = [] := by
  induction entries with
  | nil => exact ⟨rfl, rfl⟩
  | cons entry entries ih =>
    rw [List.flatMap_cons, List.filterMap_append, List.filterMap_append, ih.1, ih.2]
    simp [classpathElements, Element.path?, Element.declaration?]

/-- **The checks go along the row of elements.** -/
theorem check_eq (m : Manifest) : m.check = verdict (firstViolation? [] m.elements) () := by
  unfold check elements
  rw [firstViolation?_append, checkEach_eq [] checkClasspathEntry_eq]
  apply verdict_bind
  obtain ⟨hpaths, hdeclarations⟩ := carried_classpath m.classpath
  have hunits := checkUnits_eq (m.classpath.flatMap classpathElements) m.units
  rw [hpaths, hdeclarations] at hunits
  exact hunits

/-! ## Rules for the whole

Without an order: that no element violates what is in front of it comes to forms that are right one
by one, and to lists without duplicates. -/

/-- An element has the right form, whatever stands in front of it. -/
def Element.WellFormed : Element → Prop
  | .package p => IsQualified p.toList
  | .imported _ text => IsImport text.toList
  | .name _ n => IsIdentifier n.toList
  | .path _ | .declaration _ => True

/-- The qualified names that a row declares. -/
def declaredNames (row : List Element) : List String :=
  (row.filterMap Element.declaration?).map (·.qualified)

theorem nodup_concat_iff {α : Type} {as : List α} (h : as.Nodup) (a : α) :
    (as ++ [a]).Nodup ↔ a ∉ as := by
  rw [List.nodup_append]
  constructor
  · rintro ⟨-, -, hne⟩ hmem
    exact hne a hmem a (List.mem_singleton_self a) rfl
  · intro hnot
    refine ⟨h, List.pairwise_singleton _ a, ?_⟩
    rintro b hb c hc rfl
    rw [List.mem_singleton.mp hc] at hb
    exact hnot hb

/-- Behind elements that repeat nothing, an element is fine if it has the right form and repeats
none of them. -/
theorem violation?_eq_none_iff_of_nodup {before : List Element} {e : Element}
    (hpaths : (before.filterMap Element.path?).Nodup) (hnames : (declaredNames before).Nodup) :
    violation? before e = none ↔ e.WellFormed ∧ ((before ++ [e]).filterMap Element.path?).Nodup ∧
      (declaredNames (before ++ [e])).Nodup := by
  unfold declaredNames at hnames ⊢
  simp only [List.filterMap_append, List.filterMap_cons, List.filterMap_nil, List.map_append]
  cases e with
  | path p =>
    simp [violation?, Element.WellFormed, Element.path?, Element.declaration?, hnames,
      nodup_concat_iff hpaths]
  | package p =>
    simp [violation?, Element.WellFormed, Element.path?, Element.declaration?, hpaths, hnames,
      qualifiedFault?_eq_none_iff]
  | imported unit text =>
    simp [violation?, Element.WellFormed, Element.path?, Element.declaration?, hpaths, hnames,
      importFault?_eq_none_iff]
  | name kind n =>
    simp [violation?, Element.WellFormed, Element.path?, Element.declaration?, hpaths, hnames,
      identifierFault?_eq_none_iff]
  | declaration d =>
    simp only [violation?, Element.WellFormed, Element.path?, Element.declaration?, hpaths,
      List.map_cons, List.map_nil, nodup_concat_iff hnames, List.append_nil, Option.map_eq_none_iff,
      List.find?_eq_none]
    simp

/-- Nothing in a row breaks a rule if and only if all of it has the right form and nothing is
repeated. -/
theorem firstViolation?_eq_none_iff_of_nodup {before es : List Element}
    (hpaths : (before.filterMap Element.path?).Nodup) (hnames : (declaredNames before).Nodup) :
    firstViolation? before es = none ↔ (∀ e ∈ es, e.WellFormed) ∧
      ((before ++ es).filterMap Element.path?).Nodup ∧ (declaredNames (before ++ es)).Nodup := by
  induction es generalizing before with
  | nil => simp [hpaths, hnames]
  | cons e es ih =>
    have hfirst := violation?_eq_none_iff_of_nodup (e := e) hpaths hnames
    have hrow : before ++ e :: es = before ++ [e] ++ es := List.append_cons before e es
    rw [firstViolation?_cons, Option.or_eq_none_iff, hfirst, hrow]
    constructor
    · rintro ⟨⟨hform, hpaths', hnames'⟩, hrest⟩
      obtain ⟨hforms, hnodup⟩ := (ih hpaths' hnames').mp hrest
      exact ⟨by simpa [hform] using hforms, hnodup⟩
    · rintro ⟨hforms, hpathsAll, hnamesAll⟩
      have hpaths' : ((before ++ [e]).filterMap Element.path?).Nodup := by
        rw [List.filterMap_append] at hpathsAll
        exact (List.nodup_append.mp hpathsAll).1
      have hnames' : (declaredNames (before ++ [e])).Nodup := by
        rw [declaredNames, List.filterMap_append, List.map_append] at hnamesAll
        exact (List.nodup_append.mp hnamesAll).1
      obtain ⟨hform, hforms⟩ := List.forall_mem_cons.mp hforms
      exact ⟨⟨hform, hpaths', hnames'⟩, (ih hpaths' hnames').mpr ⟨hforms, hpathsAll, hnamesAll⟩⟩

/-- The paths in the row are those of the units, in order. -/
theorem paths_elements (m : Manifest) :
    m.elements.filterMap Element.path? = m.units.map (·.path) := by
  rw [elements, List.filterMap_append, (carried_classpath m.classpath).1, List.nil_append]
  induction m.units with
  | nil => rfl
  | cons u units ih =>
    rw [List.flatMap_cons, List.filterMap_append, paths_unitElements, ih]
    rfl

/-- The names that are declared in the row are those of the types of units. -/
theorem declaredNames_elements (m : Manifest) :
    declaredNames m.elements = m.units.flatMap fun u => u.types.map (qualify u.package) := by
  rw [declaredNames, elements, List.filterMap_append, (carried_classpath m.classpath).2,
    List.nil_append]
  induction m.units with
  | nil => rfl
  | cons u units ih =>
    rw [List.flatMap_cons, List.filterMap_append, List.map_append, declarations_unitElements, ih,
      List.map_map]
    rfl

theorem forall_mem_classpathElements {entry : ClasspathEntry} :
    (∀ e ∈ classpathElements entry, e.WellFormed) ↔
      IsQualified entry.package.toList ∧ ∀ type ∈ entry.types, IsIdentifier type.toList := by
  simp [classpathElements, Element.WellFormed]

theorem forall_mem_unitElements {u : UnitEntry} :
    (∀ e ∈ unitElements u, e.WellFormed) ↔
      IsQualified u.package.toList ∧ (∀ text ∈ u.imports, IsImport text.toList) ∧
        (∀ type ∈ u.types, IsIdentifier type.toList) ∧
        ∀ method ∈ u.methods, IsIdentifier method.name.toList := by
  simp [unitElements, typeElements, List.forall_mem_append, List.forall_mem_flatMap,
    Element.WellFormed, -List.mem_append, -List.mem_flatMap]

/-- A manifest follows the rules if every element has the right form, no path is there twice and
nothing is declared twice. -/
theorem wellFormed_iff {m : Manifest} :
    m.WellFormed ↔ (∀ e ∈ m.elements, e.WellFormed) ∧
      (m.elements.filterMap Element.path?).Nodup ∧ (declaredNames m.elements).Nodup := by
  have hforms : (∀ e ∈ m.elements, e.WellFormed) ↔
      (∀ entry ∈ m.classpath, ∀ e ∈ classpathElements entry, e.WellFormed) ∧
        ∀ u ∈ m.units, ∀ e ∈ unitElements u, e.WellFormed := by
    unfold elements
    rw [List.forall_mem_append, List.forall_mem_flatMap, List.forall_mem_flatMap]
  rw [hforms, paths_elements, declaredNames_elements]
  simp only [forall_mem_classpathElements, forall_mem_unitElements]
  constructor
  · intro h
    refine ⟨⟨?_, ?_⟩, h.paths, h.declared⟩
    · intro entry hentry
      exact ⟨h.classpathPackages entry hentry, h.classpathTypes entry hentry⟩
    · intro u hu
      exact ⟨h.packages u hu, h.imports u hu, h.types u hu, h.methods u hu⟩
  · rintro ⟨⟨hclasspath, hunits⟩, hpaths, hdeclared⟩
    exact {
      classpathPackages := fun entry hentry => (hclasspath entry hentry).1
      classpathTypes := fun entry hentry => (hclasspath entry hentry).2
      packages := fun u hu => (hunits u hu).1
      imports := fun u hu => (hunits u hu).2.1
      types := fun u hu => (hunits u hu).2.2.1
      methods := fun u hu => (hunits u hu).2.2.2
      paths := hpaths
      declared := hdeclared }

/-- **The checks accept exactly the well-formed manifests.** -/
theorem valid_iff {m : Manifest} : m.Valid ↔ m.WellFormed := by
  unfold Valid
  rw [check_eq, verdict_eq_ok_iff, wellFormed_iff]
  exact firstViolation?_eq_none_iff_of_nodup List.nodup_nil List.nodup_nil

/-- **A manifest is well-formed or its first violation is reported.** -/
theorem check_accepts_or_reports_first (m : Manifest) :
    (m.check = .ok () ↔ m.WellFormed) ∧
      ∀ v, m.check = .error v ↔ FirstViolation m.elements v := by
  constructor
  · exact valid_iff
  · intro v
    rw [check_eq, verdict_eq_error_iff]
    exact firstViolation?_eq_some_iff

end AnalysisHost.Manifest
