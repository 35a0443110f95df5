import AnalysisHost.Manifest.Read
import Mathlib.Data.List.Basic

/-!
# From lines to units

A unit has a table of its own, begun by a header, and among the lines below the header one gives the
unit its path. `pathLines` picks these lines out, by looking at nothing but headers and keys, and
they are all of them: a document grows line by line (`Grows`), a line gives a unit a path exactly if
it is picked out (`Grows.givenPaths_eq`), and the units of a manifest have the paths that the tables
in its document give (`paths_ofEntries`).
-/

namespace AnalysisHost

/-! ## Growing a document

A document is built from its lines, and each of them assigns a value, opens a table or appends one,
at the end of a path of keys. `Entered` and the lemmas on `descend` say what such a step does to the
entry under one key. -/

namespace Toml.Entries

/-- What is put under a key is found there. -/
theorem get?_put_self (entries : Entries) (key : String) (v : Value) :
    (entries.put key v).get? key = some v := by
  induction entries with
  | nil => simp [put, get?]
  | cons e rest ih =>
    obtain ⟨k, w⟩ := e
    by_cases h : k = key
    · simp [put, get?, h]
    · simpa [put, get?, h, List.lookup_cons, beq_eq_false_iff_ne.mpr (Ne.symm h)] using ih

/-- The other keys keep their values. -/
theorem get?_put_of_ne {key other : String} (hne : other ≠ key) (entries : Entries) (v : Value) :
    (entries.put key v).get? other = entries.get? other := by
  induction entries with
  | nil => simp [put, get?, List.lookup_cons, beq_eq_false_iff_ne.mpr hne]
  | cons e rest ih =>
    obtain ⟨k, w⟩ := e
    by_cases h : k = key
    · subst h
      simp [put, get?, List.lookup_cons, beq_eq_false_iff_ne.mpr hne]
    · rw [put, if_neg h]
      simp only [get?, List.lookup_cons] at ih ⊢
      rw [ih]

/-- What a way down makes of the value at its first key. -/
inductive Entered (f : Entries → Option Entries) (path : List String) :
    Option Value → Value → Prop
  | implied {t : Entries} (h : descend f path [] = some t) :
    Entered f path none (.table .implied t)
  | table {form : TableForm} {t t' : Entries} (h : descend f path t = some t') :
    Entered f path (some (.table form t)) (.table form t')
  | tables {ts ts' : List Entries} (h : changeLast (descend f path) ts = some ts') :
    Entered f path (some (.tables ts)) (.tables ts')

/-- A step into a key changes the value under it and no other. -/
theorem descend_cons {f : Entries → Option Entries} {key : String} {path : List String}
    {entries entries' : Entries} (h : descend f (key :: path) entries = some entries') :
    ∃ v, entries' = entries.put key v ∧ Entered f path (entries.get? key) v := by
  rw [descend] at h
  split at h
  all_goals try cases h
  · next hget =>
    obtain ⟨t, ht, rfl⟩ := Option.map_eq_some_iff.mp h
    exact ⟨_, rfl, hget ▸ .implied ht⟩
  · next hget =>
    obtain ⟨t, ht, rfl⟩ := Option.map_eq_some_iff.mp h
    exact ⟨_, rfl, hget ▸ .table ht⟩
  · next hget =>
    obtain ⟨t, ht, rfl⟩ := Option.map_eq_some_iff.mp h
    exact ⟨_, rfl, hget ▸ .tables ht⟩

/-- Of an array of tables, the last one is changed. -/
theorem changeLast_eq_some {f : Entries → Option Entries} {ts ts' : List Entries}
    (h : changeLast f ts = some ts') :
    ∃ front last last', ts = front ++ [last] ∧ ts' = front ++ [last'] ∧ f last = some last' := by
  fun_induction changeLast f ts generalizing ts' with
  | case1 => cases h
  | case2 last =>
    obtain ⟨last', hlast, rfl⟩ := Option.map_eq_some_iff.mp h
    exact ⟨[], last, last', rfl, rfl, hlast⟩
  | case3 first second rest ih =>
    obtain ⟨more, hmore, rfl⟩ := Option.map_eq_some_iff.mp h
    obtain ⟨front, last, last', hts, rfl, hlast⟩ := ih hmore
    exact ⟨first :: front, last, last', by rw [hts]; rfl, rfl, hlast⟩

/-- A key is assigned once. -/
theorem assign_key {v : Value} {key : String} {entries entries' : Entries}
    (h : assign v [key] entries = some entries') :
    entries.get? key = none ∧ entries' = entries.put key v := by
  simp only [assign] at h
  split at h
  · cases h
    exact ⟨‹_›, rfl⟩
  · cases h

/-- What a dotted path sets at its first key: the value itself if the path goes no further, and
otherwise a table. -/
theorem assign_eq_some {v : Value} {path : List String} {entries entries' : Entries}
    (h : assign v path entries = some entries') :
    ∃ key w, entries' = entries.put key w ∧
      ((path = [key] ∧ w = v ∧ entries.get? key = none) ∨
        (∃ form t, w = .table form t) ∧
          (entries.get? key = none ∨ ∃ form t, entries.get? key = some (.table form t))) := by
  unfold assign at h
  repeat' split at h
  all_goals try cases h
  · exact ⟨_, _, rfl, .inl ⟨rfl, rfl, ‹_›⟩⟩
  · obtain ⟨t, -, rfl⟩ := Option.map_eq_some_iff.mp h
    exact ⟨_, _, rfl, .inr ⟨⟨_, t, rfl⟩, .inl ‹_›⟩⟩
  · obtain ⟨t, -, rfl⟩ := Option.map_eq_some_iff.mp h
    exact ⟨_, _, rfl, .inr ⟨⟨_, t, rfl⟩, .inr ⟨_, _, ‹_›⟩⟩⟩
  · obtain ⟨t, -, rfl⟩ := Option.map_eq_some_iff.mp h
    exact ⟨_, _, rfl, .inr ⟨⟨_, t, rfl⟩, .inr ⟨_, _, ‹_›⟩⟩⟩

/-- A table may be begun where there is none, or one that is only implied. -/
theorem openTable_eq_some {key : String} {entries entries' : Entries}
    (h : openTable [] key entries = some entries') :
    ∃ t, entries' = entries.put key (.table .header t) ∧
      (entries.get? key = none ∨ ∃ t, entries.get? key = some (.table .implied t)) := by
  simp only [openTable, descend] at h
  split at h
  · cases h
    exact ⟨_, rfl, .inl ‹_›⟩
  · cases h
    exact ⟨_, rfl, .inr ⟨_, ‹_›⟩⟩
  · cases h

/-- A new table of an array of tables is put behind those that are there. -/
theorem appendTable_eq_some {key : String} {entries entries' : Entries}
    (h : appendTable [] key entries = some entries') :
    ∃ ts, entries' = entries.put key (.tables (ts ++ [[]])) ∧
      (entries.get? key = none ∧ ts = [] ∨ entries.get? key = some (.tables ts)) := by
  simp only [appendTable, descend] at h
  split at h
  · cases h
    exact ⟨[], rfl, .inl ⟨‹_›, rfl⟩⟩
  · cases h
    exact ⟨_, rfl, .inr ‹_›⟩
  · cases h

end Toml.Entries

namespace Manifest

open Toml (Entries Value)
open Toml.Entries (get?_put_self get?_put_of_ne descend_cons changeLast_eq_some assign_key
  assign_eq_some openTable_eq_some appendTable_eq_some)

/-! ## The paths that a document gives

A unit's path is the text under `path`. A step keeps the paths that are given unless it assigns a
path or appends a unit. -/

def textOf : Option Value → Option String
  | some (.string s) => some s
  | _ => none

/-- The path that the table of a unit gives. -/
def pathOf (unit : Entries) : Option String := textOf (unit.get? "path")

def tablesOf : Option Value → List Entries
  | some (.tables ts) => ts
  | _ => []

/-- The paths that the tables of units give, in order. -/
def givenPaths (document : Entries) : List String :=
  (tablesOf (document.get? "unit")).filterMap pathOf

/-- Only the key `path` has to do with the path of a unit. -/
theorem pathOf_put {key : String} {v : Value} {unit : Entries}
    (h : key = "path" → textOf (some v) = textOf (unit.get? key)) :
    pathOf (unit.put key v) = pathOf unit := by
  by_cases hkey : key = "path"
  · rw [pathOf, pathOf, ← hkey, get?_put_self, h hkey]
  · rw [pathOf, get?_put_of_ne (Ne.symm hkey), pathOf]

/-- Only the key `unit` has to do with the paths of a document. -/
theorem givenPaths_put {key : String} {v : Value} {document : Entries}
    (h : key = "unit" → (tablesOf (some v)).filterMap pathOf =
      (tablesOf (document.get? key)).filterMap pathOf) :
    givenPaths (document.put key v) = givenPaths document := by
  by_cases hkey : key = "unit"
  · rw [givenPaths, givenPaths, ← hkey, get?_put_self, h hkey]
  · rw [givenPaths, get?_put_of_ne (Ne.symm hkey), givenPaths]

/-- Whatever is changed below a key of a unit, its path is not: what is above a path of keys is no
text. -/
theorem pathOf_descend {f : Entries → Option Entries} {key : String} {rest : List String}
    {unit unit' : Entries} (h : Entries.descend f (key :: rest) unit = some unit') :
    pathOf unit' = pathOf unit := by
  obtain ⟨v, rfl, hentered⟩ := descend_cons h
  apply pathOf_put
  intro _
  generalize unit.get? key = old at hentered
  cases hentered <;> rfl

/-- What is changed at the end of a path of headers gives no unit a path, unless it does so right in
the table of a unit. -/
theorem givenPaths_descend {f : Entries → Option Entries} {before : List String}
    {document document' : Entries} (h : Entries.descend f before document = some document')
    (hroot : before = [] → givenPaths document' = givenPaths document)
    (hunit : before = ["unit"] → ∀ ts, document.get? "unit" = some (.tables ts) →
      ∀ unit unit', f unit = some unit' → pathOf unit' = pathOf unit) :
    givenPaths document' = givenPaths document := by
  cases before with
  | nil => exact hroot rfl
  | cons key rest =>
    obtain ⟨v, rfl, hentered⟩ := descend_cons h
    apply givenPaths_put
    rintro rfl
    generalize hold : document.get? "unit" = old at hentered
    cases hentered with
    | implied => rfl
    | table => rfl
    | tables hlast =>
      obtain ⟨front, unit, unit', rfl, rfl, hunit'⟩ := changeLast_eq_some hlast
      have hpath : pathOf unit' = pathOf unit := by
        cases rest with
        | nil => exact hunit rfl _ hold unit unit' hunit'
        | cons key rest => exact pathOf_descend hunit'
      simp [tablesOf, List.filterMap_cons, hpath]

/-- To assign anything but an array of tables gives no path. -/
theorem givenPaths_assign {v : Value} (hv : ∀ ts, v ≠ .tables ts) {path : List String}
    {document document' : Entries} (h : Entries.assign v path document = some document') :
    givenPaths document' = givenPaths document := by
  obtain ⟨key, w, rfl, ⟨-, rfl, hnone⟩ | ⟨⟨form, t, rfl⟩, hold⟩⟩ := assign_eq_some h
  · apply givenPaths_put
    intro _
    rw [hnone]
    cases w with
    | tables ts => exact absurd rfl (hv ts)
    | _ => rfl
  · apply givenPaths_put
    intro _
    obtain hold | ⟨_, _, hold⟩ := hold <;> rw [hold] <;> rfl

/-- An assignment within a unit keeps its path, unless it assigns a text to `path` itself. -/
theorem pathOf_assign {v : Value} {path : List String}
    (hv : path = ["path"] → textOf (some v) = none) {unit unit' : Entries}
    (h : Entries.assign v path unit = some unit') : pathOf unit' = pathOf unit := by
  obtain ⟨key, w, rfl, ⟨rfl, rfl, hnone⟩ | ⟨⟨form, t, rfl⟩, hold⟩⟩ := assign_eq_some h
  · apply pathOf_put
    rintro rfl
    rw [hv rfl, hnone]
    rfl
  · apply pathOf_put
    intro _
    obtain hold | ⟨_, _, hold⟩ := hold <;> rw [hold] <;> rfl

/-- A table that is opened is not a unit yet. -/
theorem givenPaths_openTable {before : List String} {key : String} {document document' : Entries}
    (h : Entries.openTable before key document = some document') :
    givenPaths document' = givenPaths document := by
  change Entries.descend (Entries.openTable [] key) before document = some document' at h
  apply givenPaths_descend h
  · rintro rfl
    obtain ⟨t, rfl, hold⟩ := openTable_eq_some h
    apply givenPaths_put
    intro _
    obtain hold | ⟨_, hold⟩ := hold <;> rw [hold] <;> rfl
  · rintro rfl ts hts unit unit' hunit
    obtain ⟨t, rfl, hold⟩ := openTable_eq_some hunit
    apply pathOf_put
    intro _
    obtain hold | ⟨_, hold⟩ := hold <;> rw [hold] <;> rfl

/-- A new table has no path yet. -/
theorem givenPaths_appendTable {before : List String} {key : String}
    {document document' : Entries}
    (h : Entries.appendTable before key document = some document') :
    givenPaths document' = givenPaths document := by
  change Entries.descend (Entries.appendTable [] key) before document = some document' at h
  have hempty : pathOf [] = none := rfl
  apply givenPaths_descend h
  · rintro rfl
    obtain ⟨ts, rfl, hold⟩ := appendTable_eq_some h
    apply givenPaths_put
    intro _
    obtain ⟨hold, rfl⟩ | hold := hold <;> rw [hold] <;> simp [tablesOf, hempty]
  · rintro rfl ts hts unit unit' hunit
    obtain ⟨ts, rfl, hold⟩ := appendTable_eq_some hunit
    apply pathOf_put
    intro _
    obtain ⟨hold, -⟩ | hold := hold <;> rw [hold] <;> rfl

/-! ## Lines -/

/-- A line that gives a unit its path. -/
structure PathLine where
  path : String
  /-- The text from where the line begins. -/
  text : List Char
  deriving DecidableEq, Repr

/-- Whether keys belong to the table of a unit behind a line, if they did or did not before it. -/
def underUnit (before : Bool) : Toml.Statement → Bool
  | .assign _ _ => before
  | .openTable _ => false
  | .appendTable path => path = ["unit"]

/-- The path that a line gives the unit in whose table it stands. -/
def givenBy (inUnit : Bool) : Toml.Statement → Option String
  | .assign path v => if inUnit = true ∧ path = ["path"] then textOf (some v) else none
  | _ => none

/-- The lines that give units their paths. -/
def pathLines (inUnit : Bool) : List (Toml.Statement × List Char) → List PathLine
  | [] => []
  | (st, text) :: rest =>
    ((givenBy inUnit st).map fun path => ⟨path, text⟩).toList ++
      pathLines (underUnit inUnit st) rest

/-- The header that keys belong to behind a line. -/
def headerBehind (current : List String) : Toml.Statement → List String
  | .assign _ _ => current
  | .openTable path => path
  | .appendTable path => path

/-- What a line makes of a document. -/
inductive Grows (document : Entries) (current : List String) : Toml.Statement → Entries → Prop
  | assign {path : List String} {v : Value} {document' : Entries}
    (h : Entries.descend (Entries.assign v path) current document = some document') :
    Grows document current (.assign path v) document'
  | openTable {before : List String} {key : String} {document' : Entries}
    (h : Entries.openTable before key document = some document') :
    Grows document current (.openTable (before ++ [key])) document'
  | appendTable {before : List String} {key : String} {document' : Entries}
    (h : Entries.appendTable before key document = some document') :
    Grows document current (.appendTable (before ++ [key])) document'

/-- A path of keys is split in front of its last key. -/
theorem splitPath_eq_some {path before : List String} {key : String}
    (h : Toml.splitPath path = some (before, key)) : path = before ++ [key] := by
  obtain ⟨last, hlast, heq⟩ := Option.map_eq_some_iff.mp h
  cases heq
  exact (List.dropLast_append_getLast? _ hlast).symm

/-- A document is grown by one line, and then by the others. -/
theorem build_cons {document document' : Entries} {current : List String} {st : Toml.Statement}
    {rest : List Toml.Statement} (h : Toml.build document current (st :: rest) = some document') :
    ∃ between, Grows document current st between ∧
      Toml.build between (headerBehind current st) rest = some document' := by
  cases st with
  | assign path v =>
    obtain ⟨between, hbetween, hrest⟩ := Option.bind_eq_some_iff.mp h
    exact ⟨between, .assign hbetween, hrest⟩
  | openTable path =>
    obtain ⟨⟨before, key⟩, hpath, h⟩ := Option.bind_eq_some_iff.mp h
    obtain ⟨between, hbetween, hrest⟩ := Option.bind_eq_some_iff.mp h
    obtain rfl := splitPath_eq_some hpath
    exact ⟨between, .openTable hbetween, hrest⟩
  | appendTable path =>
    obtain ⟨⟨before, key⟩, hpath, h⟩ := Option.bind_eq_some_iff.mp h
    obtain ⟨between, hbetween, hrest⟩ := Option.bind_eq_some_iff.mp h
    obtain rfl := splitPath_eq_some hpath
    exact ⟨between, .appendTable hbetween, hrest⟩

/-- The document and its last header bear out whether keys belong to the table of a unit. -/
structure Standing (inUnit : Bool) (current : List String) (document : Entries) : Prop where
  current_eq : inUnit = true → current = ["unit"]
  tables_iff : current = ["unit"] →
    (inUnit = true ↔ ∃ ts, document.get? "unit" = some (.tables ts))

/-- Above the first line there is no header. -/
theorem standing_nil : Standing false [] [] where
  current_eq h := absurd h Bool.false_ne_true
  tables_iff h := by cases h

variable {inUnit : Bool} {current : List String} {st : Toml.Statement}
  {document document' : Entries}

/-- A change below the current header keeps the header what it is. -/
theorem Standing.descend (hstanding : Standing inUnit current document)
    {f : Entries → Option Entries} (h : Entries.descend f current document = some document') :
    Standing inUnit current document' where
  current_eq := hstanding.current_eq
  tables_iff := by
    rintro rfl
    rw [hstanding.tables_iff rfl]
    obtain ⟨v, rfl, hentered⟩ := descend_cons h
    rw [get?_put_self]
    generalize document.get? "unit" = old at hentered
    cases hentered <;> simp

/-- A line leaves the header at which the next line stands. -/
theorem Grows.standing (hgrows : Grows document current st document')
    (hstanding : Standing inUnit current document) :
    Standing (underUnit inUnit st) (headerBehind current st) document' := by
  cases hgrows with
  | assign h => exact hstanding.descend h
  | @openTable before key _ h =>
    refine ⟨fun hfalse => absurd hfalse Bool.false_ne_true, ?_⟩
    intro hheader
    change before ++ [key] = ["unit"] at hheader
    obtain ⟨rfl, rfl⟩ : before = [] ∧ key = "unit" := by
      simpa [List.append_eq_singleton_iff] using hheader
    obtain ⟨t, rfl, -⟩ := openTable_eq_some h
    simp [underUnit, get?_put_self]
  | @appendTable before key _ h =>
    refine ⟨of_decide_eq_true, ?_⟩
    intro hheader
    change before ++ [key] = ["unit"] at hheader
    obtain ⟨rfl, rfl⟩ : before = [] ∧ key = "unit" := by
      simpa [List.append_eq_singleton_iff] using hheader
    obtain ⟨ts, rfl, -⟩ := appendTable_eq_some h
    simp [underUnit, get?_put_self]

theorem givenPaths_descend_assign {path : List String} {v : Value} (hv : ∀ ts, v ≠ .tables ts)
    (hstanding : Standing inUnit current document)
    (h : Entries.descend (Entries.assign v path) current document = some document') :
    givenPaths document' = givenPaths document ++ (givenBy inUnit (.assign path v)).toList := by
  by_cases hgiven : inUnit = true ∧ path = ["path"]
  · rw [givenBy, if_pos hgiven]
    obtain ⟨rfl, rfl⟩ := hgiven
    obtain rfl := hstanding.current_eq rfl
    obtain ⟨ts, hts⟩ := (hstanding.tables_iff rfl).mp rfl
    obtain ⟨w, rfl, hentered⟩ := descend_cons h
    rw [hts] at hentered
    cases hentered with
    | tables hlast =>
      -- It is the last unit that the path is given to, and it had none.
      obtain ⟨front, unit, unit', rfl, rfl, hunit⟩ := changeLast_eq_some hlast
      obtain ⟨hnone, rfl⟩ := assign_key hunit
      have hpath : pathOf unit = none := by
        rw [pathOf, hnone]
        rfl
      have hpath' : pathOf (unit.put "path" v) = textOf (some v) := by
        rw [pathOf, get?_put_self]
      rw [givenPaths, givenPaths, get?_put_self, hts]
      simp only [tablesOf, List.filterMap_append, List.filterMap_cons, hpath, hpath']
      cases textOf (some v) <;> simp
  · rw [givenBy, if_neg hgiven, Option.toList_none, List.append_nil]
    apply givenPaths_descend h
    · rintro rfl
      exact givenPaths_assign hv h
    · rintro rfl ts hts unit unit' hunit
      apply pathOf_assign _ hunit
      intro hpath
      exact absurd ⟨(hstanding.tables_iff rfl).mpr ⟨ts, hts⟩, hpath⟩ hgiven

/-- A line gives a unit a path, or it leaves the paths of all units as they are. -/
theorem Grows.givenPaths_eq (hst : ∀ path v, st = .assign path v → ∀ ts, v ≠ .tables ts)
    (hgrows : Grows document current st document') (hstanding : Standing inUnit current document) :
    givenPaths document' = givenPaths document ++ (givenBy inUnit st).toList := by
  cases hgrows with
  | assign h => exact givenPaths_descend_assign (hst _ _ rfl) hstanding h
  | openTable h => simp [givenBy, givenPaths_openTable h]
  | appendTable h => simp [givenBy, givenPaths_appendTable h]

/-- The paths that lines give are the paths in the document that the lines make. -/
theorem givenPaths_build {ls : List (Toml.Statement × List Char)}
    (hls : ∀ l ∈ ls, ∀ path v, l.1 = .assign path v → ∀ ts, v ≠ .tables ts)
    (hstanding : Standing inUnit current document)
    (h : Toml.build document current (ls.map Prod.fst) = some document') :
    givenPaths document' = givenPaths document ++ (pathLines inUnit ls).map PathLine.path := by
  induction ls generalizing inUnit current document with
  | nil =>
    cases h
    exact (List.append_nil _).symm
  | cons l rest ih =>
    obtain ⟨st, text⟩ := l
    obtain ⟨hl, hrest⟩ := List.forall_mem_cons.mp hls
    obtain ⟨between, hgrows, hbuild⟩ := build_cons h
    rw [ih hrest (hgrows.standing hstanding) hbuild, hgrows.givenPaths_eq hl hstanding, pathLines]
    cases givenBy inUnit st <;> simp

/-! ### What lines are picked out

The lines that give a path are some of the lines of the text, in their order. -/

/-- A line that gives a unit its path sets the key `path` to a text. -/
theorem mem_of_mem_pathLines {ls : List (Toml.Statement × List Char)} {d : PathLine}
    (h : d ∈ pathLines inUnit ls) : (.assign ["path"] (.string d.path), d.text) ∈ ls := by
  induction ls generalizing inUnit with
  | nil => cases h
  | cons l rest ih =>
    obtain ⟨st, text⟩ := l
    rcases List.mem_append.mp h with h | h
    · obtain ⟨path, hpath, rfl⟩ := Option.map_eq_some_iff.mp (Option.mem_toList.mp h)
      cases st with
      | assign key v =>
        rw [givenBy] at hpath
        split at hpath
        · next hkey =>
          cases v with
          | string s =>
            cases hpath
            rw [hkey.2]
            exact List.mem_cons_self
          | _ => cases hpath
        · cases hpath
      | openTable key => cases hpath
      | appendTable key => cases hpath
    · exact List.mem_cons_of_mem _ (ih h)

/-- The lines that are picked out keep their order. -/
theorem pairwise_pathLines {ls : List (Toml.Statement × List Char)}
    {R : List Char → List Char → Prop} (h : ls.Pairwise fun l l' => R l.2 l'.2) :
    (pathLines inUnit ls).Pairwise fun d d' => R d.text d'.text := by
  induction ls generalizing inUnit with
  | nil => exact .nil
  | cons l rest ih =>
    obtain ⟨st, text⟩ := l
    obtain ⟨hl, hrest⟩ := List.pairwise_cons.mp h
    rw [pathLines]
    cases givenBy inUnit st with
    | none => exact ih hrest
    | some path =>
      refine List.pairwise_cons.mpr ⟨?_, ih hrest⟩
      intro d hd
      exact hl _ (mem_of_mem_pathLines hd)

/-! ## The units of a manifest -/

/-- The fields of a table with no unknown ones are its entries. -/
theorem knownFields?_eq_some {names : List String} {entries : Entries} {fields : Fields}
    (h : knownFields? names entries = some fields) : fields = entries := by
  rw [knownFields?] at h
  split at h
  · exact (Option.some.inj h).symm
  · cases h

/-- An entry that is a table gives its unit the path that stands in the table. -/
theorem pathOf_unitEntry {form : Toml.TableForm} {t : Entries} {u : UnitEntry}
    (h : unitEntry? (.table form t) = some u) : pathOf t = some u.path := by
  obtain ⟨fields, hfields, h⟩ := Option.bind_eq_some_iff.mp h
  obtain ⟨path, hpath, h⟩ := Option.bind_eq_some_iff.mp h
  obtain ⟨package, -, h⟩ := Option.bind_eq_some_iff.mp h
  obtain ⟨imports, -, h⟩ := Option.bind_eq_some_iff.mp h
  obtain ⟨types, -, h⟩ := Option.bind_eq_some_iff.mp h
  obtain ⟨methods, -, heq⟩ := Option.bind_eq_some_iff.mp h
  cases heq
  obtain rfl := knownFields?_eq_some hfields
  obtain ⟨v, hv, htext⟩ := Option.bind_eq_some_iff.mp hpath
  rw [pathOf, Entries.get?, hv]
  cases v with
  | string s => exact htext
  | _ => cases htext

theorem paths_mapM_unitEntry {ts : List Entries} {us : List UnitEntry}
    (h : (ts.map fun t => Value.table .header t).mapM unitEntry? = some us) :
    us.map (·.path) = ts.filterMap pathOf := by
  induction ts generalizing us with
  | nil =>
    cases h
    rfl
  | cons t ts ih =>
    rw [List.map_cons, List.mapM_cons] at h
    obtain ⟨u, hu, h⟩ := Option.bind_eq_some_iff.mp h
    obtain ⟨us, hus, heq⟩ := Option.bind_eq_some_iff.mp h
    cases heq
    rw [List.map_cons, ih hus, List.filterMap_cons, pathOf_unitEntry hu]

/-- The units of a manifest have the paths that their tables give, unless they are written as a
list. -/
theorem paths_ofEntries {m : Manifest} (h : ofEntries? document = some m)
    (hlist : ∀ items, document.get? "unit" ≠ some (.array items)) :
    m.units.map (·.path) = givenPaths document := by
  obtain ⟨fields, hfields, h⟩ := Option.bind_eq_some_iff.mp h
  obtain ⟨classpath, -, h⟩ := Option.bind_eq_some_iff.mp h
  obtain ⟨units, hunits, heq⟩ := Option.bind_eq_some_iff.mp h
  cases heq
  obtain rfl := knownFields?_eq_some hfields
  show units.map (·.path) = _
  rw [givenPaths]
  simp only [Entries.get?] at hlist ⊢
  rw [optional?] at hunits
  split at hunits
  · next hnone =>
    cases hunits
    rw [hnone]
    rfl
  · next v hv =>
    obtain ⟨members, hmembers, hunits⟩ := Option.bind_eq_some_iff.mp hunits
    rw [hv]
    cases v with
    | array items => exact absurd hv (hlist items)
    | tables ts =>
      cases hmembers
      exact paths_mapM_unitEntry hunits
    | string s => cases hmembers
    | scalar text => cases hmembers
    | table form t => cases hmembers

end Manifest

end AnalysisHost
