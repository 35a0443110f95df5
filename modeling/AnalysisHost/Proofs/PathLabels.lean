import AnalysisHost.Manifest.Read
import AnalysisHost.Proofs.FirstViolation
import AnalysisHost.Proofs.QuotedFinds
import AnalysisHost.Proofs.Remainders
import AnalysisHost.Proofs.UnitPaths

/-!
# Where labels point when a path is repeated

A manifest in which two units have one path is refused, and two labels point into its text: to where
the path is first declared and to where it is declared again. The places are not remembered from
reading the text but searched for in it afterwards, as the first two finds of the path in quotes.

If units have tables of their own and their paths are written out, both finds exist, and they are
apart (`labels_of_duplicateUnit`). They are on the two lines that declare the path exactly if above
the second of these lines the path is found once (`pointsAtDeclarations_iff`): a type, an import or
a comment above it that has the same text in quotes draws a label to itself.
-/

namespace AnalysisHost.Manifest

open Toml (Entries)

/-! ## Lines that declare a path -/

/-- The text that is read: a byte order mark in front of it does not count. -/
def unmarked (text : String) : List Char :=
  match text.toList with
  | '\uFEFF' :: s => s
  | s => s

/-- Without its byte order mark, a text is the rest of itself. -/
theorem unmarked_suffix (text : String) : unmarked text <:+ text.toList := by
  unfold unmarked
  split
  · next h =>
    rw [h]
    exact List.suffix_cons _ _
  · exact List.suffix_rfl

theorem parse_eq (text : String) :
    Toml.parse text = (Toml.statements (unmarked text)).bind (Toml.build [] []) := rfl

/-- The lines of a text that give units their paths. -/
def pathLinesOf (text : String) : List PathLine :=
  match Toml.located (unmarked text) with
  | some ls => pathLines false ls
  | none => []

/-- The number of a line, counted from zero. -/
def PathLine.number (text : String) (l : PathLine) : Nat :=
  text.toList.count '\n' - l.text.count '\n'

/-- The lines that give units a path, from above. -/
def declaredOn (text path : String) : List Nat :=
  ((pathLinesOf text).filter (·.path = path)).map (·.number text)

/-- A path stands in double quotes just as it is. -/
def isWrittenOut (path : String) (written : List Char) : Bool :=
  (Span.quoted path).isPrefixOf written &&
    path.toList.all fun c => Toml.isText c && c != '"' && c != '\\'

/-- A path that is written out begins with its quoted form. -/
theorem prefix_of_isWrittenOut {path : String} {written : List Char}
    (h : isWrittenOut path written = true) : Span.quoted path <+: written :=
  List.isPrefixOf_iff_prefix.mp (Bool.and_eq_true_iff.mp h).1

/-- It is written on one line. -/
theorem newline_not_mem_quoted {path : String} {written : List Char}
    (h : isWrittenOut path written = true) : '\n' ∉ Span.quoted path := by
  have hpath : '\n' ∉ path.toList := by
    intro hmem
    have htext := List.all_eq_true.mp (Bool.and_eq_true_iff.mp h).2 _ hmem
    exact absurd htext (by decide)
  simp [Span.quoted, hpath]

/-- The units of a text have tables with headers of their own, and their paths are written as basic
strings without escapes. -/
structure PlainlyWritten (text : String) : Prop where
  tables : ∀ items, (Toml.parse text).bind (·.get? "unit") ≠ some (.array items)
  paths : ∀ l ∈ pathLinesOf text, ∃ written, Toml.written? l.text = some written ∧
    isWrittenOut l.path written = true

/-- To be plainly written can be checked by computation. -/
theorem plainlyWritten_of {text : String} {units : List Entries}
    (htables : (Toml.parse text).bind (·.get? "unit") = some (.tables units))
    (hpaths : ((pathLinesOf text).all fun l =>
      (Toml.written? l.text).any (isWrittenOut l.path)) = true) :
    PlainlyWritten text where
  tables items h := by
    rw [htables] at h
    cases h
  paths l hl := (Option.any_eq_true _ _).mp (List.all_eq_true.mp hpaths l hl)

/-- The units of a manifest have the paths that the lines of its text give, in order. -/
theorem paths_pathLinesOf {text : String} (hplain : PlainlyWritten text) {document : Entries}
    (hdocument : Toml.parse text = some document) {m : Manifest}
    (hm : ofEntries? document = some m) :
    (pathLinesOf text).map PathLine.path = m.units.map (·.path) := by
  have htables := hplain.tables
  rw [hdocument] at htables
  rw [parse_eq, ← Toml.map_fst_located] at hdocument
  obtain ⟨statements, hstatements, hbuild⟩ := Option.bind_eq_some_iff.mp hdocument
  obtain ⟨ls, hls, rfl⟩ := Option.map_eq_some_iff.mp hstatements
  have hvalues : ∀ l ∈ ls, ∀ path v, l.1 = .assign path v → ∀ ts, v ≠ .tables ts := by
    intro l hl path v hst
    obtain ⟨-, -, r, hr⟩ := (Toml.located_spec hls).1 l hl
    rw [hst] at hr
    obtain ⟨_, _, -, -, hvalue⟩ := Toml.written?_of_statement hr
    exact Toml.value_ne_tables hvalue
  have hgiven := givenPaths_build hvalues standing_nil hbuild
  rw [paths_ofEntries hm htables, hgiven, pathLinesOf, hls]
  rfl

/-- The lines that give units their paths are ends of the text, one below the other. -/
theorem pathLinesOf_spec (text : String) :
    (∀ d ∈ pathLinesOf text, d.text <:+ text.toList ∧
      ∃ r, Toml.statement d.text = some (.assign ["path"] (.string d.path), r)) ∧
      (pathLinesOf text).Pairwise fun d d' => d'.text.count '\n' < d.text.count '\n' := by
  rw [pathLinesOf]
  cases hls : Toml.located (unmarked text) with
  | none => exact ⟨by simp, .nil⟩
  | some ls =>
    obtain ⟨hmem, hpairs⟩ := Toml.located_spec hls
    refine ⟨?_, pairwise_pathLines (R := fun s t => t.count '\n' < s.count '\n') hpairs⟩
    intro d hd
    obtain ⟨hsuffix, -, hst⟩ := hmem _ (mem_of_mem_pathLines hd)
    exact ⟨hsuffix.trans (unmarked_suffix text), hst⟩

/-- A line with fewer lines behind it stands further down. -/
theorem number_lt {text : String} {d d' : PathLine} (hd : d ∈ pathLinesOf text)
    (h : d'.text.count '\n' < d.text.count '\n') : d.number text < d'.number text := by
  have hle := ((pathLinesOf_spec text).1 d hd).1.sublist.count_le '\n'
  simp only [PathLine.number]
  omega

/-! ## Refused paths

A path is refused as a duplicate only where the document gives it twice, which ties the error to
lines of the text. -/

/-- A path that is refused is there twice. -/
theorem two_le_count_of_duplicateUnit {m : Manifest} {path : String}
    (h : m.check = .error (.duplicateUnit path)) : 2 ≤ (m.units.map (·.path)).count path := by
  rw [check_eq, verdict_eq_error_iff, firstViolation?_eq_some_iff] at h
  obtain ⟨before, e, behind, hrow, hviolates, -⟩ := h
  cases hviolates with
  | duplicateUnit hmem =>
    have hbefore := List.count_pos_iff.mpr (mem_paths_iff.mpr hmem)
    have hbehind : (Element.path path :: behind).filterMap Element.path? =
        path :: behind.filterMap Element.path? := rfl
    rw [← paths_elements, hrow, List.filterMap_append, List.count_append, hbehind,
      List.count_cons_self]
    omega

/-- What is invalid has been read as a manifest, and the check has refused it. -/
theorem check_of_parse {text file : String} {v : Violation}
    (h : parse text file = .error (.invalid file text v)) :
    ∃ document m, Toml.parse text = some document ∧ ofEntries? document = some m ∧
      m.check = .error v := by
  unfold parse at h
  split at h
  · cases h
  · next m hm =>
    obtain ⟨document, hdocument, hm⟩ := Option.bind_eq_some_iff.mp hm
    split at h
    · next hcheck =>
      cases h
      exact ⟨document, m, hdocument, hm, hcheck⟩
    · cases h

/-! ## Mentions of a path

The error points at places where the path stands in quotes. Every line that declares the path has
such a place; a mention elsewhere in the text may come first. -/

/-- The lines of a text. -/
def lines (text : String) : List (List Char) := Text.segments '\n' text.toList

/-- How often a path is found in quotes on a line. -/
def mentions (path : String) (line : List Char) : Nat :=
  (Span.occurrences (Span.quoted path) 0 0 line).length

/-- How often a path is found in quotes above a line. -/
def mentionsAbove (text path : String) (line : Nat) : Nat :=
  (((lines text).take line).map (mentions path)).sum

theorem quoted_ne_nil (path : String) : Span.quoted path ≠ [] := List.cons_ne_nil _ _

/-- On a line that declares a path, the path is found. -/
theorem hit_of_mem_pathLinesOf {text : String} (hplain : PlainlyWritten text) {d : PathLine}
    (hd : d ∈ pathLinesOf text) :
    Span.Hit ((lines text).map (mentions d.path)) (d.number text) := by
  obtain ⟨⟨before, hbefore⟩, r, hst⟩ := (pathLinesOf_spec text).1 d hd
  obtain ⟨written, hwritten, hout⟩ := hplain.paths d hd
  obtain ⟨written', _, hwritten', ⟨between, hbetween, hline⟩, -⟩ := Toml.written?_of_statement hst
  obtain rfl : written = written' := Option.some.inj (hwritten.symm.trans hwritten')
  obtain ⟨behind, rfl⟩ := prefix_of_isWrittenOut hout
  have htext : text.toList = (before ++ between) ++ (Span.quoted d.path ++ behind) := by
    rw [← hbefore, hbetween, List.append_assoc]
  have hnumber : d.number text = (before ++ between).count '\n' := by
    rw [PathLine.number, ← hbefore, List.count_append, List.count_append,
      List.count_eq_zero_of_not_mem hline]
    omega
  obtain ⟨piece, hpiece, hheld⟩ :=
    Span.exists_segment (newline_not_mem_quoted hout) (before ++ between) behind
  refine ⟨mentions d.path piece, ?_, ?_⟩
  · rw [List.getElem?_map, lines, htext, hnumber, hpiece]
    rfl
  · exact List.length_pos_of_ne_nil (Span.occurrences_ne_nil (quoted_ne_nil _) hheld 0)

/-- The lines of all finds of a path. -/
theorem map_lineAt_mentions (text : String) {path : String} {written : List Char}
    (hout : isWrittenOut path written = true) :
    (Span.occurrences (Span.quoted path) 0 0 text.toList).map
        (fun o => Span.lineAt (o + 1) text.toList) =
      Span.spread ((lines text).map (mentions path)) := by
  have hlines : ∀ l ∈ lines text, '\n' ∉ l := fun l hl => Text.not_mem_of_mem_segments hl
  have hfinds :=
    Span.map_lineAt_occurrences (newline_not_mem_quoted hout) (quoted_ne_nil path) hlines
  rwa [lines, Text.join_segments] at hfinds

/-! ## Labels

The second label is put on the second mention of the path, not on the second line that declares it.
So it is in place exactly if the first declaration is the only mention above that line. -/

/-- Two lines declare a path that is refused, and it is found on both. -/
theorem exists_declarations {text file path : String} (hplain : PlainlyWritten text)
    (h : parse text file = .error (.invalid file text (.duplicateUnit path))) :
    ∃ first second rest, declaredOn text path = first :: second :: rest ∧ first < second ∧
      Span.Hit ((lines text).map (mentions path)) first ∧
      Span.Hit ((lines text).map (mentions path)) second ∧
      ∃ written, isWrittenOut path written = true := by
  obtain ⟨document, m, hdocument, hm, hcheck⟩ := check_of_parse h
  have hcount := two_le_count_of_duplicateUnit hcheck
  rw [← paths_pathLinesOf hplain hdocument hm, List.count, List.countP_map,
    List.countP_eq_length_filter] at hcount
  change 2 ≤ ((pathLinesOf text).filter (·.path = path)).length at hcount
  rcases hlines : (pathLinesOf text).filter (·.path = path) with _ | ⟨d, _ | ⟨d', rest⟩⟩
  · simp [hlines] at hcount
  · simp [hlines] at hcount
  · have hd : d ∈ (pathLinesOf text).filter (·.path = path) := by simp [hlines]
    have hd' : d' ∈ (pathLinesOf text).filter (·.path = path) := by simp [hlines]
    simp only [List.mem_filter, decide_eq_true_eq] at hd hd'
    obtain ⟨hd, rfl⟩ := hd
    obtain ⟨hd', hpath⟩ := hd'
    have hpairs := (pathLinesOf_spec text).2.filter (·.path = d.path)
    rw [hlines] at hpairs
    have hlt : d.number text < d'.number text :=
      number_lt hd (List.rel_of_pairwise_cons hpairs List.mem_cons_self)
    have hsecond := hit_of_mem_pathLinesOf hplain hd'
    rw [hpath] at hsecond
    obtain ⟨written, -, hout⟩ := hplain.paths d hd
    exact ⟨d.number text, d'.number text, rest.map (·.number text), by rw [declaredOn, hlines]; rfl,
      hlt, hit_of_mem_pathLinesOf hplain hd, hsecond, written, hout⟩

/-- **The labels of a repeated path** are both there, and they are apart. They are on the lines that
declare it first and second exactly if it is found once above the second. -/
theorem labels_of_duplicateUnit {text file path : String} (hplain : PlainlyWritten text)
    (h : parse text file = .error (.invalid file text (.duplicateUnit path))) :
    ∃ first second rest a b, declaredOn text path = first :: second :: rest ∧
      (Violation.duplicateUnit path).labels text =
        [⟨"first declared here", a⟩, ⟨"declared again here", b⟩] ∧ a ≠ b ∧
      (Span.lineAt a.offset text.toList = first ∧ Span.lineAt b.offset text.toList = second ↔
        mentionsAbove text path second = 1) := by
  obtain ⟨first, second, rest, hdeclared, hlt, hfirst, hsecond, written, hout⟩ :=
    exists_declarations hplain h
  obtain ⟨o, o', os, hfinds, hiff⟩ :=
    Span.exists_first_two (map_lineAt_mentions text hout) hlt hfirst hsecond
  have hpairs := Span.pairwise_occurrences (Span.quoted path) 0 0 text.toList
  rw [hfinds] at hpairs
  have hne : o < o' := List.rel_of_pairwise_cons hpairs List.mem_cons_self
  refine ⟨first, second, rest, ⟨o + 1, path.utf8ByteSize⟩, ⟨o' + 1, path.utf8ByteSize⟩, hdeclared,
    ?_, ?_, ?_⟩
  · simp [Violation.labels, Violation.targets, Span.ofQuoted?, hfinds]
  · intro heq
    simp only [Span.mk.injEq, and_true] at heq
    omega
  · rw [mentionsAbove, List.map_take]
    exact hiff

/-- Two labels that are apart, on the lines that declare a path first and second. -/
def PointsAtDeclarations (text path : String) : Prop :=
  ∃ first second rest a b, declaredOn text path = first :: second :: rest ∧
    (Violation.duplicateUnit path).labels text =
      [⟨"first declared here", a⟩, ⟨"declared again here", b⟩] ∧ a ≠ b ∧
    Span.lineAt a.offset text.toList = first ∧ Span.lineAt b.offset text.toList = second

/-- **Labels point at the declarations** of a repeated path exactly if above the line that declares
it again it is found in quotes just once, where it is first declared. -/
theorem pointsAtDeclarations_iff {text file path : String} (hplain : PlainlyWritten text)
    (h : parse text file = .error (.invalid file text (.duplicateUnit path))) :
    PointsAtDeclarations text path ↔
      ∃ first second rest, declaredOn text path = first :: second :: rest ∧
        mentionsAbove text path second = 1 := by
  obtain ⟨first, second, rest, a, b, hdeclared, hlabels, hapart, hiff⟩ :=
    labels_of_duplicateUnit hplain h
  constructor
  · rintro ⟨first', second', rest', a', b', hdeclared', hlabels', -, hat⟩
    rw [hdeclared'] at hdeclared
    rw [hlabels'] at hlabels
    cases hdeclared
    cases hlabels
    exact ⟨first, second, rest, hdeclared', hiff.mp hat⟩
  · rintro ⟨first', second', rest', hdeclared', honce⟩
    rw [hdeclared'] at hdeclared
    cases hdeclared
    exact ⟨first, second, rest, a, b, hdeclared', hlabels, hapart, hiff.mpr honce⟩

/-- Two units with one path. -/
def repeated : String :=
  "[[unit]]\npath = \"A.java\"\npackage = \"a\"\n\n[[unit]]\npath = \"A.java\"\npackage = \"b\"\n"

/-- The document of the text with a repeated path. -/
theorem parse_repeated : Toml.parse repeated =
    some [("unit", .tables [[("path", .string "A.java"), ("package", .string "a")],
      [("path", .string "A.java"), ("package", .string "b")]])] := by cbv

/-- Both of its paths are declared on a line of their own. -/
theorem pathLinesOf_repeated : pathLinesOf repeated =
    [⟨"A.java", repeated.toList.drop 9⟩, ⟨"A.java", repeated.toList.drop 49⟩] := by cbv

theorem plainlyWritten_repeated : PlainlyWritten repeated := by
  refine plainlyWritten_of (by rw [parse_repeated]; rfl) ?_
  rw [pathLinesOf_repeated]
  cbv

theorem pointsAtDeclarations_repeated :
    parse repeated = .error (.invalid defaultFile repeated (.duplicateUnit "A.java")) ∧
      PointsAtDeclarations repeated "A.java" := by
  have hrefused :
      parse repeated = .error (.invalid defaultFile repeated (.duplicateUnit "A.java")) := by
    rw [parse, parse_repeated]
    cbv
  have hdeclared : declaredOn repeated "A.java" = [1, 5] := by
    rw [declaredOn, pathLinesOf_repeated]
    cbv
  have honce : mentionsAbove repeated "A.java" 5 = 1 := by decide +kernel
  exact ⟨hrefused, (pointsAtDeclarations_iff plainlyWritten_repeated hrefused).mpr
    ⟨1, 5, [], hdeclared, honce⟩⟩

/-- Two units with one path, the first of which declares a type that is called like the path. -/
def misplaced : String :=
  "[[unit]]\npath = \"A\"\npackage = \"a\"\ntypes = [\"A\"]\n\n" ++
    "[[unit]]\npath = \"A\"\npackage = \"a\"\n"

/-- The document of the text where another line mentions the path. -/
theorem parse_misplaced : Toml.parse misplaced =
    some [("unit", .tables [[("path", .string "A"), ("package", .string "a"),
      ("types", .array [.string "A"])], [("path", .string "A"), ("package", .string "a")]])] := by
  cbv

theorem pathLinesOf_misplaced : pathLinesOf misplaced =
    [⟨"A", misplaced.toList.drop 9⟩, ⟨"A", misplaced.toList.drop 58⟩] := by cbv

/-- The label of the second declaration is on the line with the types of the first unit. -/
theorem label_of_misplaced : PlainlyWritten misplaced ∧
    parse misplaced = .error (.invalid defaultFile misplaced (.duplicateUnit "A")) ∧
    ¬ PointsAtDeclarations misplaced "A" := by
  have hplain : PlainlyWritten misplaced := by
    refine plainlyWritten_of (by rw [parse_misplaced]; rfl) ?_
    rw [pathLinesOf_misplaced]
    cbv
  have hrefused :
      parse misplaced = .error (.invalid defaultFile misplaced (.duplicateUnit "A")) := by
    rw [parse, parse_misplaced]
    cbv
  have hdeclared : declaredOn misplaced "A" = [1, 6] := by
    rw [declaredOn, pathLinesOf_misplaced]
    cbv
  have hlabels : (Violation.duplicateUnit "A").labels misplaced =
      [⟨"first declared here", ⟨17, 1⟩⟩, ⟨"declared again here", ⟨44, 1⟩⟩] := by decide +kernel
  have htypes : Span.lineAt 44 misplaced.toList = 3 := by decide +kernel
  refine ⟨hplain, hrefused, ?_⟩
  rintro ⟨first, second, rest, a, b, hfirst, hboth, -, -, hsecond⟩
  rw [hdeclared] at hfirst
  rw [hlabels] at hboth
  cases hfirst
  cases hboth
  rw [htypes] at hsecond
  cases hsecond

end AnalysisHost.Manifest
