import AnalysisHost.Proofs.QuotedFinds

/-!
# The bytes that a value covers

A search for a value in quotes counts characters, and answers with bytes. Here the search is set
against one that knows of bytes alone: from some byte on, take the first place at which the bytes of
the quoted value stand, and go on behind it (`Scan`). There is one such scan of a text, and its
places are the ones that the search finds (`scan_occurrences`).

Bytes of one character could look like the beginning of another text only if a text could begin
inside a character, and it cannot: where the bytes of a text stand in another text, it is put
together from them and from what stands on both sides (`StandsAt.exists_append`). So everything that
an answer should have follows from the text in three pieces (`finds_what_is_quoted`): it lies in the
text, between two quotes, on the borders of characters, and apart from all other answers.
-/

namespace AnalysisHost.Span

/-! ## Bytes -/

/-- The bytes of a text stand at a place in another one. -/
def StandsAt (needle text : String) (place : Nat) : Prop :=
  text.toByteArray.extract place (place + needle.utf8ByteSize) = needle.toByteArray

theorem standsAt_append (before needle behind : String) :
    StandsAt needle (before ++ (needle ++ behind)) before.utf8ByteSize := by
  rw [StandsAt, String.toByteArray_append, String.toByteArray_append]
  have hshift := ByteArray.extract_append_size_add (a := before.toByteArray)
    (b := needle.toByteArray ++ behind.toByteArray) (i := 0) (j := needle.utf8ByteSize)
  rw [String.size_toByteArray, Nat.add_zero] at hshift
  rw [hshift]
  exact ByteArray.extract_append_eq_left rfl

variable {needle text : String} {place : Nat}

theorem StandsAt.le_utf8ByteSize (hne : needle ≠ "") (h : StandsAt needle text place) :
    place + needle.utf8ByteSize ≤ text.utf8ByteSize := by
  have hpos : needle.utf8ByteSize ≠ 0 := String.utf8ByteSize_eq_zero_iff.not.mpr hne
  have hsize := congrArg ByteArray.size h
  rw [ByteArray.size_extract, String.size_toByteArray, String.size_toByteArray] at hsize
  omega

/-- Where a text stands, there are the borders of characters. -/
theorem StandsAt.isValid (hne : needle ≠ "") (h : StandsAt needle text place) :
    (String.Pos.Raw.mk place).IsValid text ∧
      (String.Pos.Raw.mk (place + needle.utf8ByteSize)).IsValid text := by
  have hpos : needle.utf8ByteSize ≠ 0 := String.utf8ByteSize_eq_zero_iff.not.mpr hne
  have hle := h.le_utf8ByteSize hne
  have hvalid : (text.toByteArray.extract place (place + needle.utf8ByteSize)).IsValidUTF8 := by
    rw [h]
    exact needle.isValidUTF8
  rcases (String.Pos.Raw.isValidUTF8_extract_iff ⟨place⟩ ⟨place + needle.utf8ByteSize⟩
    (Nat.le_add_right _ _) hle).mp hvalid with heq | hboth
  · have hsame := congrArg String.Pos.Raw.byteIdx heq
    simp only at hsame
    omega
  · exact hboth

/-- Where a text stands, the other one is put together around it. -/
theorem StandsAt.exists_append (hne : needle ≠ "") (h : StandsAt needle text place) :
    ∃ before behind, text = before ++ (needle ++ behind) ∧ before.utf8ByteSize = place := by
  obtain ⟨hstart, hend⟩ := h.isValid hne
  obtain ⟨before, later, rfl, hbefore⟩ := String.Pos.Raw.isValid_iff_exists_append.mp hstart
  obtain ⟨upto, behind, htext, hupto⟩ := String.Pos.Raw.isValid_iff_exists_append.mp hend
  have hplace : place = before.utf8ByteSize := congrArg String.Pos.Raw.byteIdx hbefore
  have hend : place + needle.utf8ByteSize = upto.utf8ByteSize :=
    congrArg String.Pos.Raw.byteIdx hupto
  refine ⟨before, behind, ?_, hplace.symm⟩
  rw [← String.append_assoc, htext]
  congr 1
  -- The text up to the end is what is in front of the place, and what stands there.
  apply String.toByteArray_inj.mp
  calc upto.toByteArray
      = (upto ++ behind).toByteArray.extract 0 (place + needle.utf8ByteSize) := by
        rw [String.toByteArray_append]
        exact (ByteArray.extract_append_eq_left hend).symm
    _ = (before ++ later).toByteArray.extract 0 place ++
          (before ++ later).toByteArray.extract place (place + needle.utf8ByteSize) := by
        rw [← htext]
        exact ByteArray.extract_eq_extract_append_extract place (Nat.zero_le _)
          (Nat.le_add_right _ _)
    _ = before.toByteArray ++ needle.toByteArray := by
        rw [h, String.toByteArray_append]
        congr 1
        exact ByteArray.extract_append_eq_left hplace
    _ = (before ++ needle).toByteArray := String.toByteArray_append.symm

/-! ## Scans -/

/-- The places at which a scan of a text finds another one, from a byte on: the first place there
is, and then the places behind what stands at it. -/
inductive Scan (needle text : String) : Nat → List Nat → Prop
  | done {start : Nat} (hnone : ∀ place, start ≤ place → ¬ StandsAt needle text place) :
      Scan needle text start []
  | found {start place : Nat} {places : List Nat} (hstart : start ≤ place)
      (hstands : StandsAt needle text place)
      (hfirst : ∀ earlier, start ≤ earlier → earlier < place → ¬ StandsAt needle text earlier)
      (hrest : Scan needle text (place + needle.utf8ByteSize) places) :
      Scan needle text start (place :: places)

namespace Scan

variable {start : Nat} {places places' : List Nat}

/-- A text is scanned in one way. -/
theorem unique (h : Scan needle text start places) (h' : Scan needle text start places') :
    places = places' := by
  induction h generalizing places' with
  | done hnone =>
    cases h' with
    | done => rfl
    | found hstart hstands => exact absurd hstands (hnone _ hstart)
  | @found start place places hstart hstands hfirst hrest ih =>
    cases h' with
    | done hnone => exact absurd hstands (hnone _ hstart)
    | @found _ place' places' hstart' hstands' hfirst' hrest' =>
      obtain rfl : place = place' := by
        rcases Nat.lt_trichotomy place place' with hlt | heq | hlt
        · exact absurd hstands (hfirst' _ hstart hlt)
        · exact heq
        · exact absurd hstands' (hfirst _ hstart' hlt)
      rw [ih hrest']

/-- Where nothing stands a scan may as well begin earlier. -/
theorem earlier {later : Nat} (h : Scan needle text later places) (hle : start ≤ later)
    (hnone : ∀ place, start ≤ place → place < later → ¬ StandsAt needle text place) :
    Scan needle text start places := by
  cases h with
  | done hover =>
    refine done fun place hplace => ?_
    rcases Nat.lt_or_ge place later with hlt | hge
    · exact hnone place hplace hlt
    · exact hover place hge
  | found hstart hstands hfirst hrest =>
    refine found (hle.trans hstart) hstands (fun place hplace hlt => ?_) hrest
    rcases Nat.lt_or_ge place later with hlt' | hge
    · exact hnone place hplace hlt'
    · exact hfirst place hge hlt

theorem of_mem (h : Scan needle text start places) :
    ∀ place ∈ places, start ≤ place ∧ StandsAt needle text place := by
  induction h with
  | done => exact List.forall_mem_nil _
  | found hstart hstands _ _ ih =>
    refine List.forall_mem_cons.mpr ⟨⟨hstart, hstands⟩, fun place hplace => ?_⟩
    obtain ⟨hle, hthere⟩ := ih place hplace
    exact ⟨by omega, hthere⟩

/-- What is found does not overlap. -/
theorem pairwise (h : Scan needle text start places) :
    places.Pairwise fun place place' => place + needle.utf8ByteSize ≤ place' := by
  induction h with
  | done => exact .nil
  | found _ _ _ hrest ih =>
    exact List.pairwise_cons.mpr ⟨fun place hplace => (hrest.of_mem place hplace).1, ih⟩

end Scan

/-! ## The search as a scan -/

/-- Two beginnings of one text are beginnings of one another, in the order of their lengths. -/
theorem prefix_of_bytes_le {s t u : List Char} (hs : s <+: u) (ht : t <+: u)
    (hle : bytes s ≤ bytes t) : s <+: t := by
  rcases List.prefix_or_prefix_of_prefix hs ht with hst | ⟨rest, rfl⟩
  · exact hst
  · rw [bytes_append] at hle
    obtain rfl := bytes_eq_zero_iff.mp (show bytes rest = 0 by omega)
    rw [List.append_nil]

/-- What stands behind the front of a text begins behind some of its characters. -/
theorem standsAt_iff (hne : needle ≠ "") {front s : List Char} (htext : text.toList = front ++ s)
    (hplace : bytes front ≤ place) :
    StandsAt needle text place ↔
      ∃ between, between ++ needle.toList <+: s ∧ place = bytes front + bytes between := by
  constructor
  · intro h
    obtain ⟨before, behind, rfl, rfl⟩ := h.exists_append hne
    rw [String.toList_append, String.toList_append] at htext
    rw [← bytes_toList] at hplace ⊢
    obtain ⟨between, hbetween⟩ := prefix_of_bytes_le ⟨s, htext.symm⟩
      (List.prefix_append before.toList _) hplace
    rw [← hbetween, List.append_assoc] at htext
    refine ⟨between, ⟨behind.toList, ?_⟩, by rw [← hbetween, bytes_append]⟩
    rw [List.append_assoc]
    exact List.append_cancel_left htext
  · rintro ⟨between, ⟨behind, rfl⟩, rfl⟩
    have hsplit : text =
        String.ofList (front ++ between) ++ (needle ++ String.ofList behind) := by
      apply String.toList_inj.mp
      simp [htext]
    rw [hsplit, ← bytes_append, ← String.toList_ofList (l := front ++ between), bytes_toList,
      String.ofList_toList]
    exact standsAt_append _ _ _

/-- Characters that are covered are passed over. -/
theorem occurrences_covered (needle : List Char) (covered offset : Nat) (s : List Char) :
    occurrences needle covered offset s =
      occurrences needle 0 (offset + bytes (s.take covered)) (s.drop covered) := by
  induction s generalizing covered offset with
  | nil => rw [List.drop_nil]; rfl
  | cons c cs ih =>
    cases covered with
    | zero => rfl
    | succ covered =>
      rw [occurrences, ih, List.take_succ_cons, List.drop_succ_cons, bytes_cons, Nat.add_assoc]

theorem occurrences_of_found {needle : List Char} (hne : needle ≠ []) (offset : Nat)
    (behind : List Char) :
    occurrences needle 0 offset (needle ++ behind) =
      offset :: occurrences needle 0 (offset + bytes needle) behind := by
  cases needle with
  | nil => exact absurd rfl hne
  | cons c cs =>
    have hfound : (c :: cs).isPrefixOf (c :: (cs ++ behind)) = true :=
      List.isPrefixOf_iff_prefix.mpr (List.prefix_append (c :: cs) behind)
    have hcovered : (c :: cs).length - 1 = cs.length := rfl
    rw [List.cons_append, occurrences, if_pos hfound, hcovered, occurrences_covered,
      List.take_left, List.drop_left, bytes_cons, Nat.add_assoc]

theorem occurrences_of_not_found {needle : List Char} {c : Char} {cs : List Char}
    (hnot : ¬ needle <+: c :: cs) (offset : Nat) :
    occurrences needle 0 offset (c :: cs) = occurrences needle 0 (offset + c.utf8Size) cs := by
  rw [occurrences, if_neg fun hfound => hnot (List.isPrefixOf_iff_prefix.mp hfound)]

/-- **A search by characters scans the bytes.** -/
theorem scan_occurrences (hne : needle ≠ "") {front s : List Char}
    (htext : text.toList = front ++ s) :
    Scan needle text (bytes front) (occurrences needle.toList 0 (bytes front) s) := by
  have hneedle : needle.toList ≠ [] := fun h => hne (String.toList_eq_nil_iff.mp h)
  induction hlength : s.length using Nat.strongRecOn generalizing front s with
  | ind length ih =>
    by_cases hprefix : needle.toList <+: s
    · have hstands : StandsAt needle text (bytes front) :=
        (standsAt_iff hne htext le_rfl).mpr ⟨[], hprefix, rfl⟩
      obtain ⟨behind, rfl⟩ := hprefix
      have hshorter : behind.length < length := by
        have hpos := List.length_pos_of_ne_nil hneedle
        rw [List.length_append] at hlength
        omega
      rw [← List.append_assoc] at htext
      have hrest := ih behind.length hshorter htext rfl
      rw [bytes_append] at hrest
      rw [occurrences_of_found hneedle]
      refine .found le_rfl hstands (fun place hle hlt => absurd hlt (Nat.not_lt.mpr hle)) ?_
      rw [← bytes_toList]
      exact hrest
    · cases s with
      | nil =>
        refine .done fun place hplace hstands => ?_
        obtain ⟨between, hbetween, -⟩ := (standsAt_iff hne htext hplace).mp hstands
        exact hneedle (List.append_eq_nil_iff.mp (List.prefix_nil.mp hbetween)).2
      | cons c cs =>
        rw [List.append_cons] at htext
        have hrest := ih cs.length (by rw [← hlength]; exact Nat.lt_succ_self _) htext rfl
        have hoffset : bytes (front ++ [c]) = bytes front + c.utf8Size := by
          rw [bytes_append]
          simp [bytes]
        rw [occurrences_of_not_found hprefix, ← hoffset]
        refine hrest.earlier (by omega) fun place hle hlt hstands => ?_
        -- No character begins inside another one.
        rw [List.append_assoc] at htext
        obtain ⟨between, hbetween, rfl⟩ := (standsAt_iff hne htext hle).mp hstands
        cases between with
        | nil => exact hprefix hbetween
        | cons d ds =>
          rw [bytes_cons, (List.cons_prefix_cons.mp hbetween).1] at hlt
          omega

/-! ## What is answered -/

/-- A value in double quotes. -/
def inQuotes (value : String) : String := "\"" ++ value ++ "\""

theorem toList_inQuotes (value : String) : (inQuotes value).toList = quoted value := by
  simp [inQuotes, quoted]

theorem utf8ByteSize_inQuotes (value : String) :
    (inQuotes value).utf8ByteSize = value.utf8ByteSize + 2 := by
  have hquote : "\"".utf8ByteSize = 1 := rfl
  rw [inQuotes, String.utf8ByteSize_append, String.utf8ByteSize_append, hquote]
  omega

theorem inQuotes_ne_empty (value : String) : inQuotes value ≠ "" := by
  intro h
  have hsize := utf8ByteSize_inQuotes value
  rw [h, String.utf8ByteSize_empty] at hsize
  omega

/-- The places at which a text is found in quotes. -/
def quotedPlaces (text value : String) : List Nat := occurrences (quoted value) 0 0 text.toList

theorem scan_quotedPlaces (text value : String) :
    Scan (inQuotes value) text 0 (quotedPlaces text value) := by
  have hscan := scan_occurrences (inQuotes_ne_empty value) (List.nil_append text.toList).symm
  rw [toList_inQuotes] at hscan
  exact hscan

/-- A stretch of a text holds a value, in quotes that are not part of it. -/
structure Holds (text value : String) (s : Span) : Prop where
  inside : s.offset + s.length ≤ text.utf8ByteSize
  starts : (String.Pos.Raw.mk s.offset).IsValid text
  ends : (String.Pos.Raw.mk (s.offset + s.length)).IsValid text
  covers : text.toByteArray.extract s.offset (s.offset + s.length) = value.toByteArray
  opened : 0 < s.offset ∧ StandsAt "\"" text (s.offset - 1)
  closed : StandsAt "\"" text (s.offset + s.length)

/-- The borders of characters are where a text can be cut. -/
theorem isValid_append (before behind : String) :
    (String.Pos.Raw.mk before.utf8ByteSize).IsValid (before ++ behind) :=
  String.Pos.Raw.isValid_iff_exists_append.mpr ⟨before, behind, rfl, rfl⟩

theorem holds_of_standsAt {text value : String} {place : Nat}
    (h : StandsAt (inQuotes value) text place) :
    Holds text value ⟨place + 1, value.utf8ByteSize⟩ := by
  obtain ⟨before, behind, htext, rfl⟩ := h.exists_append (inQuotes_ne_empty value)
  -- The same text, cut at the opening quote, behind it, and at the closing quote.
  have hopening : text = before ++ ("\"" ++ (value ++ "\"" ++ behind)) := by
    rw [htext]
    simp only [inQuotes, String.append_assoc]
  have hvalue : text = (before ++ "\"") ++ (value ++ ("\"" ++ behind)) := by
    rw [hopening]
    simp only [String.append_assoc]
  have hclosing : text = (before ++ "\"" ++ value) ++ ("\"" ++ behind) := by
    rw [hvalue]
    simp only [String.append_assoc]
  have hstart : before.utf8ByteSize + 1 = (before ++ "\"").utf8ByteSize := by
    rw [String.utf8ByteSize_append]
    rfl
  have hend : before.utf8ByteSize + 1 + value.utf8ByteSize =
      (before ++ "\"" ++ value).utf8ByteSize := by
    rw [hstart, String.utf8ByteSize_append (s := before ++ "\"")]
  refine ⟨?inside, ?starts, ?ends, ?covers, ⟨Nat.succ_pos _, ?opened⟩, ?closed⟩
  case inside =>
    show before.utf8ByteSize + 1 + value.utf8ByteSize ≤ text.utf8ByteSize
    rw [hend, hclosing, String.utf8ByteSize_append (t := "\"" ++ behind)]
    exact Nat.le_add_right _ _
  case starts =>
    rw [hstart, hvalue]
    exact isValid_append _ _
  case ends =>
    show (String.Pos.Raw.mk (before.utf8ByteSize + 1 + value.utf8ByteSize)).IsValid text
    rw [hend, hclosing]
    exact isValid_append _ _
  case covers =>
    show StandsAt value text (before.utf8ByteSize + 1)
    rw [hstart, hvalue]
    exact standsAt_append _ _ _
  case opened =>
    show StandsAt "\"" text before.utf8ByteSize
    rw [hopening]
    exact standsAt_append _ _ _
  case closed =>
    show StandsAt "\"" text (before.utf8ByteSize + 1 + value.utf8ByteSize)
    rw [hend, hclosing]
    exact standsAt_append _ _ _

theorem ofQuoted?_eq_some_iff {text value : String} {n : Nat} {s : Span} :
    ofQuoted? text value n = some s ↔
      ∃ place, (quotedPlaces text value)[n]? = some place ∧
        s = ⟨place + 1, value.utf8ByteSize⟩ := by
  rw [ofQuoted?, ← quotedPlaces, Option.map_eq_some_iff]
  simp only [eq_comm]

theorem ofQuoted?_eq_none_iff {text value : String} {n : Nat} :
    ofQuoted? text value n = none ↔ (quotedPlaces text value).length ≤ n := by
  rw [ofQuoted?, ← quotedPlaces, Option.map_eq_none_iff, List.getElem?_eq_none_iff]

/-- Between the ends of two answers there are at least two quotes. -/
theorem end_lt_offset {text value : String} {i j : Nat} {s t : Span} (hij : i < j)
    (hs : ofQuoted? text value i = some s) (ht : ofQuoted? text value j = some t) :
    s.offset + s.length < t.offset := by
  obtain ⟨place, hplace, rfl⟩ := ofQuoted?_eq_some_iff.mp hs
  obtain ⟨place', hplace', rfl⟩ := ofQuoted?_eq_some_iff.mp ht
  obtain ⟨hi, rfl⟩ := List.getElem?_eq_some_iff.mp hplace
  obtain ⟨hj, rfl⟩ := List.getElem?_eq_some_iff.mp hplace'
  have hapart := List.pairwise_iff_getElem.mp (scan_quotedPlaces text value).pairwise i j hi hj hij
  rw [utf8ByteSize_inQuotes] at hapart
  show (quotedPlaces text value)[i] + 1 + value.utf8ByteSize < (quotedPlaces text value)[j] + 1
  omega

/-- The answers to all questions about a value in a text. -/
structure AnswersScan (text value : String) (places : List Nat) : Prop where
  /-- The places are those of the scan of the text from its first byte on. -/
  scanned (places' : List Nat) : Scan (inQuotes value) text 0 places' ↔ places' = places
  none_iff (n : Nat) : ofQuoted? text value n = none ↔ places.length ≤ n
  /-- An answer is what the quotes enclose at the place that was asked for. -/
  answer (n : Nat) (s : Span) (h : ofQuoted? text value n = some s) :
    places[n]? = some (s.offset - 1) ∧ Holds text value s
  /-- Answers come in order, and are apart. -/
  apart (i j : Nat) (s t : Span) (hij : i < j) (hs : ofQuoted? text value i = some s)
    (ht : ofQuoted? text value j = some t) : s.offset + s.length < t.offset

/-- **The search for a value in quotes is a scan of the bytes**: it finds the value as often as the
scan does, each time the bytes of the value and no others, in quotes and between characters. -/
theorem finds_what_is_quoted (text value : String) :
    ∃ places, AnswersScan text value places := by
  have hscan := scan_quotedPlaces text value
  refine ⟨quotedPlaces text value, ?scanned, fun _ => ofQuoted?_eq_none_iff, ?answer,
    fun _ _ _ _ => end_lt_offset⟩
  case scanned =>
    intro places
    exact ⟨fun h => h.unique hscan, fun h => h ▸ hscan⟩
  case answer =>
    intro n s h
    obtain ⟨place, hplace, rfl⟩ := ofQuoted?_eq_some_iff.mp h
    obtain ⟨-, hstands⟩ := hscan.of_mem place (List.mem_of_getElem? hplace)
    exact ⟨hplace, holds_of_standsAt hstands⟩

/-- Quotes that enclose a value have been used, and are not found again; behind a character of two
bytes places are one further than they look. -/
example :
    (List.range 3).map (ofQuoted? "\"\"\"é\"\"\"\"" "") =
      [some ⟨1, 0⟩, some ⟨6, 0⟩, some ⟨8, 0⟩] ∧
    (List.range 2).map (ofQuoted? "\"\"\"\"\"" "\"") = [some ⟨1, 1⟩, none] := by
  decide +kernel

end AnalysisHost.Span
