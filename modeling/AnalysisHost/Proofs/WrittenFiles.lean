import AnalysisHost.Files

/-!
# Reading what has been written

A file that has been written can be read: the new entry hides no directory on the way to it, as
there was none in its place (`readText?_write`). To make directories writes nothing, whether it goes
through or not: the files are the same, with the same texts (`sameFiles_createDirectories`).
-/

namespace AnalysisHost

namespace Files

variable {files : Files}

theorem lookup_filter_ne (entries : List (Location × FileEntry)) {a b : Location}
    (h : b ≠ a) : (entries.filter fun e => decide (e.1 ≠ a)).lookup b = entries.lookup b := by
  induction entries with
  | nil => rfl
  | cons e es ih =>
    by_cases hk : e.1 = a
    · have hb : (b == e.1) = false := by simpa [hk] using h
      rw [List.filter_cons_of_neg (by simpa using hk), ih, List.lookup_cons, hb]
    · rw [List.filter_cons_of_pos (by simpa using hk), List.lookup_cons, List.lookup_cons, ih]

theorem lookup_filter_self (entries : List (Location × FileEntry)) (a : Location) :
    (entries.filter fun e => decide (e.1 ≠ a)).lookup a = none := by
  rw [List.lookup_eq_none_iff]
  intro e he
  have hne : e.1 ≠ a := of_decide_eq_true (List.mem_filter.mp he).2
  simpa using hne.symm

/-- A new entry is seen in its own place only. -/
theorem at?_set_of_ne {l target : Location} (h : l ≠ target) (entry : FileEntry) :
    (files.set target entry).at? l = files.at? l := by
  rw [at?, at?]
  show (if l.isPrefixOf files.current then _ else List.lookup l (_ ++ _)) = _
  split
  · rfl
  · have hentry : [(target, entry)].lookup l = none := by simpa using h
    rw [List.lookup_append, lookup_filter_ne _ h, hentry, Option.or_none]

/-- A new entry hides no directory, where there was none. -/
theorem at?_set_of_directory {l target : Location} {entry : FileEntry}
    (h : files.at? l = some .directory) (hfree : files.at? target ≠ some .directory) :
    (files.set target entry).at? l = some .directory := by
  have hne : l ≠ target := by
    rintro rfl
    exact hfree h
  rw [at?_set_of_ne hne, h]

theorem at?_set_self {target : Location} {entry : FileEntry}
    (hfree : files.at? target ≠ some .directory) :
    (files.set target entry).at? target = some entry := by
  rw [at?] at hfree ⊢
  split at hfree
  · exact absurd rfl hfree
  · rename_i hprefix
    show (if target.isPrefixOf files.current then _ else List.lookup target (_ ++ _)) = _
    rw [if_neg hprefix, List.lookup_append, lookup_filter_self, List.lookup_cons_self]
    rfl

/-- A step that goes through still does where every directory is still there. -/
theorem enter_of_directories {files' : Files} {location l : Location} {name : String}
    (hkept : ∀ l, files.at? l = some .directory → files'.at? l = some .directory)
    (h : files.enter location name = .ok l) : files'.enter location name = .ok l := by
  unfold enter at h ⊢
  split
  · rename_i hdot
    rw [if_pos hdot] at h
    exact h
  · rename_i hdot
    rw [if_neg hdot] at h
    split
    · rename_i hup
      rw [if_pos hup] at h
      exact h
    · rename_i hup
      rw [if_neg hup] at h
      split
      · rename_i hlong
        rw [if_pos hlong] at h
        cases h
      · rename_i hlong
        rw [if_neg hlong] at h
        split at h
        · cases h
        · cases h
        · rename_i hentry
          rw [hkept _ hentry]
          exact h

/-- And so does a walk. -/
theorem walk_of_directories {files' : Files} (hcurrent : files'.current = files.current)
    (hkept : ∀ l, files.at? l = some .directory → files'.at? l = some .directory)
    {absolute : Bool} {names : List String} {location : Location}
    (h : files.walk absolute names = .ok location) : files'.walk absolute names = .ok location := by
  have hfold : ∀ (names : List String) (start : Location),
      names.foldlM (enter files) start = .ok location →
        names.foldlM (enter files') start = .ok location := by
    intro names
    induction names with
    | nil => exact fun _ h => h
    | cons name names ih =>
      intro start h
      rw [List.foldlM_cons] at h ⊢
      cases hstep : files.enter start name with
      | error e =>
        rw [hstep] at h
        cases h
      | ok next =>
        rw [hstep] at h
        rw [enter_of_directories hkept hstep]
        exact ih next h
  rw [walk, hcurrent]
  exact hfold names _ h

/-- A walk does not meet an entry that is made where there was no directory. -/
theorem walk_set {absolute : Bool} {names : List String} {location target : Location}
    {entry : FileEntry} (h : files.walk absolute names = .ok location)
    (hfree : files.at? target ≠ some .directory) :
    (files.set target entry).walk absolute names = .ok location := by
  have hcurrent : (files.set target entry).current = files.current := rfl
  exact walk_of_directories hcurrent (fun _ hl => at?_set_of_directory hl hfree) h

/-- What it takes to write a file. -/
theorem write_eq_ok {files' : Files} {path text : String} (h : files.write path text = .ok files') :
    ∃ checked name location, checkPath path = .ok checked ∧
      checked.components.getLast? = some name ∧
      files.walk checked.absolute checked.components.dropLast = .ok location ∧
      (checked.trailingSlash || name = "." || name = "..") = false ∧
      files.at? (location ++ [name]) ≠ some .directory ∧
      files' = files.set (location ++ [name]) (.file (some text)) := by
  unfold write at h
  cases hpath : checkPath path with
  | error e =>
    rw [hpath] at h
    cases h
  | ok checked =>
    rw [hpath] at h
    simp only [bind, Except.bind] at h
    cases hlast : checked.components.getLast? with
    | none =>
      rw [hlast] at h
      cases h
    | some name =>
      rw [hlast] at h
      dsimp only at h
      cases hwalk : files.walk checked.absolute checked.components.dropLast with
      | error e =>
        rw [hwalk] at h
        cases h
      | ok location =>
        rw [hwalk] at h
        dsimp only at h
        split at h
        · cases h
        · next hname =>
          split at h
          · cases h
          · split at h
            · cases h
            · next hfree =>
              cases h
              exact ⟨checked, name, location, rfl, hlast, hwalk, Bool.not_eq_true _ ▸ hname,
                hfree, rfl⟩

/-- **What is written can be read.** -/
theorem readText?_write {files' : Files} {path text : String}
    (h : files.write path text = .ok files') : files'.readText? path = some text := by
  obtain ⟨checked, name, location, hpath, hlast, hwalk, hname, hfree, rfl⟩ := write_eq_ok h
  simp only [readText?, hpath, Except.toOption, bind, Option.bind, hlast, hname,
    walk_set hwalk hfree, at?_set_self hfree, Bool.false_eq_true, if_false]

/-! ## Making directories -/

/-- Two states have the same files, with the same texts. In the second there may be more
directories. -/
structure SameFiles (files files' : Files) : Prop where
  current : files'.current = files.current
  directories : ∀ location, files.at? location = some .directory →
    files'.at? location = some .directory
  texts : ∀ location text?, files'.at? location = some (.file text?) ↔
    files.at? location = some (.file text?)

theorem SameFiles.refl (files : Files) : files.SameFiles files where
  current := rfl
  directories _ h := h
  texts _ _ := Iff.rfl

theorem SameFiles.trans {files' files'' : Files} (h : files.SameFiles files')
    (h' : files'.SameFiles files'') : files.SameFiles files'' where
  current := h'.current.trans h.current
  directories location hlocation := h'.directories location (h.directories location hlocation)
  texts location text? := (h'.texts location text?).trans (h.texts location text?)

/-- What can be read in the first of them can be read in the second. -/
theorem SameFiles.readText?_eq_some {files' : Files} (h : files.SameFiles files')
    {path text : String} (htext : files.readText? path = some text) :
    files'.readText? path = some text := by
  unfold readText? at htext ⊢
  simp only [bind, Option.bind] at htext ⊢
  cases hpath : (checkPath path).toOption with
  | none =>
    rw [hpath] at htext
    cases htext
  | some checked =>
    rw [hpath] at htext
    dsimp only at htext ⊢
    cases hlast : checked.components.getLast? with
    | none =>
      rw [hlast] at htext
      cases htext
    | some name =>
      rw [hlast] at htext
      dsimp only at htext ⊢
      split at htext
      · cases htext
      · next hname =>
        rw [if_neg hname]
        cases hwalk : files.walk checked.absolute checked.components.dropLast with
        | error e =>
          rw [hwalk] at htext
          cases htext
        | ok location =>
          rw [hwalk] at htext
          rw [walk_of_directories h.current h.directories hwalk]
          dsimp only [Except.toOption] at htext ⊢
          split at htext
          · next text? hentry =>
            rw [(h.texts _ _).mpr hentry]
            exact htext
          · cases htext

theorem sameFiles_set_directory {target : Location} (h : files.at? target = none) :
    files.SameFiles (files.set target .directory) := by
  have hfree : files.at? target ≠ some .directory := by
    rw [h]
    exact nofun
  refine ⟨rfl, fun location hlocation => at?_set_of_directory hlocation hfree, ?_⟩
  intro location text?
  by_cases hlocation : location = target
  · rw [hlocation, at?_set_self hfree, h]
    simp
  · rw [at?_set_of_ne hlocation]

theorem sameFiles_makeDirectory {files' : Files} {path : Path}
    (h : files.makeDirectory path = .ok files') : files.SameFiles files' := by
  unfold makeDirectory at h
  split at h
  · cases h
  · next name _ =>
    cases hwalk : files.walk path.absolute path.components.dropLast with
    | error e =>
      rw [hwalk] at h
      cases h
    | ok location =>
      rw [hwalk] at h
      simp only [bind, Except.bind] at h
      split at h
      · cases h
      · split at h
        · cases h
        · split at h
          · cases h
          · next hnone =>
            cases h
            exact sameFiles_set_directory hnone

theorem sameFiles_ensureDirectory (files : Files) (path : Path) :
    files.SameFiles (files.ensureDirectory path).2 := by
  unfold ensureDirectory
  split
  · next files' hmake => exact sameFiles_makeDirectory hmake
  · exact SameFiles.refl files

theorem sameFiles_ensureBelow {makeAbove : Files → Except FileError Unit × Files}
    (habove : ∀ files : Files, files.SameFiles (makeAbove files).2) (files : Files) (path : Path) :
    files.SameFiles (files.ensureBelow makeAbove path).2 := by
  have hfirst := files.sameFiles_ensureDirectory path
  unfold ensureBelow
  rcases hensure : files.ensureDirectory path with ⟨e | _, files'⟩
  · rw [hensure] at hfirst
    dsimp only
    split
    · -- Only what is above is missing, so that is made, and then there is a second attempt.
      have hsecond := habove files'
      rcases hmake : makeAbove files' with ⟨e' | _, files''⟩
      · rw [hmake] at hsecond
        exact hfirst.trans hsecond
      · rw [hmake] at hsecond
        exact (hfirst.trans hsecond).trans (files''.sameFiles_ensureDirectory path)
    · exact hfirst
  · rw [hensure] at hfirst
    exact hfirst

theorem sameFiles_makeAll (absolute : Bool) (names : List String) (files : Files) :
    files.SameFiles (makeAll absolute names files).2 := by
  induction names generalizing files with
  | nil => exact SameFiles.refl files
  | cons name above ih => exact sameFiles_ensureBelow ih files _

/-- **To make directories writes no file**, even if not all of them can be made. -/
theorem sameFiles_createDirectories (files : Files) (path : String) :
    files.SameFiles (files.createDirectories path).2 := by
  unfold createDirectories
  split
  · exact SameFiles.refl files
  · split
    · exact SameFiles.refl files
    · next checked _ => exact sameFiles_ensureBelow (sameFiles_makeAll _ _) files checked

end Files
end AnalysisHost
