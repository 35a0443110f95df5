import AnalysisHost.Text.Split

/-!
# Files

A small file system: a tree of files and directories, a working directory in it, and the operations
that a run needs — read a text, make a directory and those above it, write a file.

A path is walked component by component, as the operating system does it, so each step can fail: a
component may be missing, may be a file where a directory is needed, or may be too long. A relative
path is walked from the working directory, an absolute one from the root.
-/

namespace AnalysisHost

/-- Why the operating system refuses a request. -/
inductive FileError where
  | notFound
  | exists
  | notDirectory
  | isDirectory
  | nameTooLong
  | nulCharacter
  deriving DecidableEq, Repr

def FileError.message : FileError → String
  | notFound => "No such file or directory (os error 2)"
  | .exists => "File exists (os error 17)"
  | notDirectory => "Not a directory (os error 20)"
  | isDirectory => "Is a directory (os error 21)"
  | nameTooLong => "File name too long (os error 36)"
  | nulCharacter => "file name contained an unexpected NUL byte"

/-- What a path can name. -/
inductive FileEntry where
  /-- A file, with its text; the bytes of a file without one are no text. -/
  | file (text? : Option String)
  | directory
  deriving DecidableEq, Repr

/-- The names on the way from the root to an entry. -/
abbrev Location := List String

/-- The tree of files. The root and the working directory are there without an entry. -/
structure Files where
  /-- The working directory. -/
  current : Location := []
  entries : List (Location × FileEntry) := []
  deriving DecidableEq, Repr

namespace Files

/-! ### Entries -/

/-- What is at a location. -/
def at? (files : Files) (location : Location) : Option FileEntry :=
  if location.isPrefixOf files.current then some .directory else files.entries.lookup location

def set (files : Files) (location : Location) (entry : FileEntry) : Files :=
  { files with
    entries := files.entries.filter (fun e => decide (e.1 ≠ location)) ++ [(location, entry)] }

/-- The directories above a location, the root excepted. -/
def ancestors : Location → List Location
  | [] => []
  | [_] => []
  | name :: names => [name] :: (ancestors names).map (name :: ·)

/-- Put an entry at a location, and directories above it where there is nothing. -/
def install (files : Files) (location : Location) (entry : FileEntry) : Files :=
  let files := (ancestors location).foldl
    (fun files l => if (files.at? l).isSome then files else files.set l .directory) files
  files.set location entry

/-! ### Walking a path -/

/-- A path, cut at its slashes. -/
structure Path where
  absolute : Bool
  components : List String
  /-- Whether the path ends in a slash, and so asks for a directory. -/
  trailingSlash : Bool
  deriving DecidableEq, Repr

def Path.ofString (path : String) : Path where
  absolute := path.toList.head? == some '/'
  components := ((Text.segments '/' path.toList).filter (!·.isEmpty)).map String.ofList
  trailingSlash := path.toList.getLast? == some '/'

/-- The longest path that the operating system takes, in bytes. -/
def maxPathBytes : Nat := 4095

/-- The longest file name that the operating system takes, in bytes. -/
def maxNameBytes : Nat := 255

/-- Refuse what can be no path at all. -/
def checkPath (path : String) : Except FileError Path :=
  if path.toList.contains '\x00' then .error .nulCharacter
  else if path.isEmpty then .error .notFound
  else if path.utf8ByteSize > maxPathBytes then .error .nameTooLong
  else .ok (.ofString path)

/-- Go one step, from a directory to a directory. Above the root there is the root. -/
def enter (files : Files) (location : Location) (name : String) : Except FileError Location :=
  if name = "." then .ok location
  else if name = ".." then .ok location.dropLast
  else if name.utf8ByteSize > maxNameBytes then .error .nameTooLong
  else
    match files.at? (location ++ [name]) with
    | none => .error .notFound
    | some (.file _) => .error .notDirectory
    | some .directory => .ok (location ++ [name])

/-- Walk from where a path begins along the directories that `names` name. -/
def walk (files : Files) (absolute : Bool) (names : List String) : Except FileError Location :=
  names.foldlM (enter files) (if absolute then [] else files.current)

/-- Where a step leads if nothing stands in its way. -/
def step (location : Location) (name : String) : Location :=
  if name = "." then location else if name = ".." then location.dropLast else location ++ [name]

/-- The locations that a path leads through, in order, if nothing stands in its way. -/
def locations (files : Files) (path : String) : List Location :=
  let path := Path.ofString path
  let start := if path.absolute then [] else files.current
  (List.range path.components.length).map fun n =>
    (path.components.take (n + 1)).foldl step start

/-- Whether a path names a directory. -/
def isDirectory (files : Files) (path : Path) : Bool :=
  match files.walk path.absolute path.components with
  | .ok _ => true
  | .error _ => false

/-! ### Reading -/

/-- The text of the file that a path names. There is none if the walk fails, if it ends at a
directory, or if the bytes are no text. -/
def readText? (files : Files) (path : String) : Option String := do
  let path ← (checkPath path).toOption
  let name ← path.components.getLast?
  if path.trailingSlash || name = "." || name = ".." then none
  else
    let location ← (files.walk path.absolute path.components.dropLast).toOption
    match files.at? (location ++ [name]) with
    | some (.file text?) => text?
    | _ => none

/-! ### Making directories -/

def makeDirectory (files : Files) (path : Path) : Except FileError Files := do
  match path.components.getLast? with
  | none => .error .exists
  | some name =>
    let location ← files.walk path.absolute path.components.dropLast
    if name = "." || name = ".." then .error .exists
    else if name.utf8ByteSize > maxNameBytes then .error .nameTooLong
    else
      match files.at? (location ++ [name]) with
      | some _ => .error .exists
      | none => .ok (files.set (location ++ [name]) .directory)

/-- Make one directory, or be content with one that is there already. -/
def ensureDirectory (files : Files) (path : Path) : Except FileError Unit × Files :=
  match files.makeDirectory path with
  | .ok files => (.ok (), files)
  | .error e => (if files.isDirectory path then .ok () else .error e, files)

/-- Make one directory. If what it is to be in is missing, make that first and try again. -/
def ensureBelow (makeAbove : Files → Except FileError Unit × Files) (files : Files) (path : Path) :
    Except FileError Unit × Files :=
  match files.ensureDirectory path with
  | (.ok (), files) => (.ok (), files)
  | (.error e, files) =>
    if e = .notFound then
      match makeAbove files with
      | (.ok (), files) => files.ensureDirectory path
      | (.error e, files) => (.error e, files)
    else (.error e, files)

/-- The components of a path without those that stay in place, except at the front. -/
def plainComponents : List String → List String
  | [] => []
  | name :: names => name :: names.filter fun n => decide (n ≠ ".")

/-- Make a directory, and before it the ones above it that are missing. The components come last one
first. -/
def makeAll (absolute : Bool) : List String → Files → Except FileError Unit × Files
  | [], files => (.ok (), files)
  | name :: above, files =>
    files.ensureBelow (makeAll absolute above) ⟨absolute, (name :: above).reverse, false⟩

/-- Make the directory that a path names, and those above it. The empty path names the working
directory. Directories that were made stay, even if the last one cannot be made. -/
def createDirectories (files : Files) (path : String) : Except FileError Unit × Files :=
  if path.isEmpty then (.ok (), files)
  else
    match checkPath path with
    | .error e => (.error e, files)
    | .ok path =>
      files.ensureBelow (makeAll path.absolute (plainComponents path.components).dropLast.reverse)
        path

/-! ### Writing -/

/-- Write a text to the file that a path names, in place of what the file held. -/
def write (files : Files) (path text : String) : Except FileError Files := do
  let path ← checkPath path
  match path.components.getLast? with
  | none => .error .isDirectory
  | some name =>
    let location ← files.walk path.absolute path.components.dropLast
    if path.trailingSlash || name = "." || name = ".." then .error .isDirectory
    else if name.utf8ByteSize > maxNameBytes then .error .nameTooLong
    else
      match files.at? (location ++ [name]) with
      | some .directory => .error .isDirectory
      | _ => .ok (files.set (location ++ [name]) (.file (some text)))

/-- The path of a file in the directory that a path names. -/
def inDirectory (directory name : String) : String :=
  if directory.isEmpty || directory.toList.getLast? == some '/' then directory ++ name
  else directory ++ "/" ++ name

end Files

end AnalysisHost
