import AnalysisHost.CommandLine.Effect

/-!
# The program

Looks at the files that a command may touch, carries the command out on them as values, and then
prints what it prints and writes what it has changed.
-/

namespace AnalysisHost

/-- The name by which the operating system knows a location. -/
def systemPath (location : Location) : String := "/" ++ "/".intercalate location

/-- What the operating system has under a name. What is there but cannot be read counts as a
directory. -/
def look (name : String) : IO (Option FileEntry) := do
  try
    return some (.file (String.fromUTF8? (← IO.FS.readBinFile name)))
  catch
    | .noFileOrDirectory _ _ _ => return none
    | _ => return some .directory

/-- Look at a location, unless it is known already or what is above it is no directory. -/
def survey (files : Files) (location : Location) : IO Files := do
  if (files.at? location).isSome || files.at? location.dropLast != some .directory then
    return files
  match ← look (systemPath location) with
  | some entry => return files.set location entry
  | none => return files

/-- The files that some paths lead to or through. -/
def surveyAll (paths : List String) : IO Files := do
  let current := Files.Path.ofString (toString (← IO.currentDir))
  let files : Files := { current := current.components }
  (paths.flatMap files.locations).foldlM survey files

def save (before after : Files) : IO Unit := do
  for (location, entry) in after.entries do
    if before.at? location != some entry then
      let name := systemPath location
      match entry with
      | .directory => IO.FS.createDirAll name
      | .file (some text) => IO.FS.writeFile name text
      | .file none => pure ()

/-- The paths that arguments make the program touch. -/
def touched (args : List String) : List String :=
  match CommandLine.parse args with
  | .ok (.command c) => c.paths
  | _ => []

end AnalysisHost

def main (args : List String) : IO UInt32 := do
  let files ← AnalysisHost.surveyAll (AnalysisHost.touched args)
  let effect := AnalysisHost.CommandLine.perform args files
  AnalysisHost.save files effect.files
  IO.print effect.stdout
  IO.eprint effect.stderr
  return UInt32.ofNat effect.exit
