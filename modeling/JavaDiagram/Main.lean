import JavaDiagram.Program

/-!
# The command line tool

Records the part of the file system that the arguments name, runs the program on the record, and
stores the files that the run has changed.
-/

namespace JavaDiagram

def pathOf (place : Place) : String :=
  "/" ++ String.intercalate "/" place

/-- The names on the way from the root to the working directory. -/
def currentPlace : IO Place := do
  return (← IO.currentDir).components.filter (!·.isEmpty)

/-- Why a file could not be opened. -/
def refusal : IO.Error → FileError
  | .permissionDenied .. => .denied
  | error => .other (toString error)

/-- Records what stands at a place. -/
def recordPlace (files : FileSystem) (place : Place) : IO FileSystem := do
  let path := (← IO.currentDir) / pathOf place
  if ← path.isDir then return files.put place .directory
  else if ← path.pathExists then
    match ← (IO.FS.readBinFile path).toBaseIO with
    | .ok content => return files.put place (.file content.toList)
    | .error error => return files.put place (.locked (refusal error))
  else return files

/-- Records what stands at a place, and the ignore file in it. -/
def recordStep (files : FileSystem) (place : Place) : IO FileSystem := do
  recordPlace (← recordPlace files place) (place ++ [FileSystem.ignoreFileName])

/-- Records what a path leads through. Gives the place at its end. -/
def recordPath (files : FileSystem) (path : String) : IO (FileSystem × Place) := do
  let mut found := files
  let mut place := files.startOf path
  found ← recordStep found place
  for piece in Text.pieces '/' path do
    place :=
      if piece = "" ∨ piece = "." then place
      else if piece = ".." then place.dropLast
      else place ++ [piece]
    found ← recordStep found place
  return (found, place)

/-- Records all that stands at a place and below it, but follows no links. -/
partial def recordTree (files : FileSystem) (place : Place) : IO FileSystem := do
  let path := (← IO.currentDir) / pathOf place
  let mut found ← recordPlace files place
  if ← path.isDir then
    for entry in ← path.readDir do
      if (← entry.path.symlinkMetadata).type != .symlink then
        found ← recordTree found (place ++ [entry.fileName])
  return found

/-- Records the files that an invocation may read or write. -/
def recordFor (environment : Environment) (invocation : CommandLine.Invocation) :
    IO FileSystem := do
  let start ← currentPlace
  let mut files : FileSystem := ⟨start, []⟩
  for depth in List.range (start.length + 1) do
    files ← recordStep files (start.take depth)
  let named := [invocation.config, environment.lookup configVariable, environment.userConfig?,
    invocation.output]
  for path in named.filterMap id do
    files := (← recordPath files path).1
  for path in invocation.paths do
    let (found, place) ← recordPath files path
    files ← recordTree found place
  return files

/-- Stores what differs between two file trees. -/
def store (before after : FileSystem) : IO Unit := do
  for (place, entry) in after.entries.reverse do
    if before.entryAt? place != some entry then
      match entry with
      | .directory => IO.FS.createDirAll (pathOf place)
      | .file content => IO.FS.writeBinFile (pathOf place) ⟨content.toArray⟩
      -- A run locks nothing.
      | .locked _ => return

/-- The environment variables that a run looks at. -/
def readEnvironment : IO Environment := do
  let mut environment : Environment := []
  for name in Environment.names do
    if let some value ← IO.getEnv name then
      environment := (name, value) :: environment
  return environment

def runOnFiles (args : List String) : IO UInt32 := do
  let environment ← readEnvironment
  let invocation := (CommandLine.read args).toOption
  let files ← (invocation.mapM (recordFor environment) : IO (Option FileSystem))
  let before := files.getD {}
  let outcome := run args environment before
  if (invocation.bind (·.output)).isSome then store before outcome.files
  IO.print outcome.output
  IO.eprint outcome.report
  return outcome.status.toUInt32

end JavaDiagram

def main (args : List String) : IO UInt32 :=
  JavaDiagram.runOnFiles args
