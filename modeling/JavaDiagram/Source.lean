import JavaDiagram.Archive.Zip
import JavaDiagram.Files.Scan
import JavaDiagram.Hash.Sha256

/-!
# Loading sources

A path given by the user is a directory, which stands for the Java sources below it, an archive,
which stands for its Java entries, or a single source under any name. All paths are loaded in order,
the first that fails ends the loading, and of equal contents the first is kept.

The files of a directory are read at the same time. If several of them cannot be read, it depends on
the schedule which failure is reported.
-/

namespace JavaDiagram

/-- Why a source cannot be loaded. -/
inductive SourceError where
  | file (path : String) (cause : FileError)
  | archive (path : String) (cause : ArchiveError)
  deriving DecidableEq, Repr

namespace SourceError

def message : SourceError → String
  | file path cause => "failed to read " ++ path ++ ": " ++ cause.message
  | archive path cause => "failed to read archive " ++ path ++ ": " ++ cause.message

/-- The message of an error and, if it has a cause of its own, that of the cause. -/
def chain : SourceError → List String
  | file path cause => [message (file path cause), cause.message]
  | archive path cause => [message (archive path cause)]

end SourceError

/-- The Java source that an archive holds under a name. -/
structure ArchiveEntry where
  name : String
  text : String
  deriving DecidableEq, Repr

/-- The error of an entry whose data cannot be used. -/
def EntryDamage.error : EntryDamage → FileError
  | checksum => .badChecksum
  | stream => .badStream

/-- Reads one entry of an archive; none if it is no Java source. -/
def readEntry (path : String) (data : Array UInt8) (entry : Zip.DirectoryEntry) :
    Except SourceError (Option ArchiveEntry) :=
  -- The data of every entry is located, so a damaged header fails the archive under any name.
  match Zip.packedData data entry with
  | .error cause => .error (.archive path cause)
  | .ok packed =>
    if entry.isDirectory || !Path.isJava entry.name then .ok none
    else
      match Zip.unpack entry packed with
      | .error damage => .error (.file path damage.error)
      | .ok content => .ok (some ⟨entry.name, Utf8.decode content.toList⟩)

/-- The Java sources of an archive in archive order. -/
def readArchive (path : String) (data : Array UInt8) : Except SourceError (List ArchiveEntry) := do
  match Zip.directory data with
  | .error cause => .error (.archive path cause)
  | .ok entries => return (← entries.mapM (readEntry path data)).filterMap id

/-- The Java sources of the archive at a path. -/
def FileSystem.archiveEntries (files : FileSystem) (path : String) :
    Except SourceError (List ArchiveEntry) :=
  match files.find path with
  | .error cause => .error (.file path cause)
  | .ok (_, .directory) => .error (.file path .noDevice)
  | .ok (_, .locked cause) => .error (.file path cause)
  | .ok (_, .file content) => readArchive path content.toArray

/-- A source text with the place it came from. -/
structure SourceUnit where
  /-- The path of a file, or that of an archive and the name of an entry. -/
  origin : String
  text : String
  contentHash : String
  deriving DecidableEq, Repr

def SourceUnit.ofText (origin text : String) : SourceUnit :=
  ⟨origin, text, Sha256.hexDigest text⟩

/-- A path that failed to load, with the reason. -/
structure LoadError where
  path : String
  cause : SourceError
  deriving DecidableEq, Repr

/-- The messages of a load error, from the outermost to the first cause. -/
def LoadError.chain (error : LoadError) : List String :=
  ("failed to load " ++ error.path) :: error.cause.chain

/-- The failures among results, in order. -/
def failuresOf {α : Type} (results : List (Except SourceError α)) : List SourceError :=
  results.filterMap fun
    | .ok _ => none
    | .error cause => some cause

/-- Which failure is reported when several files that are read at the same time fail. -/
structure Schedule where
  reported : (first : SourceError) → (others : List SourceError) → SourceError
  isOne : ∀ first others, reported first others ∈ first :: others

namespace Schedule

/-- Files fail in their order. -/
def inOrder : Schedule where
  reported first _ := first
  isOne _ _ := List.mem_cons_self

/-- All results, if there is no failure among them. -/
def collect {α : Type} (schedule : Schedule) (results : List (Except SourceError α)) :
    Except SourceError (List α) :=
  match failuresOf results with
  | [] => .ok (results.filterMap (·.toOption))
  | first :: others => .error (schedule.reported first others)

end Schedule

namespace FileSystem

/-- Reads a single source. -/
def readSource (files : FileSystem) (path : String) : Except SourceError SourceUnit :=
  match files.contentAt path with
  | .error cause => .error (.file path cause)
  | .ok content => .ok (.ofText path (Utf8.decode content))

/-- Reads all that a path stands for. -/
def loadPath (files : FileSystem) (path : String) (schedule : Schedule := .inOrder) :
    Except SourceError (List SourceUnit) := do
  if files.isDirectory path then schedule.collect ((files.javaFiles path).map files.readSource)
  else if Path.isArchive path then
    return (← files.archiveEntries path).map fun entry =>
      .ofText (path ++ "!/" ++ entry.name) entry.text
  -- Any other file that the user names is a source.
  else return [← files.readSource path]

/-- Reads all that a path stands for; a failure names the path. -/
def loadNamed (files : FileSystem) (schedule : Schedule) (path : String) :
    Except LoadError (List SourceUnit) :=
  (files.loadPath path schedule).mapError (LoadError.mk path)

end FileSystem

/-- Keeps the first of all units with equal content. `seen` holds the hashes of those before. -/
def dedupFrom (seen : List String) : List SourceUnit → List SourceUnit
  | [] => []
  | unit :: rest =>
    if unit.contentHash ∈ seen then dedupFrom seen rest
    else unit :: dedupFrom (unit.contentHash :: seen) rest

/-- Keeps the first of all units with equal content. -/
def dedupUnits (units : List SourceUnit) : List SourceUnit :=
  dedupFrom [] units

/-- Loads paths in order. -/
def FileSystem.load (files : FileSystem) (paths : List String) (schedule : Schedule := .inOrder) :
    Except LoadError (List SourceUnit) := do
  return dedupUnits (← paths.mapM (files.loadNamed schedule)).flatten

end JavaDiagram
