import JavaDiagram.Files.Path

/-!
# File trees

A file tree is a table from places to files and directories. A place is the list of names on the way
from the root. A path is followed name by name; each name but the last must lead through a
directory. Paths and names that are too long lead nowhere, and a file may refuse to be opened.
-/

namespace JavaDiagram

/-- Why a file cannot be read or written. -/
inductive FileError where
  | notFound
  | notADirectory
  | isADirectory
  /-- A directory where the bytes of a file were asked for. -/
  | noDevice
  | denied
  | nameTooLong
  /-- The content of a file is no text. -/
  | noText
  /-- The data of an archive entry does not fit its checksum. -/
  | badChecksum
  /-- The data of an archive entry cannot be inflated. -/
  | badStream
  | other (message : String)
  deriving DecidableEq, Repr

def FileError.message : FileError → String
  | notFound => "No such file or directory (os error 2)"
  | notADirectory => "Not a directory (os error 20)"
  | isADirectory => "Is a directory (os error 21)"
  | noDevice => "No such device (os error 19)"
  | denied => "Permission denied (os error 13)"
  | nameTooLong => "File name too long (os error 36)"
  | noText => "stream did not contain valid UTF-8"
  | badChecksum => "Invalid checksum"
  | badStream => "corrupt deflate stream"
  | other message => message

/-- What stands at a place. -/
inductive FileEntry where
  | file (content : List UInt8)
  /-- A file that cannot be opened. -/
  | locked (cause : FileError)
  | directory
  deriving DecidableEq, Repr

/-- The names on the way from the root. -/
abbrev Place := List String

/-- A file tree, and the place from which relative paths start. -/
structure FileSystem where
  workingDirectory : Place := []
  entries : List (Place × FileEntry) := []
  deriving DecidableEq, Repr

namespace FileSystem

/-- The most bytes that a path may have. -/
def maxPathBytes : Nat := 4095

/-- The most bytes that a name may have. -/
def maxNameBytes : Nat := 255

def isLongPath (path : String) : Bool :=
  maxPathBytes < path.utf8ByteSize

def isLongName (name : String) : Bool :=
  maxNameBytes < name.utf8ByteSize

/-- What stands at a place. The root is always a directory. -/
def entryAt? (files : FileSystem) (place : Place) : Option FileEntry :=
  if place = [] then some .directory else files.entries.lookup place

/-- Follows the pieces of a path from a place. -/
def follow (files : FileSystem) (place : Place) : List String → Except FileError Place
  | [] => .ok place
  | piece :: rest =>
    match files.entryAt? place with
    | none => .error .notFound
    | some .directory =>
      -- An idle piece still needs a directory, so `file/.` leads nowhere.
      if piece = "" ∨ piece = "." then files.follow place rest
      else if piece = ".." then files.follow place.dropLast rest
      else if isLongName piece then .error .nameTooLong
      else files.follow (place ++ [piece]) rest
    | some _ => .error .notADirectory

def startOf (files : FileSystem) (path : String) : Place :=
  if Text.pieces '/' path |>.head? |>.any (·.isEmpty) then [] else files.workingDirectory

/-- The place that a path leads to, whether or not anything stands there. -/
def placeOf (files : FileSystem) (path : String) : Except FileError Place :=
  if path.isEmpty then .error .notFound
  else if isLongPath path then .error .nameTooLong
  else files.follow (files.startOf path) (Text.pieces '/' path)

/-- What a path leads to, with its place. -/
def find (files : FileSystem) (path : String) : Except FileError (Place × FileEntry) := do
  let place ← files.placeOf path
  match files.entryAt? place with
  | some entry => return (place, entry)
  | none => .error .notFound

def hasEntry (files : FileSystem) (path : String) : Bool :=
  (files.find path).isOk

def isDirectory (files : FileSystem) (path : String) : Bool :=
  match files.find path with
  | .ok (_, .directory) => true
  | _ => false

/-- The content of the file that a path leads to. -/
def contentAt (files : FileSystem) (path : String) : Except FileError (List UInt8) := do
  match ← files.find path with
  | (_, .file content) => return content
  | (_, .locked cause) => .error cause
  | (_, .directory) => .error .isADirectory

def put (files : FileSystem) (place : Place) (entry : FileEntry) : FileSystem :=
  { files with entries := (place, entry) :: files.entries.filter (·.1 != place) }

/-- Follows pieces from a place and creates the directories that are absent. A failure comes with
the tree as it is left then, for what was created before stays. -/
def createFrom (place : Place) :
    List String → FileSystem → Except (FileError × FileSystem) FileSystem
  | [], files => .ok files
  | piece :: rest, files =>
    -- Unlike in `follow`, an idle piece asks for nothing.
    if piece = "" ∨ piece = "." then createFrom place rest files
    else if piece = ".." then createFrom place.dropLast rest files
    else if isLongName piece then .error (.nameTooLong, files)
    else
      let next := place ++ [piece]
      match files.entryAt? next with
      | some .directory => createFrom next rest files
      | some _ => .error (.notADirectory, files)
      | none => createFrom next rest (files.put next .directory)

/-- Creates the directory at a path and those on the way to it. -/
def createDirectories (files : FileSystem) (path : String) :
    Except (FileError × FileSystem) FileSystem :=
  if isLongPath path then .error (.nameTooLong, files)
  else createFrom (files.startOf path) (Text.pieces '/' path) files

/-- Writes a file in a directory that is there. -/
def writeFile (files : FileSystem) (path : String) (content : List UInt8) :
    Except FileError FileSystem := do
  let place ← files.placeOf path
  let parent := place.dropLast
  -- What stands in the place of the file is reported first.
  match files.entryAt? parent, files.entryAt? place with
  | _, some .directory => .error .isADirectory
  | _, some (.locked cause) => .error cause
  | some .directory, _ => return files.put place (.file content)
  | some _, _ => .error .notADirectory
  | none, _ => .error .notFound

end FileSystem

end JavaDiagram
