import JavaDiagram.Files.FileSystem
import JavaDiagram.Files.IgnoreRules
import JavaDiagram.Text.Utf8

/-!
# Finding Java sources

Scanning a directory finds every Java source below it, hidden ones too, unless an ignore file says
otherwise. A source is left out if it, or a directory between it and the scanned one, is ignored.
The nearest ignore file that decides wins, up to the root of the tree.
-/

namespace JavaDiagram.FileSystem

def ignoreFileName : String := ".ignore"

/-- The rules of the ignore file in a directory. -/
def ignoreRules (files : FileSystem) (directory : Place) : List IgnoreRule :=
  match files.entryAt? (directory ++ [ignoreFileName]) with
  | some (.file content) => IgnoreRule.ofFile (Utf8.decode content)
  | _ => []

/-- Whether what stands at a place is ignored. `up` counts the directories that are still asked, the
nearest first. -/
def isIgnoredWithin (files : FileSystem) (place : Place) (isDirectory : Bool) : (up : Nat) → Bool
  | 0 => false
  | up + 1 =>
    let directory := place.take up
    -- The globs of a file are relative to its own directory.
    let path := String.intercalate "/" (place.drop up)
    match IgnoreRule.decide? (files.ignoreRules directory) path isDirectory with
    | some verdict => verdict == .ignored
    | none => isIgnoredWithin files place isDirectory up

def isIgnored (files : FileSystem) (place : Place) (isDirectory : Bool) : Bool :=
  files.isIgnoredWithin place isDirectory place.length

/-- Whether nothing on the way from a directory down to a file is ignored. -/
def isReached (files : FileSystem) (root place : Place) : Bool :=
  (List.range (place.length - root.length)).all fun i =>
    -- The last one on the way is the file itself.
    let depth := root.length + i + 1
    !files.isIgnored (place.take depth) (depth < place.length)

/-- The path of a place below a directory, written behind the path of that directory. -/
def displayPath (rootPath : String) (root place : Place) : String :=
  (place.drop root.length).foldl Path.join rootPath

/-- The Java sources at or below a path, in the order of their paths. -/
def javaFiles (files : FileSystem) (path : String) : List String :=
  match files.find path with
  | .error _ => []
  | .ok (root, .directory) =>
    let found := files.entries.filterMap fun (place, entry) =>
      match entry with
      | .directory => none
      -- Whether a file can be opened is not asked here.
      | _ =>
        let shown := displayPath path root place
        -- A directory under a long path is not listed.
        if root.isPrefixOf place && !isLongPath (displayPath path root place.dropLast) &&
          Path.isJava shown && files.isReached root place then some shown
        else none
    found.mergeSort Path.le
  | .ok _ => if Path.isJava path then [path] else []

end JavaDiagram.FileSystem
