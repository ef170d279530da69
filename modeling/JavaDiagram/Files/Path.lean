import JavaDiagram.Text.Lines

/-!
# Paths as text

A path is a sequence of components between slashes. Empty components and single dots name nothing,
except that a leading dot is kept apart from its absence when paths are compared.
-/

namespace JavaDiagram.Path

/-- A component of a path. -/
inductive Component where
  | root
  | current
  | parent
  | name (text : String)
  deriving DecidableEq, Repr

/-- The components after the first piece. -/
def laterComponent : String → Option Component
  | "" => none
  | "." => none
  | ".." => some .parent
  | text => some (.name text)

def components (path : String) : List Component :=
  match Text.pieces '/' path with
  | [] => []
  | [""] => []
  | "" :: rest => .root :: rest.filterMap laterComponent
  -- A dot counts in front only.
  | "." :: rest => .current :: rest.filterMap laterComponent
  | first => first.filterMap laterComponent

/-- The name that a path ends with, if it ends with one. -/
def fileName (path : String) : Option String :=
  match (components path).getLast? with
  | some (.name text) => some text
  | _ => none

/-- The part of a name after its last dot. A name that only starts with a dot has none. -/
def nameExtension (name : String) : Option String :=
  match (Text.pieces '.' name).reverse with
  | extension :: stem =>
    if stem.isEmpty || stem == [""] then none else some extension
  | [] => none

def extension (path : String) : Option String :=
  (fileName path).bind nameExtension

/-- Whether a path names a Java source. -/
def isJava (path : String) : Bool :=
  extension path == some "java"

/-- The extensions of source archives, in any case. -/
def archiveExtensions : List String := ["zip", "jar"]

def isArchive (path : String) : Bool :=
  match extension path with
  | some e => archiveExtensions.contains (String.ofList (e.toList.map Char.toLower))
  | none => false

/-- A name under a directory. -/
def join (directory name : String) : String :=
  if directory.toList.getLast? == some '/' then directory ++ name else directory ++ "/" ++ name

/-- Whether a piece of a path is no component of its own. -/
def isIdle (piece : String) : Bool :=
  piece == "" || piece == "."

/-- The text of the directory that holds the last component; none if there is no such component.
It is empty for a lone name. -/
def parentText (path : String) : Option String :=
  match Text.pieces '/' path with
  | [] => none
  | first :: rest =>
    match rest.reverse.dropWhile isIdle with
    | _ :: before =>
      let before := (before.dropWhile isIdle).reverse
      if first == "" && before.isEmpty then some "/"
      else some (String.intercalate "/" (first :: before))
    | [] => if first == "" then none else some ""

/-- The place of a component in the order of kinds. -/
def Component.rank : Component → Nat
  | root => 0
  | current => 1
  | parent => 2
  | name _ => 3

/-- Components in order: by kind, then names by code points. -/
def Component.le : Component → Component → Bool
  | name a, name b => a ≤ b
  | a, b => a.rank ≤ b.rank

/-- Component sequences in lexicographic order. -/
def componentsLe : List Component → List Component → Bool
  | [], _ => true
  | _ :: _, [] => false
  | a :: as, b :: bs => if a = b then componentsLe as bs else a.le b

/-- Paths in the order of their components. -/
def le (a b : String) : Bool :=
  componentsLe (components a) (components b)

end JavaDiagram.Path
