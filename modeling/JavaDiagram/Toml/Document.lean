/-!
# TOML documents

A document assigns values to keys, first on its own and then section by section. A key is a path of
names. Of two keys of one section neither may lead into the other, since each holds a value.
-/

namespace JavaDiagram.Toml

/-- A value. The entries of a table keep the paths they were written with. -/
inductive Value where
  | text (s : String)
  | integer (n : Int)
  | boolean (b : Bool)
  /-- A fraction, a date or a time. -/
  | measure (s : String)
  | array (items : List Value)
  | table (entries : List (List String × Value))
  deriving Repr

/-- A path with the value it holds. -/
abbrev Entry := List String × Value

/-- The entries behind a header. -/
structure Section where
  path : List String
  /-- Whether the header adds an item to a list of sections. -/
  isItem : Bool
  entries : List Entry
  deriving Repr

/-- The entries in front of all headers, and the sections. -/
structure Document where
  entries : List Entry := []
  sections : List Section := []
  deriving Repr

/-- Whether neither of two paths leads into the other. -/
def arePathsApart (p q : List String) : Bool :=
  !p.isPrefixOf q && !q.isPrefixOf p

/-- Whether no path of the entries leads into another. -/
def areEntriesApart : List Entry → Bool
  | [] => true
  | (path, _) :: rest => rest.all (fun other => arePathsApart path other.1) && areEntriesApart rest

end JavaDiagram.Toml
