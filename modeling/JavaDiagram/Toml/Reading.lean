import JavaDiagram.Toml.Scalar

/-!
# Reading TOML documents

A document is read line by line: a line assigns a value to a key or is the header of a section.
Arrays go over lines as they like, inline tables stay on theirs. Values nest to a fixed depth.
-/

namespace JavaDiagram.Toml

open JavaDiagram.Text (Pattern)

/-- Reads from the start of a text; none if nothing fits there. -/
abbrev Reader := StateT (List Char) Option

namespace Reader

/-- Reads by a function from a text to what it found and the rest. -/
def of {α : Type} (read : List Char → Option (α × List Char)) : Reader α := read

def skip (pattern : Pattern) : Reader Unit := fun cs =>
  (pattern cs).map fun n => ((), cs.drop n)

def take (pattern : Pattern) : Reader String := fun cs =>
  (pattern cs).map fun n => (String.ofList (cs.take n), cs.drop n)

/-- Items with separators between them; at least one and at most `most`. A separator without an item
behind it is left. -/
def separatedUpTo {α : Type} (separator : Pattern) (item : Reader α) :
    (most : Nat) → Reader (List α)
  | 0 => failure
  | most + 1 => do
    let first ← item
    (do skip separator; return first :: (← separatedUpTo separator item most)) <|> return [first]

/-- Items with separators between them, at least one. -/
def separated {α : Type} (separator : Pattern) (item : Reader α) : Reader (List α) := do
  separatedUpTo separator item ((← get).length + 1)

end Reader

open Reader

/-- Values and keys nest less deep than this. -/
def depthLimit : Nat := 80

/-- A name of a key: a word, or a string on one line. -/
def name : Reader String :=
  of lineString <|> take (.char isNamePart ++ .run isNamePart)
where
  /-- The characters of a name without quotes. -/
  isNamePart (c : Char) : Bool :=
    c.isAlphanum || c == '_' || c == '-'

def key : Reader (List String) := do
  let names ← separated (.word ".") (do skip spaces; let part ← name; skip spaces; return part)
  if names.length < depthLimit then return names else failure

/-- A key, the sign of equality and a value. -/
def entry (value : Reader Value) : Reader Entry := do
  let path ← key
  skip (.word "=" ++ spaces)
  let v ← value
  skip spaces
  return (path, v)

/-- The items of an array behind its opening bracket. A comma may follow the last. -/
def arrayRest (value : Reader Value) : Reader Value := do
  let item := do skip gap; let v ← value; skip gap; return v
  let items ← separated (.word ",") item <|> pure []
  skip (if items.isEmpty then gap else .optional (.word ",") ++ gap)
  skip (.word "]")
  return .array items

/-- The entries of an inline table behind its opening brace. -/
def tableRest (value : Reader Value) : Reader Value := do
  let entries ← separated (.word ",") (entry value) <|> pure []
  skip (spaces ++ .word "\x7d")
  if areEntriesApart entries then return .table entries else failure

/-- A value that nests at most `depth` deep. -/
def value : (depth : Nat) → Reader Value
  | 0 => of scalar
  | depth + 1 =>
    (do skip (.word "["); arrayRest (value depth)) <|>
      (do skip (.word "\x7b"); tableRest (value depth)) <|> of scalar

/-- A line of a document. -/
inductive Line where
  | entry (entry : Entry)
  | header (path : List String) (isItem : Bool)

def line : Reader Line := do
  let l ←
    (do skip (.word "[["); let path ← key; skip (.word "]]"); return Line.header path true) <|>
      (do skip (.word "["); let path ← key; skip (.word "]"); return Line.header path false) <|>
      (do return Line.entry (← entry (value (depthLimit - 1))))
  skip (spaces ++ .optional comment ++ lineEnd)
  return l

/-- The lines of a document, at most `most`. -/
def linesUpTo : (most : Nat) → Reader (List Line)
  | 0 => failure
  | most + 1 => do
    skip gap
    if (← get).isEmpty then return []
    else return (← line) :: (← linesUpTo most)

/-- The sections of lines, and the entries in front of them. -/
def sectionsOf : List Line → List Entry × List Section
  | [] => ([], [])
  | .entry e :: rest => let (entries, sections) := sectionsOf rest; (e :: entries, sections)
  | .header path isItem :: rest =>
    let (entries, sections) := sectionsOf rest
    ([], ⟨path, isItem, entries⟩ :: sections)

/-- The document that a text holds. A byte order mark in front does not count. -/
def Document.ofText (s : String) : Option Document := do
  let cs := if s.toList.head? == some '\uFEFF' then s.toList.tail else s.toList
  let (found, _) ← (linesUpTo (cs.length + 1)).run cs
  let (entries, sections) := sectionsOf found
  if areEntriesApart entries && sections.all (areEntriesApart ·.entries) then
    return ⟨entries, sections⟩
  else none

end JavaDiagram.Toml
