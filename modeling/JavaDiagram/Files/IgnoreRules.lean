import JavaDiagram.Files.Glob
import JavaDiagram.Text.Blank
import JavaDiagram.Text.Lines
import JavaDiagram.Text.Search

/-!
# Ignore rules

An ignore file has one rule a line: a glob for paths relative to its directory. Of the rules that
fit a path the last one decides. A rule behind `!` takes paths back in; a rule with a slash at its
end is for directories alone; a glob without any other slash fits at every depth.
-/

namespace JavaDiagram

/-- A rule of an ignore file. -/
structure IgnoreRule where
  globs : List (List Glob.Token)
  takesIn : Bool
  onlyDirectories : Bool
  deriving DecidableEq, Repr

/-- What a rule decides about a path. -/
inductive IgnoreVerdict where
  | ignored
  | takenIn
  deriving DecidableEq, Repr

namespace IgnoreRule

def endsWith (cs suffix : List Char) : Bool :=
  suffix.reverse.isPrefixOf cs.reverse

/-- Removes the slash at the end, and a backslash in front of it. -/
def dropSlash (cs : List Char) : List Char :=
  let body := cs.dropLast
  if endsWith body ['\\'] then body.dropLast else body

/-- The glob for all paths that a rule's glob is meant to fit. -/
def anywhere (isAnchored : Bool) (glob : List Char) : List Char :=
  let glob :=
    if isAnchored || glob.contains '/' || glob == ['*', '*'] then glob
    else ['*', '*', '/'] ++ glob
  -- All that is below a directory, but not the directory itself.
  if endsWith glob ['/', '*', '*'] then glob ++ ['/', '*'] else glob

/-- A rule from a line that is neither blank nor a comment. -/
def ofText (cs : List Char) : Option IgnoreRule :=
  let (takesIn, isAnchored, body) :=
    match cs with
    -- Behind a backslash a mark is a part of the glob.
    | '\\' :: '!' :: rest => (false, false, '!' :: rest)
    | '\\' :: '#' :: rest => (false, false, '#' :: rest)
    | '!' :: '/' :: rest => (true, true, rest)
    | '!' :: rest => (true, false, rest)
    | '/' :: rest => (false, true, rest)
    | _ => (false, false, cs)
  let onlyDirectories := endsWith body ['/']
  let glob := if onlyDirectories then dropSlash body else body
  (Glob.compile (anywhere isAnchored glob)).map fun globs => ⟨globs, takesIn, onlyDirectories⟩

/-- The rule of a line, if it holds one. Blanks at its end do not count unless the last is
escaped. -/
def ofLine (line : List Char) : Option IgnoreRule :=
  let text := if endsWith line ['\\', ' '] then line else Text.trimEnd line
  if text.isEmpty || line.head? == some '#' then none else ofText text

def ofFile (content : String) : List IgnoreRule :=
  let cs := content.toList
  let cs := if cs.head? == some '\uFEFF' then cs.tail else cs
  (Text.lines cs).filterMap ofLine

/-- What a rule decides about a path, if it fits. -/
def verdict? (rule : IgnoreRule) (path : String) (isDirectory : Bool) : Option IgnoreVerdict :=
  if (rule.onlyDirectories && !isDirectory) || !Glob.fitsPath rule.globs path then none
  else if rule.takesIn then some .takenIn
  else some .ignored

/-- What rules decide about a path: the last rule that fits. -/
def decide? (rules : List IgnoreRule) (path : String) (isDirectory : Bool) :
    Option IgnoreVerdict :=
  rules.reverse.findSome? (·.verdict? path isDirectory)

end IgnoreRule

end JavaDiagram
