import JavaDiagram.Text.Blank
import JavaDiagram.Text.Lines

/-!
# Comments

The summary of a documentation comment is what stands before its first block tag, without comment
marks, leading stars and blank lines at either end. In a class block it takes one line of at most 50
characters.
-/

namespace JavaDiagram

/-! ### Summaries -/

namespace Javadoc

/-- Removes every `/**` at the start. -/
def dropDocMarks : List Char → List Char
  | '/' :: '*' :: '*' :: rest => dropDocMarks rest
  | cs => cs

/-- Removes every `/*` at the start. -/
def dropOpenMarks : List Char → List Char
  | '/' :: '*' :: rest => dropOpenMarks rest
  | cs => cs

/-- Removes every `*/` at the end. -/
def dropCloseMarks (cs : List Char) : List Char :=
  (dropReversed cs.reverse).reverse
where
  dropReversed : List Char → List Char
    | '/' :: '*' :: rest => dropReversed rest
    | cs => cs

/-- The text between the marks of a comment. -/
def inner (raw : List Char) : List Char :=
  dropCloseMarks (dropOpenMarks (dropDocMarks (Text.trim raw)))

/-- A line without the stars and blanks around its words. -/
def cleanLine (line : List Char) : List Char :=
  Text.trim ((Text.trim line).dropWhile (· == '*'))

/-- Whether a cleaned line starts a block tag. -/
def isTag (line : List Char) : Bool :=
  line.head? == some '@'

/-- The lines without the empty ones at either end. -/
def dropEmptyEnds (lines : List (List Char)) : List (List Char) :=
  ((lines.dropWhile List.isEmpty).reverse.dropWhile List.isEmpty).reverse

def summaryLines (raw : List Char) : List (List Char) :=
  dropEmptyEnds (((Text.lines (inner raw)).map cleanLine).takeWhile (!isTag ·))

def summary (raw : String) : String :=
  String.ofList (Text.joinWith ['\n'] (summaryLines raw.toList))

end Javadoc

/-! ### One line -/

namespace Comment

/-- The longest comment that is shown whole. -/
def limit : Nat := 50

/-- How many characters are kept of a longer one, in front of three dots. -/
def keep : Nat := 47

/-- A line break becomes a blank. -/
def flatten (c : Char) : Char :=
  if c = '\n' then ' ' else c

/-- A text cut to the limit. -/
def shorten (cs : List Char) : List Char :=
  if limit < cs.length then cs.take keep ++ ['.', '.', '.'] else cs

/-- A comment on one line. -/
def summarize (comment : String) : String :=
  String.ofList ((shorten comment.toList).map flatten)

end Comment

end JavaDiagram
