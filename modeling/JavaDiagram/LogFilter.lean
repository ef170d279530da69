import JavaDiagram.Text.Blank
import JavaDiagram.Text.Digits
import JavaDiagram.Text.Identifier
import JavaDiagram.Text.Lines

/-!
# Log filters

A log filter is a list of directives between commas. A directive is a level, a target, or a target
with a span and fields, and may end with `=` and a level. Several places may hold a filter; the
first that does wins.
-/

namespace JavaDiagram.LogFilter

/-- The names of levels, in any case. A level may also be given by its place, counted from the
quietest. -/
def levels : List String := ["off", "error", "warn", "info", "debug", "trace"]

def isLevel (cs : List Char) : Bool :=
  match Text.count? cs with
  | some n => n < levels.length
  | none => levels.contains (String.ofList (cs.map Char.toLower))

/-- Where in a directive the next character stands. -/
inductive Position where
  | start
  /-- In a level or in a target. -/
  | word
  | span
  | field (isEmpty : Bool)
  | behindFields
  | behindSpan

/-- Whether a character may start a directive without brackets. -/
def startsWord (c : Char) : Bool :=
  Text.isIdentifierPart c || c == '-' || c == ':' || c == '_'

/-- Whether a text goes on as a directive from a position. Blanks around the directive are allowed
only if no level stands in it. -/
def isDirectiveFrom (hasBlanks : Bool) : Position → List Char → Bool
  | .word, [] => true
  | .behindSpan, [] => true
  | _, [] => false
  | .start, c :: rest =>
    if c = '[' then isDirectiveFrom hasBlanks .span rest
    else startsWord c && isDirectiveFrom hasBlanks .word rest
  | .word, c :: rest =>
    if c = '=' then isEndLevel rest
    else isDirectiveFrom hasBlanks (if c = '[' then .span else .word) rest
  | .span, c :: rest =>
    isDirectiveFrom hasBlanks
      (if c = ']' then .behindSpan else if c = '\x7b' then .field true else .span) rest
  | .field isEmpty, c :: rest =>
    if c = '\x7d' then !isEmpty && isDirectiveFrom hasBlanks .behindFields rest
    else isDirectiveFrom hasBlanks (.field false) rest
  | .behindFields, c :: rest => c == ']' && isDirectiveFrom hasBlanks .behindSpan rest
  | .behindSpan, c :: rest => c == '=' && isEndLevel rest
where
  /-- Whether a text ends a directive as its level, which may be left out. -/
  isEndLevel (rest : List Char) : Bool :=
    !hasBlanks && (rest.isEmpty || isLevel rest)

def isDirective (cs : List Char) : Bool :=
  let body := Text.trim cs
  isDirectiveFrom (body.length != cs.length) .start body

/-- Whether a text is a filter. Nothing between two commas is skipped. -/
def isFilter (filter : String) : Bool :=
  (Text.splitOn ',' filter.toList).all fun piece => piece.isEmpty || isDirective piece

/-- The filter if no other is given. -/
def standard : String := "warn"

/-- The first filter that is given, without blanks around it; the standard one if it is blank. -/
def choose (given : List (Option String)) : String :=
  let filter := String.ofList (Text.trim ((given.findSome? id).getD standard).toList)
  if filter.isEmpty then standard else filter

end JavaDiagram.LogFilter
