import JavaDiagram.Text.Search

/-!
# Digits

Digits of several bases, runs of digits that underscores may divide, and the numbers that such runs
stand for. A count is a decimal number that fits a machine word.
-/

namespace JavaDiagram.Text

def isBinaryDigit (c : Char) : Bool := c == '0' || c == '1'

def isOctalDigit (c : Char) : Bool := '0' ≤ c && c ≤ '7'

def isHexDigit (c : Char) : Bool :=
  c.isDigit || ('a' ≤ c && c ≤ 'f') || ('A' ≤ c && c ≤ 'F')

/-- Digits with underscores between them; several underscores may stand together if `repeats`. -/
def digitGroups (isDigit : Char → Bool) (repeats : Bool) : (afterDigit : Bool) → List Char → Nat
  | _, [] => 0
  | afterDigit, c :: rest =>
    if isDigit c then digitGroups isDigit repeats true rest + 1
    else
      let next := if repeats then rest.dropWhile (· == '_') else rest
      if afterDigit && c == '_' && next.head?.any isDigit then
        digitGroups isDigit repeats repeats rest + 1
      else 0

/-- At least one digit, with single underscores between digits. -/
def digits (isDigit : Char → Bool) : Pattern := fun cs =>
  match digitGroups isDigit false false cs with
  | 0 => none
  | n => some n

def digitValue (c : Char) : Nat :=
  if c.isDigit then c.toNat - '0'.toNat
  else if c.isLower then c.toNat - 'a'.toNat + 10
  else c.toNat - 'A'.toNat + 10

/-- The number that digits stand for in a base. Underscores count for nothing. -/
def numeral (base : Nat) (cs : List Char) : Nat :=
  (cs.filter (· != '_')).foldl (fun n c => base * n + digitValue c) 0

/-- The least number that a count cannot be. -/
def countLimit : Nat := 18446744073709551616

/-- A count written as digits, which a plus sign may precede. -/
def count? (cs : List Char) : Option Nat :=
  let body := if cs.head? == some '+' then cs.tail else cs
  let n := numeral 10 body
  if !body.isEmpty && body.all Char.isDigit && n < countLimit then some n else none

end JavaDiagram.Text
