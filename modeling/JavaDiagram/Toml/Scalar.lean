import JavaDiagram.Text.Digits
import JavaDiagram.Toml.Document

/-!
# Scalar values of TOML

Strings, numbers, dates and truth values. A string stands between quotes: with `"` a backslash
starts an escape, with `'` every character stands for itself. Three quotes start a block, which may
span lines. Numbers, dates and truth values are cut out by patterns, the longest of which counts.
-/

namespace JavaDiagram.Toml

open JavaDiagram.Text (Pattern numeral digits isHexDigit)

/-! ### Blanks, line ends and comments -/

def isSpace (c : Char) : Bool := c == ' ' || c == '\t'

/-- Whether a character may stand in a comment or in a string: no control character but the tab. -/
def isPrintable (c : Char) : Bool :=
  c == '\t' || (' ' ≤ c && c.toNat != 0x7F)

def spaces : Pattern := .run isSpace

def newline : Pattern := .longest [.word "\n", .word "\r\n"]

def comment : Pattern := .word "#" ++ .run isPrintable

def lineEnd : Pattern := .longest [newline, .atEnd]

/-- Blanks, line ends and comments. -/
def gap : Pattern := .many (.longest [.char isSpace, newline, comment ++ lineEnd])

/-! ### Strings -/

/-- The character with a hexadecimal number of `count` digits. -/
def codePoint (count : Nat) (cs : List Char) : Option (Char × Nat) :=
  let digits := cs.take count
  let n := numeral 16 digits
  if digits.length = count ∧ digits.all isHexDigit ∧ n.isValidChar then
    some (Char.ofNat n, count + 1)
  else none

/-- The character that an escape behind its backslash stands for, and the length of the escape. -/
def escape : List Char → Option (Char × Nat)
  | 'b' :: _ => some ('\x08', 1)
  | 't' :: _ => some ('\t', 1)
  | 'n' :: _ => some ('\n', 1)
  | 'f' :: _ => some ('\x0c', 1)
  | 'r' :: _ => some ('\r', 1)
  | '"' :: _ => some ('"', 1)
  | '\\' :: _ => some ('\\', 1)
  | 'u' :: rest => codePoint 4 rest
  | 'U' :: rest => codePoint 8 rest
  | _ => none

/-- What a backslash at the end of a line takes away: all blanks and line ends behind it. -/
def lineJoin : Pattern :=
  spaces ++ newline ++ .many (.longest [.char isSpace, newline])

/-- How many quotes end a block. -/
def blockMarks : Nat := 3

/-- The characters of a string up to its closing quotes, and what follows it. `skip` counts
characters that an escape has used. -/
def stringRest (quote : Char) (isBlock : Bool) :
    (skip : Nat) → List Char → Option (List Char × List Char)
  | _, [] => none
  | skip + 1, _ :: rest => stringRest quote isBlock skip rest
  | 0, c :: rest =>
    let marks := (rest.takeWhile (· == quote)).length + 1
    let onwards := (stringRest quote isBlock 0 rest).map fun (text, after) => (c :: text, after)
    if c = quote then
      if !isBlock then some ([], rest)
      else if marks < blockMarks then onwards
      else if marks < 2 * blockMarks then
        some (List.replicate (marks - blockMarks) quote, rest.drop (marks - 1))
      else none
    else if c = '\\' ∧ quote = '"' then
      match isBlock, lineJoin rest with
      | true, some n => stringRest quote isBlock n rest
      | _, _ => do
        let (d, n) ← escape rest
        let (text, after) ← stringRest quote isBlock n rest
        return (d :: text, after)
    else if c = '\n' then if isBlock then onwards else none
    else if c = '\r' then
      if isBlock && rest.head? == some '\n' then stringRest quote isBlock 0 rest else none
    else if isPrintable c then onwards
    else none

/-- A string on one line, from its opening quote on. -/
def lineString : List Char → Option (String × List Char)
  | c :: rest =>
    if c = '"' ∨ c = '\'' then
      (stringRest c false 0 rest).map fun (text, after) => (String.ofList text, after)
    else none
  | [] => none

/-- A string, from its opening quotes on. A line end right behind the quotes of a block does not
count. -/
def string : List Char → Option (String × List Char)
  | c :: d :: e :: rest =>
    if (c = '"' ∨ c = '\'') ∧ d = c ∧ e = c then
      let body := rest.drop ((newline rest).getD 0)
      (stringRest c true 0 body).map fun (text, after) => (String.ofList text, after)
    else lineString (c :: d :: e :: rest)
  | cs => lineString cs

/-! ### Numbers -/

def sign : Pattern := .optional (.oneOf "+-")

/-- Decimal digits. A zero in front of others stands alone. -/
def leadingDigits : Pattern := fun cs =>
  if cs.head? == some '0' then some 1 else digits Char.isDigit cs

/-- The marks of the bases other than ten, with their digits. -/
def bases : List (String × Nat × (Char → Bool)) :=
  [("0x", 16, isHexDigit), ("0o", 8, Text.isOctalDigit), ("0b", 2, Text.isBinaryDigit)]

def integer : Pattern :=
  .longest ((sign ++ leadingDigits) ::
    bases.map fun (mark, _, isDigit) => .word mark ++ digits isDigit)

def fraction : Pattern :=
  let exponent := .oneOf "eE" ++ sign ++ digits Char.isDigit
  .longest [
    sign ++ leadingDigits ++ exponent,
    sign ++ leadingDigits ++ .word "." ++ digits Char.isDigit ++ .optional exponent,
    sign ++ .longest [.word "inf", .word "nan"]]

/-- The number that an integer stands for. -/
def integerOf (cs : List Char) : Int :=
  match bases.find? (fun (mark, _, _) => mark.toList.isPrefixOf cs), cs with
  | some (_, base, _), _ => numeral base (cs.drop 2)
  | none, '-' :: rest => -(numeral 10 rest : Int)
  | none, '+' :: rest => numeral 10 rest
  | none, _ => numeral 10 cs

/-- Whether a number fits 64 bits with a sign. -/
def isWord (n : Int) : Bool := -9223372036854775808 ≤ n && n ≤ 9223372036854775807

/-! ### Dates and times -/

/-- A number of `count` digits between two bounds. -/
def bounded (count low high : Nat) : Pattern := fun cs =>
  let digits := cs.take count
  let n := numeral 10 digits
  if digits.length = count ∧ digits.all Char.isDigit ∧ low ≤ n ∧ n ≤ high then some count else none

def daysOfMonth (year month : Nat) : Nat :=
  if month = 2 then
    if year % 4 = 0 ∧ (year % 100 ≠ 0 ∨ year % 400 = 0) then 29 else 28
  else if [4, 6, 9, 11].contains month then 30
  else 31

/-- A day of the calendar. -/
def date : Pattern := fun cs =>
  let year := numeral 10 (cs.take 4)
  let month := numeral 10 ((cs.drop 5).take 2)
  (bounded 4 0 9999 ++ .word "-" ++ bounded 2 1 12 ++ .word "-" ++
    bounded 2 1 (daysOfMonth year month)) cs

/-- A time of day. A minute may have one second more. -/
def clock : Pattern :=
  bounded 2 0 23 ++ .word ":" ++ bounded 2 0 59 ++ .word ":" ++ bounded 2 0 60 ++
    .optional (.word "." ++ .char Char.isDigit ++ .run Char.isDigit)

/-- The distance to the standard time. -/
def offset : Pattern :=
  .longest [.oneOf "Zz", .oneOf "+-" ++ bounded 2 0 23 ++ .word ":" ++ bounded 2 0 59]

def moment : Pattern :=
  .longest [date ++ .optional (.oneOf "Tt " ++ clock ++ .optional offset), clock]

/-! ### Values -/

/-- The value that a scalar without quotes stands for. -/
def plainValue (cs : List Char) : Option Value :=
  if cs = "true".toList then some (.boolean true)
  else if cs = "false".toList then some (.boolean false)
  else if integer cs = some cs.length then
    if isWord (integerOf cs) then some (.integer (integerOf cs)) else none
  else some (.measure (String.ofList cs))

/-- A scalar at the start of a text, and what follows it. -/
def scalar (cs : List Char) : Option (Value × List Char) :=
  if cs.head? == some '"' || cs.head? == some '\'' then
    (string cs).map fun (s, after) => (.text s, after)
  else do
    let n ← Pattern.longest [integer, fraction, moment, .word "true", .word "false"] cs
    return (← plainValue (cs.take n), cs.drop n)

end JavaDiagram.Toml
