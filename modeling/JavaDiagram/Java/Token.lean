import JavaDiagram.Java.Source
import JavaDiagram.Text.Digits
import JavaDiagram.Text.Identifier
import JavaDiagram.Text.Search

/-!
# Tokens

A source text is cut into lexemes: blanks, comments and tokens. Each lexeme is the longest piece
that fits at its place, with one exception: a `>` is never taken together with another `>`, since
it may close a list of types. What fits nothing is a junk token of one character.

A string may hold an expression between `\{` and `}`. Such a string is cut into an opening piece,
middle pieces and a closing piece, with the tokens of the expressions between them.
-/

namespace JavaDiagram.Java

open JavaDiagram.Text (Pattern digitGroups digits isBinaryDigit isOctalDigit isHexDigit)

/-- What a token is. Keywords are words. -/
inductive TokenKind where
  | word
  | number
  | character
  /-- A string without embedded expressions. -/
  | string
  /-- The piece of a string in front of its first expression. -/
  | opening
  /-- The piece of a string between two expressions. -/
  | middle
  /-- The piece of a string behind its last expression. -/
  | closing
  | symbol
  | junk
  deriving DecidableEq, Repr

/-- A token with its place. -/
structure Token where
  kind : TokenKind
  text : String
  extent : Extent
  deriving DecidableEq, Repr

/-- A comment with its place. -/
structure SourceComment where
  isBlock : Bool
  extent : Extent
  deriving DecidableEq, Repr

/-- What a lexeme is. -/
inductive LexemeKind where
  | blank
  | comment (isBlock : Bool)
  | token (kind : TokenKind)
  deriving DecidableEq, Repr

/-- A lexeme with its text and place. -/
structure Lexeme where
  kind : LexemeKind
  chars : List Char
  extent : Extent

/-! ### Blanks, words and comments -/

/-- The characters between tokens. -/
def isSpace (c : Char) : Bool :=
  c == ' ' || c == '\t' || c == '\r' || c == '\n' || c.toNat == 0x0B || c.toNat == 0x0C

def isWordStart (c : Char) : Bool :=
  Text.isIdentifierStart c || c == '_' || c == '$'

def isWordPart (c : Char) : Bool :=
  Text.isIdentifierPart c || c == '$' || c == '¢'

/-- The length of a block comment's rest, up to and with its end. -/
def blockCommentRest : Pattern
  | '*' :: '/' :: _ => some 2
  | _ :: rest => (blockCommentRest rest).map (· + 1)
  | [] => none

def blanks : Pattern := .char isSpace ++ .run isSpace

def wordPattern : Pattern := .char isWordStart ++ .run isWordPart

def lineComment : Pattern := .word "//" ++ .run (· != '\n')

/-- A comment between its marks. -/
def blockComment : Pattern := .word "/*" ++ blockCommentRest

/-! ### Numbers -/

/-- A decimal integer: a lone zero, or digits that start with another. -/
def decimal : Pattern
  | '0' :: _ => some 1
  | c :: '_' :: d :: rest =>
    if c.isDigit then
      if d.isDigit then some (2 + digitGroups Char.isDigit true false (d :: rest)) else some 1
    else none
  | c :: rest => if c.isDigit then some (1 + digitGroups Char.isDigit true false rest) else none
  | [] => none

def exponent : Pattern :=
  .oneOf "eE" ++ .optional (.oneOf "+-") ++ digits Char.isDigit

def number : Pattern :=
  let long : Pattern := .optional (.oneOf "lL")
  let real : Pattern := .oneOf "fFdD"
  let hexMark := Pattern.longest [.word "0x", .word "0X"]
  let hexDigits := digits isHexDigit
  let binaryExponent := .oneOf "pP" ++ .optional (.oneOf "+-") ++ decimal ++ .optional real
  .longest [
    decimal ++ long,
    hexMark ++ hexDigits ++ long,
    .longest [.word "0o", .word "0O", .word "0"] ++ digits isOctalDigit ++ long,
    .longest [.word "0b", .word "0B"] ++ digits isBinaryDigit ++ long,
    digits Char.isDigit ++ .word "." ++ .optional (digits Char.isDigit) ++ .optional exponent ++
      .optional real,
    .word "." ++ digits Char.isDigit ++ .optional exponent ++ .optional real,
    decimal ++ exponent ++ .optional real,
    decimal ++ real,
    hexMark ++ hexDigits ++ .optional (.word ".") ++ .optional binaryExponent,
    hexMark ++ .optional hexDigits ++ .word "." ++ hexDigits ++ .optional binaryExponent]

/-! ### Characters and strings -/

/-- The length of a character literal's rest behind its opening quote; `filled` if something stands
between the quotes already. -/
def characterRest (filled : Bool) : Pattern
  | '\'' :: _ => if filled then some 1 else none
  | '\n' :: _ => none
  | '\\' :: _ :: rest => (characterRest true rest).map (· + 2)
  | '\\' :: [] => none
  | _ :: rest => (characterRest true rest).map (· + 1)
  | [] => none

/-- A character literal. Any number of characters may stand between its quotes. -/
def characterPattern : Pattern := .word "'" ++ characterRest false

/-- How a piece of a string ends. -/
inductive PieceEnd where
  | quote
  | expression
  /-- The source ends first. -/
  | missing
  deriving DecidableEq, Repr

/-- A piece of a string: its end, its length, and whether all its escapes are known. -/
structure Piece where
  ending : PieceEnd
  length : Nat
  isSound : Bool

/-- A piece with more characters in front of it. -/
def Piece.after (count : Nat) (sound : Bool) (piece : Piece) : Piece :=
  { piece with length := count + piece.length, isSound := sound && piece.isSound }

/-- What follows an escaped `x`. -/
def byteDigits : Pattern := .char isHexDigit ++ .char isHexDigit

/-- What follows an escaped `u`. -/
def codePointDigits : Pattern :=
  .longest [
    byteDigits ++ byteDigits,
    .word "\x7b" ++ .char isHexDigit ++ .run isHexDigit ++ .word "\x7d"]

/-- Whether a backslash may stand in front of `c` with `rest` behind it. -/
def isEscape (c : Char) (rest : List Char) : Bool :=
  if c == 'x' then (byteDigits rest).isSome
  else if c == 'u' then (codePointDigits rest).isSome
  else true

/-- The rest of a string, or of a text block, up to its end or its next expression. -/
def stringRest (isTextBlock : Bool) : List Char → Piece
  | '"' :: rest =>
    if !isTextBlock then ⟨.quote, 1, true⟩
    else if ['"', '"'].isPrefixOf rest then ⟨.quote, 3, true⟩
    else (stringRest isTextBlock rest).after 1 true
  | '\\' :: c :: rest =>
    if c = '\x7b' then ⟨.expression, 2, true⟩
    -- In a text block any character may be escaped.
    else (stringRest isTextBlock rest).after 2 (isTextBlock || isEscape c rest)
  | _ :: rest => (stringRest isTextBlock rest).after 1 true
  | [] => ⟨.missing, 0, true⟩

/-- A string whose embedded expression is being read: whether it is a text block, and how many
braces are open inside the expression. -/
structure OpenString where
  isTextBlock : Bool
  braces : Nat := 0
  deriving DecidableEq, Repr

/-- The kind of a string's piece that ends with a quote or with an expression. -/
def pieceKind (whole cut : TokenKind) (piece : Piece) : TokenKind :=
  match piece.ending, piece.isSound with
  | .quote, true => whole
  | .expression, true => cut
  | _, _ => .junk

/-! ### Symbols -/

/-- Separators and operators, longer ones before their starts. -/
def symbols : List (List Char) :=
  ["<<=", "...", "->", "::", "++", "--", "&&", "||", "==", "!=", "<=", ">=", "+=", "-=", "*=", "/=",
    "&=", "|=", "^=", "%=", "<<", "(", ")", "\x7b", "\x7d", "[", "]", ";", ",", ".", "@", "=", ">",
    "<", "!", "~", "?", ":", "+", "-", "*", "/", "&", "|", "^", "%"].map (·.toList)

/-- The first symbol that fits. -/
def symbol : Pattern := fun cs =>
  (symbols.find? (·.isPrefixOf cs)).map (·.length)

/-! ### Cutting a source text -/

/-- The kind of a lexeme, how many characters it takes, and the strings open behind it. -/
structure Cut where
  kind : LexemeKind
  length : Nat
  openStrings : List OpenString

/-- The kinds of lexemes that look alike wherever they stand, with their patterns. -/
def plainLexemes : List (LexemeKind × Pattern) :=
  [(.blank, blanks), (.comment false, lineComment), (.comment true, blockComment),
    (.token .word, wordPattern), (.token .number, number), (.token .character, characterPattern),
    (.token .symbol, symbol)]

/-- Cuts a string behind its opening quotes. -/
def cutString (strings : List OpenString) (isTextBlock : Bool) (marks : Nat) (rest : List Char) :
    Cut :=
  let piece := stringRest isTextBlock rest
  match piece.ending with
  -- Without an end the quotes alone are taken, and the text is read on behind them.
  | .missing => ⟨.token .junk, marks, strings⟩
  | .quote => ⟨.token (pieceKind .string .opening piece), marks + piece.length, strings⟩
  | .expression =>
    ⟨.token (pieceKind .string .opening piece), marks + piece.length, ⟨isTextBlock, 0⟩ :: strings⟩

/-- Cuts the piece of a string behind one of its expressions. -/
def cutRest (string : OpenString) (outer : List OpenString) (rest : List Char) : Cut :=
  let piece := stringRest string.isTextBlock rest
  match piece.ending with
  | .missing => ⟨.token .junk, 1, outer⟩
  | .quote => ⟨.token (pieceKind .closing .middle piece), 1 + piece.length, outer⟩
  | .expression =>
    ⟨.token (pieceKind .closing .middle piece), 1 + piece.length, ⟨string.isTextBlock, 0⟩ :: outer⟩

/-- Keeps count of the braces inside an embedded expression. -/
def countBrace (c : Char) : List OpenString → List OpenString
  | [] => []
  | string :: outer =>
    if c = '\x7b' then { string with braces := string.braces + 1 } :: outer
    else if c = '\x7d' then { string with braces := string.braces - 1 } :: outer
    else string :: outer

/-- Cuts a lexeme that is no part of a string. -/
def cutPlain (strings : List OpenString) (c : Char) (rest : List Char) : Cut :=
  match plainLexemes.findSome? fun (kind, pattern) => (pattern (c :: rest)).map (kind, ·) with
  | some (kind, length) => ⟨kind, length, countBrace c strings⟩
  | none => ⟨.token .junk, 1, strings⟩

/-- Cuts the lexeme at the start of a text. -/
def cut (strings : List OpenString) (c : Char) (rest : List Char) : Cut :=
  if c = '"' then
    if ['"', '"'].isPrefixOf rest then cutString strings true 3 (rest.drop 2)
    else cutString strings false 1 rest
  else
    match strings with
    | ⟨isTextBlock, 0⟩ :: outer =>
      -- A brace that closes nothing inside the expression ends it.
      if c = '\x7d' then cutRest ⟨isTextBlock, 0⟩ outer rest else cutPlain strings c rest
    | _ => cutPlain strings c rest

/-- The lexemes of a text that starts at a position and line. -/
def lexemesFrom (position line : Nat) (strings : List OpenString) : List Char → List Lexeme
  | [] => []
  | c :: rest =>
    let found := cut strings c rest
    let more := found.length - 1
    let chars := c :: rest.take more
    let stop := position + chars.length
    ⟨found.kind, chars, ⟨position, stop, line⟩⟩ ::
      lexemesFrom stop (line + chars.count '\n') found.openStrings (rest.drop more)
  termination_by cs => cs.length
  decreasing_by simp only [List.length_drop, List.length_cons]; omega

/-- The lexemes of a source text. A byte order mark at its start is passed over. -/
def lexemes : List Char → List Lexeme
  | '\uFEFF' :: rest => lexemesFrom 1 1 [] rest
  | cs => lexemesFrom 0 1 [] cs

/-- The token that a lexeme is, if it is one. -/
def Lexeme.token? (lexeme : Lexeme) : Option Token :=
  match lexeme.kind with
  | .token kind => some ⟨kind, String.ofList lexeme.chars, lexeme.extent⟩
  | _ => none

/-- The comment that a lexeme is, if it is one. -/
def Lexeme.comment? (lexeme : Lexeme) : Option SourceComment :=
  match lexeme.kind with
  | .comment isBlock => some ⟨isBlock, lexeme.extent⟩
  | _ => none

/-- The lexemes of a text cover it without a gap. -/
theorem flatMap_chars_lexemesFrom (position line : Nat) (strings : List OpenString)
    (cs : List Char) : (lexemesFrom position line strings cs).flatMap (·.chars) = cs := by
  fun_induction lexemesFrom position line strings cs with
  | case1 => rfl
  | case2 position line strings c rest found more chars stop ih =>
    simp only [List.flatMap_cons, ih]
    simp [chars, List.take_append_drop]

end JavaDiagram.Java
