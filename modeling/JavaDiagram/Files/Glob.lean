/-!
# Glob patterns

A glob describes paths. `?` stands for one byte and `*` for any number of bytes, both without the
slash; `[..]` stands for one of several bytes; `{..,..}` for one of several globs; a backslash takes
the next character as it is. Between slashes, `**` stands for any number of directories.
-/

namespace JavaDiagram.Glob

/-- The byte between the names of a path. -/
def slash : UInt8 := 47

/-- What a compiled glob is made of. -/
inductive Token where
  | byte (b : UInt8)
  | oneOf (isNegated : Bool) (ranges : List (UInt8 × UInt8))
  /-- Any byte but a slash. -/
  | any
  /-- Any number of bytes but slashes. -/
  | star
  /-- `**` with the slash behind it at the start: any directories, or none. -/
  | leading
  /-- `**` with the slashes around it: any directories, or none. -/
  | middle
  /-- `**` with the slash in front of it at the end: anything below. -/
  | trailing
  deriving DecidableEq, Repr

/-! ### Matching -/

/-- What is left of bytes after each number of leading bytes that pass a test. -/
def restsWhile (test : UInt8 → Bool) : List UInt8 → List (List UInt8)
  | [] => [[]]
  | b :: rest => (b :: rest) :: (if test b then restsWhile test rest else [])

/-- What is left of bytes behind each slash. -/
def restsAfterSlash : List UInt8 → List (List UInt8)
  | [] => []
  | b :: rest => if b = slash then rest :: restsAfterSlash rest else restsAfterSlash rest

/-- What may be left of bytes after a token. -/
def Token.rests : Token → List UInt8 → List (List UInt8)
  | byte b, c :: rest => if b = c then [rest] else []
  | oneOf isNegated ranges, c :: rest =>
    let isInside := ranges.any fun (low, high) => low ≤ c && c ≤ high
    if isInside != isNegated then [rest] else []
  | any, c :: rest => if c = slash then [] else [rest]
  | star, bytes => restsWhile (· != slash) bytes
  | leading, bytes => bytes :: restsAfterSlash bytes
  | middle, c :: rest => if c = slash then rest :: restsAfterSlash rest else []
  | trailing, c :: rest => if c = slash then restsWhile (fun _ => true) rest else []
  | _, [] => []

/-- Whether tokens fit all the bytes. -/
def fits : List Token → List UInt8 → Bool
  | [], bytes => bytes.isEmpty
  | token :: rest, bytes => (token.rests bytes).any (fits rest)

/-! ### Reading globs -/

/-- A piece of a glob as written. -/
inductive Piece where
  | plain (c : Char)
  | oneOf (isNegated : Bool) (ranges : List (UInt8 × UInt8))
  | any
  | star
  | openBrace
  | comma
  | closeBrace
  deriving DecidableEq, Repr

def bytesOf (c : Char) : List UInt8 :=
  c.toString.toUTF8.toList

def single (b : UInt8) : UInt8 × UInt8 := (b, b)

/-- The members of a class, and the glob behind it. A `]` at the start is a member. Ranges that run
backwards are refused. -/
def classMembers : (isFirst : Bool) → List Char → Option (List (UInt8 × UInt8) × List Char)
  | _, [] => none
  | false, ']' :: rest => some ([], rest)
  | _, low :: '-' :: high :: rest =>
    if high = ']' then do
      let (members, rest) ← classMembers false (high :: rest)
      return ((bytesOf low).map single ++ (bytesOf '-').map single ++ members, rest)
    else if low ≤ high then do
      let (members, rest) ← classMembers false rest
      let before := (bytesOf low).dropLast.map single
      let after := (bytesOf high).tail.map single
      let range := ((bytesOf low).getLastD 0, (bytesOf high).headD 0)
      return (before ++ range :: after ++ members, rest)
    else none
  | _, c :: rest => do
    let (members, rest) ← classMembers false rest
    return ((bytesOf c).map single ++ members, rest)

/-- A class behind its opening bracket. -/
def classPiece (cs : List Char) : Option (Piece × List Char) :=
  let (isNegated, members) :=
    match cs with
    | '!' :: rest | '^' :: rest => (true, rest)
    | _ => (false, cs)
  (classMembers true members).map fun (ranges, rest) => (.oneOf isNegated ranges, rest)

/-- The pieces of a glob. `fuel` counts characters. -/
def pieces : (fuel : Nat) → List Char → Option (List Piece)
  | _, [] => some []
  | 0, _ => none
  | fuel + 1, c :: rest =>
    match c, rest with
    | '\\', d :: rest => (pieces fuel rest).map (.plain d :: ·)
    | '\\', [] => none
    | '[', _ => do
      let (piece, rest) ← classPiece rest
      return piece :: (← pieces fuel rest)
    | '?', _ => (pieces fuel rest).map (.any :: ·)
    | '*', _ => (pieces fuel rest).map (.star :: ·)
    | '\x7b', _ => (pieces fuel rest).map (.openBrace :: ·)
    | '\x7d', _ => (pieces fuel rest).map (.closeBrace :: ·)
    | ',', _ => (pieces fuel rest).map (.comma :: ·)
    | _, _ => (pieces fuel rest).map (.plain c :: ·)

/-- The alternatives being read: those so far, and for each open brace those in front of it and the
finished ones inside it. -/
structure Choices where
  current : List (List Piece) := [[]]
  outer : List (List (List Piece) × List (List Piece)) := []

namespace Choices

def add (choices : Choices) (piece : Piece) : Choices :=
  { choices with current := choices.current.map (· ++ [piece]) }

/-- Goes on by one piece. -/
def step (choices : Choices) (piece : Piece) : Option Choices :=
  -- Empty alternatives are left out, unless all are empty.
  let filled := choices.current.filter (!·.isEmpty)
  match piece, choices.outer with
  | .openBrace, outer => some ⟨[[]], (choices.current, []) :: outer⟩
  | .comma, (before, done) :: outer => some ⟨[[]], (before, done ++ filled) :: outer⟩
  -- Outside all braces a comma is plain, but a closing brace is not.
  | .comma, [] => some (choices.add (.plain ','))
  | .closeBrace, (before, done) :: outer =>
    let inner := if (done ++ filled).isEmpty then [[]] else done ++ filled
    some ⟨before.flatMap fun b => inner.map (b ++ ·), outer⟩
  | .closeBrace, [] => none
  | piece, _ => some (choices.add piece)

end Choices

/-- The globs without braces that a glob stands for. -/
def alternatives (found : List Piece) : Option (List (List Piece)) := do
  let choices ← found.foldlM Choices.step {}
  if choices.outer.isEmpty then return choices.current else none

/-- Puts a token for `**` in place of the slash in front of it; at the start one is enough. -/
def replaceSlash (token : Token) : List Token → List Token
  | .leading :: done => .leading :: done
  | _ :: done => token :: done
  | [] => [token]

/-- The tokens of pieces without braces. `done` holds the tokens so far in reverse, and `afterSlash`
says whether a slash stands in front. -/
def tokens (done : List Token) (afterSlash : Bool) : List Piece → List Token
  | [] => done.reverse
  | .star :: .star :: .plain '/' :: rest =>
    if done.isEmpty then tokens [.leading] true rest
    else if afterSlash then tokens (replaceSlash .middle done) true rest
    else tokens (.byte slash :: .star :: done) true rest
  | [.star, .star] =>
    if done.isEmpty then [.leading]
    else if afterSlash then (replaceSlash .trailing done).reverse
    else (.star :: done).reverse
  | .star :: .star :: rest => tokens (.star :: done) false rest
  | .star :: rest => tokens (.star :: done) false rest
  | .any :: rest => tokens (.any :: done) false rest
  | .oneOf isNegated ranges :: rest => tokens (.oneOf isNegated ranges :: done) false rest
  | .plain c :: rest => tokens ((bytesOf c).reverse.map .byte ++ done) (c == '/') rest
  | _ :: rest => tokens done false rest

/-- Whether one token alone fits every path. -/
def fitsAll (found : List Token) : Bool :=
  found == [.leading]

/-- The token sequences that a glob stands for; none if it is not well formed. -/
def compile (glob : List Char) : Option (List (List Token)) := do
  let found ← pieces glob.length glob
  let choices ← alternatives found
  return choices.map (tokens [] false)

/-- Whether one of the token sequences fits a path. -/
def fitsPath (globs : List (List Token)) (path : String) : Bool :=
  let bytes := path.toUTF8.toList
  globs.any fun glob => fitsAll glob || fits glob bytes

end JavaDiagram.Glob
