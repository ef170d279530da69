/-!
# Inflating deflated data

A deflate stream is a sequence of bits, the lowest of each byte first. It holds blocks: bytes stored
as they are, or symbols in prefix codes, each of which is a byte, the end of the block, or the
length of a repetition with its distance behind it.

A stream that ends too early gives what was read so far. A stream that breaks the format is corrupt.
-/

namespace JavaDiagram.Inflate

/-- Why inflating stops before the end of the last block. -/
inductive Halt where
  | endOfInput
  | corrupt
  deriving DecidableEq, Repr

/-- The position of the next bit, and the bytes so far. -/
structure State where
  position : Nat := 0
  output : Array UInt8 := #[]

/-- A step of inflating the given data. A halt keeps the state. -/
abbrev Inflater := ReaderT (Array UInt8) (EStateM Halt State)

def bit : Inflater Nat := do
  let data ← read
  let state ← get
  match data[state.position / 8]? with
  | none => throw .endOfInput
  | some byte =>
    set { state with position := state.position + 1 }
    return (byte.toNat >>> (state.position % 8)) % 2

/-- The number in the next bits, lowest bit first. -/
def bits : (count : Nat) → Inflater Nat
  | 0 => return 0
  | count + 1 => do
    let low ← bit
    let high ← bits count
    return low + 2 * high

/-- Goes on at the start of the next byte. -/
def alignToByte : Inflater Unit :=
  modify fun state => { state with position := (state.position + 7) / 8 * 8 }

def emit (byte : UInt8) : Inflater Unit :=
  modify fun state => { state with output := state.output.push byte }

/-- Copies bytes from some distance back. In front of the first byte there are zeros. -/
def copyBack (distance : Nat) : (length : Nat) → Inflater Unit
  | 0 => return ()
  | length + 1 => do
    let output := (← get).output
    emit (if distance ≤ output.size then output.getD (output.size - distance) 0 else 0)
    copyBack distance length

/-! ### Prefix codes -/

/-- The longest code word. -/
def maxWidth : Nat := 15

/-- A canonical prefix code: the number of symbols of each width, and the symbols by width and
value. -/
structure PrefixCode where
  counts : Array Nat
  symbols : Array Nat

namespace PrefixCode

def symbolsOf (widths : List Nat) (width : Nat) : List Nat :=
  widths.zipIdx.filterMap fun (w, symbol) => if w = width then some symbol else none

/-- How many words of the longest width there are. -/
def allSpace : Nat := 1 <<< maxWidth

/-- How many words of the longest width start with a code word, if so many code words have each
width from 0 on. -/
def usedSpace (counts : List Nat) : Nat :=
  counts.zipIdx.foldl (fun space (count, width) => space + count <<< (maxWidth - width)) 0

/-- The code whose symbols have these widths; zero stands for no code word. A code with more than
one symbol must use up all code words. -/
def ofWidths (widths : List Nat) : Option PrefixCode :=
  let groups := (List.range (maxWidth + 1)).map fun width =>
    if width = 0 then [] else symbolsOf widths width
  let counts := groups.map (·.length)
  let symbols := groups.flatten
  if symbols.length ≤ 1 || usedSpace counts == allSpace then
    some ⟨counts.toArray, symbols.toArray⟩
  else none

/-- Reads a code word bit by bit. `code` is what was read, `first` the first code word of its width,
and `index` the place of that word's symbol. -/
def readFrom (prefixCode : PrefixCode) :
    (remaining width code first index : Nat) → Inflater Nat
  | 0, _, _, _, _ => throw .corrupt
  | remaining + 1, width, code, first, index => do
    let code := code + (← bit)
    let count := prefixCode.counts.getD width 0
    if code < first + count then
      return prefixCode.symbols.getD (index + (code - first)) 0
    else
      readFrom prefixCode remaining (width + 1) (2 * code) (2 * (first + count)) (index + count)

def read (prefixCode : PrefixCode) : Inflater Nat :=
  prefixCode.readFrom maxWidth 1 0 0 0

end PrefixCode

def codeOrCorrupt (widths : List Nat) : Inflater PrefixCode :=
  match PrefixCode.ofWidths widths with
  | some code => return code
  | none => throw .corrupt

/-! ### Repetitions -/

/-- The shortest length and the number of extra bits of a length symbol. -/
def lengthBases : Array (Nat × Nat) :=
  #[(3, 0), (4, 0), (5, 0), (6, 0), (7, 0), (8, 0), (9, 0), (10, 0), (11, 1), (13, 1), (15, 1),
    (17, 1), (19, 2), (23, 2), (27, 2), (31, 2), (35, 3), (43, 3), (51, 3), (59, 3), (67, 4),
    (83, 4), (99, 4), (115, 4), (131, 5), (163, 5), (195, 5), (227, 5), (258, 0)]

/-- The shortest distance and the number of extra bits of a distance symbol. -/
def distanceBases : Array (Nat × Nat) :=
  #[(1, 0), (2, 0), (3, 0), (4, 0), (5, 1), (7, 1), (9, 2), (13, 2), (17, 3), (25, 3), (33, 4),
    (49, 4), (65, 5), (97, 5), (129, 6), (193, 6), (257, 7), (385, 7), (513, 8), (769, 8),
    (1025, 9), (1537, 9), (2049, 10), (3073, 10), (4097, 11), (6145, 11), (8193, 12), (12289, 12),
    (16385, 13), (24577, 13)]

/-- A length or distance: the base of a symbol and its extra bits. -/
def amount (bases : Array (Nat × Nat)) (symbol : Nat) : Inflater Nat :=
  match bases[symbol]? with
  | some (base, extra) => return base + (← bits extra)
  | none => throw .corrupt

/-! ### Blocks -/

/-- The symbol that ends a block. Smaller symbols are bytes, larger ones lengths. -/
def endOfBlock : Nat := 256

/-- Reads the symbols of a block. Each takes a bit at least, so `fuel` need only count bits. -/
def codedBlock (literals distances : PrefixCode) : (fuel : Nat) → Inflater Unit
  | 0 => throw .endOfInput
  | fuel + 1 => do
    let symbol ← literals.read
    if symbol < endOfBlock then
      emit (UInt8.ofNat symbol)
      codedBlock literals distances fuel
    else if symbol = endOfBlock then
      return ()
    else
      let length ← amount lengthBases (symbol - endOfBlock - 1)
      let distance ← amount distanceBases (← distances.read)
      copyBack distance length
      codedBlock literals distances fuel

/-- Copies bytes of the data as they are. -/
def storedBytes : (count : Nat) → Inflater Unit
  | 0 => return ()
  | count + 1 => do
    emit (UInt8.ofNat (← bits 8))
    storedBytes count

def storedBlock : Inflater Unit := do
  alignToByte
  let length ← bits 16
  let complement ← bits 16
  -- The length comes twice, the second time with every bit changed.
  if length + complement = 65535 then storedBytes length else throw .corrupt

def fixedLiteralWidths : List Nat :=
  .replicate 144 8 ++ .replicate 112 9 ++ .replicate 24 7 ++ .replicate 8 8

def fixedDistanceWidths : List Nat :=
  .replicate 32 5

/-- The order in which the widths of the code of widths come. -/
def widthOrder : List Nat :=
  [16, 17, 18, 0, 8, 7, 9, 6, 10, 5, 11, 4, 12, 3, 13, 2, 14, 1, 15]

/-- Reads widths, some of them as repetitions, until there are `total`. They are kept in reverse. -/
def readWidths (code : PrefixCode) (total : Nat) : (fuel : Nat) → List Nat → Inflater (List Nat)
  | 0, widths => return widths
  | fuel + 1, widths => do
    if widths.length = total then return widths
    else if total < widths.length then throw .corrupt
    else
      let symbol ← code.read
      -- Of the larger symbols 16 repeats the last width, and the others repeat zero.
      if symbol < 16 then readWidths code total fuel (symbol :: widths)
      else if symbol = 16 then
        match widths with
        | [] => throw .corrupt
        | last :: _ =>
          let count ← bits 2
          readWidths code total fuel (List.replicate (count + 3) last ++ widths)
      else
        let extra ← bits (if symbol = 17 then 3 else 7)
        let base := if symbol = 17 then 3 else 11
        readWidths code total fuel (List.replicate (base + extra) 0 ++ widths)

/-- The codes that a block defines for itself. -/
def ownCodes : Inflater (PrefixCode × PrefixCode) := do
  let literalCount := (← bits 5) + 257
  let distanceCount := (← bits 5) + 1
  let given ← (List.replicate ((← bits 4) + 4) 3).mapM bits
  let order := widthOrder.zip given
  let code ← codeOrCorrupt ((List.range 19).map fun symbol => (order.lookup symbol).getD 0)
  let total := literalCount + distanceCount
  let widths := (← readWidths code total (total + 1) []).reverse
  return (← codeOrCorrupt (widths.take literalCount), ← codeOrCorrupt (widths.drop literalCount))

/-- Reads a block behind its first bit. -/
def block (fuel : Nat) : Inflater Unit := do
  match ← bits 2 with
  | 0 => storedBlock
  | 1 =>
    codedBlock (← codeOrCorrupt fixedLiteralWidths) (← codeOrCorrupt fixedDistanceWidths) fuel
  | 2 =>
    let (literals, distances) ← ownCodes
    codedBlock literals distances fuel
  | _ => throw .corrupt

/-- Reads blocks up to the last one. -/
def blocks (blockFuel : Nat) : (fuel : Nat) → Inflater Unit
  | 0 => throw .endOfInput
  | fuel + 1 => do
    let isLast ← bit
    block blockFuel
    if isLast = 1 then return () else blocks blockFuel fuel

/-- The bytes of a deflate stream as far as it goes; none if it is corrupt. -/
def inflate (data : Array UInt8) : Option (Array UInt8) :=
  let fuel := 8 * data.size + 1
  match (blocks fuel fuel).run data |>.run {} with
  | .ok _ state => some state.output
  | .error .endOfInput state => some state.output
  | .error .corrupt _ => none

end JavaDiagram.Inflate
