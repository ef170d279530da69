/-!
# Decoding UTF-8 that may be damaged

Bytes are read as UTF-8. Where no character can be read, the longest prefix that could still have
begun one is replaced by a single replacement character, and reading goes on behind it; so damage
never spreads to the characters around it.
-/

namespace JavaDiagram.Utf8

def replacement : Char := '\uFFFD'

/-- The byte that follows, if it lies between two bounds. -/
def next (low high : UInt8) : List UInt8 → Option UInt8
  | b :: _ => if low ≤ b && b ≤ high then some b else none
  | [] => none

/-- The bits that a continuation byte carries. -/
def payload (b : UInt8) : Nat := b.toNat % 64

/-- The bounds of the second byte after the first byte of a longer character: shorter forms,
surrogates and code points past the last one are left out. -/
def secondBounds (first : UInt8) : UInt8 × UInt8 :=
  if first == 0xE0 then (0xA0, 0xBF)
  else if first == 0xED then (0x80, 0x9F)
  else if first == 0xF0 then (0x90, 0xBF)
  else if first == 0xF4 then (0x80, 0x8F)
  else (0x80, 0xBF)

/-- The character that starts with `first`, and how many of the following bytes belong to it. -/
def readChar (first : UInt8) (rest : List UInt8) : Char × Nat :=
  let (low, high) := secondBounds first
  if first < 0x80 then (Char.ofNat first.toNat, 0)
  else if first < 0xC2 then (replacement, 0)
  else if first < 0xE0 then
    match next 0x80 0xBF rest with
    | none => (replacement, 0)
    | some b => (Char.ofNat (first.toNat % 32 * 64 + payload b), 1)
  else if first < 0xF0 then
    match next low high rest with
    | none => (replacement, 0)
    | some b =>
      match next 0x80 0xBF (rest.drop 1) with
      | none => (replacement, 1)
      | some c => (Char.ofNat (first.toNat % 16 * 4096 + payload b * 64 + payload c), 2)
  else if first < 0xF5 then
    match next low high rest with
    | none => (replacement, 0)
    | some b =>
      match next 0x80 0xBF (rest.drop 1) with
      | none => (replacement, 1)
      | some c =>
        match next 0x80 0xBF (rest.drop 2) with
        | none => (replacement, 2)
        | some d =>
          (Char.ofNat
            (first.toNat % 8 * 262144 + payload b * 4096 + payload c * 64 + payload d), 3)
  else (replacement, 0)

def decodeChars : List UInt8 → List Char
  | [] => []
  | first :: rest =>
    let (c, used) := readChar first rest
    c :: decodeChars (rest.drop used)
  termination_by bytes => bytes.length
  decreasing_by simp only [List.length_drop, List.length_cons]; omega

def decode (bytes : List UInt8) : String :=
  String.ofList (decodeChars bytes)

/-- Whether a byte sequence is UTF-8 without any damage. -/
def isValid (bytes : ByteArray) : Bool :=
  bytes.validateUTF8

end JavaDiagram.Utf8
