import JavaDiagram.Archive.Inflate
import JavaDiagram.Text.Utf8

/-!
# Zip archives

An archive is read from its end: the end record tells where the directory starts, each directory
entry tells where the local header of a file is, and the data of the file lies behind that header.
Bytes in front of the archive shift all places alike.
-/

namespace JavaDiagram

/-! ### Checksums

The remainder of the data of an entry modulo the reversed polynomial `0xEDB88320`, with all bits
flipped before the first byte and after the last. -/

namespace Crc32

def polynomial : UInt32 := 0xEDB88320

/-- Moves a remainder on by one bit. -/
def shiftBit (remainder : UInt32) : UInt32 :=
  if remainder &&& 1 == 1 then (remainder >>> 1) ^^^ polynomial else remainder >>> 1

/-- Moves a remainder on by one byte. -/
def step (remainder : UInt32) (byte : UInt8) : UInt32 :=
  Nat.repeat shiftBit 8 (remainder ^^^ byte.toUInt32)

def checksum (bytes : Array UInt8) : UInt32 :=
  bytes.foldl step 0xFFFFFFFF ^^^ 0xFFFFFFFF

end Crc32

/-! ### Names

Names in old archives have one character for each byte. The lower half is ASCII. -/

namespace Text

/-- The characters of the upper half of code page 437. -/
def codePage437 : Array Char :=
  ("ÇüéâäàåçêëèïîìÄÅÉæÆôöòûùÿÖÜ¢£¥₧ƒáíóúñÑªº¿⌐¬½¼¡«»░▒▓│┤╡╢╖╕╣║╗╝╜╛┐" ++
    "└┴┬├─┼╞╟╚╔╩╦╠═╬╧╨╤╥╙╘╒╓╫╪┘┌█▄▌▐▀αßΓπΣσµτΦΘΩδ∞φε∩≡±≥≤⌠⌡÷≈°∙·√ⁿ²■\u00A0").toList.toArray

/-- The character of a byte in code page 437. -/
def codePageChar (byte : UInt8) : Char :=
  if byte < 128 then Char.ofNat byte.toNat else codePage437.getD (byte.toNat - 128) ' '

/-- A text in code page 437. -/
def decodeCodePage (bytes : List UInt8) : String :=
  String.ofList (bytes.map codePageChar)

end Text

/-! ### Reading -/

/-- Why an archive, or an entry of it, cannot be read. -/
inductive ArchiveError where
  | tooShort
  | noEndRecord
  | badDirectoryPlace
  | badWideEndRecord
  | badDirectoryHeader
  | badLocalHeader
  | severalDisks
  | encrypted
  | unknownMethod
  /-- A record goes on behind the end of the archive. -/
  | truncated
  deriving DecidableEq, Repr

def ArchiveError.message : ArchiveError → String
  | tooShort => "invalid Zip archive: Invalid zip header"
  | noEndRecord => "invalid Zip archive: Could not find central directory end"
  | badDirectoryPlace => "invalid Zip archive: Invalid central directory size or offset"
  | badWideEndRecord => "invalid Zip archive: Could not find ZIP64 central directory end"
  | badDirectoryHeader => "invalid Zip archive: Invalid Central Directory header"
  | badLocalHeader => "invalid Zip archive: Invalid local file header"
  | severalDisks => "unsupported Zip archive: Support for multi-disk files is not implemented"
  | encrypted => "unsupported Zip archive: Password required to decrypt file"
  | unknownMethod => "unsupported Zip archive: Compression method not supported"
  | truncated => "failed to fill whole buffer"

/-- Why the data of an entry cannot be used. -/
inductive EntryDamage where
  | checksum
  | stream
  deriving DecidableEq, Repr

namespace Zip

/-- The number in `count` bytes at a position, lowest byte first. -/
def number (data : Array UInt8) (position count : Nat) : Except ArchiveError Nat :=
  if position + count ≤ data.size then
    .ok ((data.extract position (position + count)).foldr (fun b n => b.toNat + 256 * n) 0)
  else .error .truncated

/-- The bytes from a position on. -/
def bytes (data : Array UInt8) (position count : Nat) : Except ArchiveError (List UInt8) :=
  if position + count ≤ data.size then .ok (data.extract position (position + count)).toList
  else .error .truncated

/-- Whether a number stands at a position. -/
def isAt (data : Array UInt8) (mark position : Nat) : Bool :=
  match number data position 4 with
  | .ok n => n == mark
  | .error _ => false

/-- The marks of the records. -/
def endMark : Nat := 0x06054B50
def wideEndMark : Nat := 0x06064B50
def wideLocatorMark : Nat := 0x07064B50
def directoryMark : Nat := 0x02014B50
def localMark : Nat := 0x04034B50

/-- The length of an end record without its comment. -/
def endLength : Nat := 22

/-- The longest comment behind an end record. -/
def maxComment : Nat := 65535

/-- Looks for a mark from a position downwards, at most `steps` times. -/
def findMark (data : Array UInt8) (mark : Nat) : (steps position : Nat) → Option Nat
  | 0, _ => none
  | steps + 1, position =>
    if isAt data mark position then some position
    else if position = 0 then none
    else findMark data mark steps (position - 1)

/-- Where the directory starts, how many entries it has, and by how much all places are shifted. -/
structure DirectoryPlace where
  start : Nat
  count : Nat
  shift : Nat

/-- The directory's place from an end record at a position. -/
def narrowPlace (data : Array UInt8) (position : Nat) : Except ArchiveError DirectoryPlace := do
  let count ← number data (position + 8) 2
  let size ← number data (position + 12) 4
  let offset ← number data (position + 16) 4
  if size + offset ≤ position then
    return ⟨position - size, count, position - size - offset⟩
  else .error .badDirectoryPlace

/-- Looks for a wide end record from a position upwards, at most `steps` times. -/
def findWideEnd (data : Array UInt8) : (steps position : Nat) → Option Nat
  | 0, _ => none
  | steps + 1, position =>
    if isAt data wideEndMark position then some position
    else findWideEnd data steps (position + 1)

/-- The directory's place from a wide end record, for archives that are too large for a narrow
one. -/
def widePlace (data : Array UInt8) (position locator : Nat) :
    Except ArchiveError DirectoryPlace := do
  let nominal ← number data (locator + 8) 8
  if position < 60 ∨ position - 60 < nominal then .error .badWideEndRecord
  else
    match findWideEnd data (position - 60 - nominal + 1) nominal with
    | none => .error .badWideEndRecord
    | some found =>
      let disk ← number data (found + 16) 4
      let startDisk ← number data (found + 20) 4
      let count ← number data (found + 32) 8
      let offset ← number data (found + 48) 8
      if disk = startDisk then return ⟨offset + (found - nominal), count, found - nominal⟩
      else .error .severalDisks

/-- Whether an end record says that its numbers stand in a wide end record. -/
def isTooSmall (data : Array UInt8) (position : Nat) : Except ArchiveError Bool := do
  let halves ← [4, 6, 8, 10].mapM fun offset => number data (position + offset) 2
  let words ← [12, 16].mapM fun offset => number data (position + offset) 4
  return halves.contains 0xFFFF || words.contains 0xFFFFFFFF

def directoryPlace (data : Array UInt8) : Except ArchiveError DirectoryPlace := do
  if data.size < endLength then .error .tooShort
  else
    match findMark data endMark (maxComment + 1) (data.size - endLength) with
    | none => .error .noEndRecord
    | some position =>
      let commentLength ← number data (position + 20) 2
      let _ ← bytes data (position + endLength) commentLength
      let tooSmall ← isTooSmall data position
      let disk ← number data (position + 4) 2
      let startDisk ← number data (position + 6) 2
      if !tooSmall && disk != startDisk then .error .severalDisks
      else
        let locator := data.size - commentLength - endLength - 20
        if endLength + commentLength + 20 ≤ data.size && isAt data wideLocatorMark locator then
          let locatorDisk ← number data (locator + 4) 4
          if !tooSmall && disk != locatorDisk then .error .severalDisks
          else widePlace data position locator
        else narrowPlace data position

/-- An entry of the directory. -/
structure DirectoryEntry where
  name : String
  isEncrypted : Bool
  method : Nat
  checksum : Nat
  compressedSize : Nat
  headerStart : Nat

/-- The numbers of an entry that wide archives keep in an extra field, in the order in which the
field has them. -/
structure WideNumbers where
  size : Nat
  compressedSize : Nat
  headerStart : Nat

/-- A number that stands for one in an extra field. -/
def wideMarker : Nat := 0xFFFFFFFF

/-- Replaces the numbers that stand for others by those of the extra field's data. -/
def WideNumbers.update (numbers : WideNumbers) (field : Array UInt8) : WideNumbers :=
  let take (old position : Nat) : Nat × Nat :=
    if old = wideMarker then
      match number field position 8 with
      | .ok n => (n, position + 8)
      | .error _ => (old, position)
    else (old, position)
  let (size, position) := take numbers.size 0
  let (compressedSize, position) := take numbers.compressedSize position
  let (headerStart, _) := take numbers.headerStart position
  ⟨size, compressedSize, headerStart⟩

/-- Reads the extra fields of an entry. A field that goes on behind their end ends them. -/
def WideNumbers.readExtra (numbers : WideNumbers) : List UInt8 → WideNumbers
  | k0 :: k1 :: n0 :: n1 :: rest =>
    let length := n0.toNat + 256 * n1.toNat
    let numbers :=
      if k0 == 1 && k1 == 0 then numbers.update (rest.take length).toArray else numbers
    numbers.readExtra (rest.drop length)
  | _ => numbers
  termination_by cs => cs.length
  decreasing_by simp only [List.length_drop, List.length_cons]; omega

/-- Reads a directory entry; gives the position behind it too. -/
def directoryEntry (data : Array UInt8) (shift position : Nat) :
    Except ArchiveError (DirectoryEntry × Nat) := do
  let mark ← number data position 4
  if mark != directoryMark then .error .badDirectoryHeader
  else
    let flags ← number data (position + 8) 2
    let method ← number data (position + 10) 2
    let checksum ← number data (position + 16) 4
    let compressedSize ← number data (position + 20) 4
    let size ← number data (position + 24) 4
    let nameLength ← number data (position + 28) 2
    let extraLength ← number data (position + 30) 2
    let commentLength ← number data (position + 32) 2
    let headerStart ← number data (position + 42) 4
    let nameBytes ← bytes data (position + 46) nameLength
    let extra ← bytes data (position + 46 + nameLength) extraLength
    let _ ← bytes data (position + 46 + nameLength + extraLength) commentLength
    -- A flag says whether the name is UTF-8.
    let name :=
      if flags.testBit 11 then Utf8.decode nameBytes else Text.decodeCodePage nameBytes
    let wide := (WideNumbers.mk size compressedSize headerStart).readExtra extra
    return (⟨name, flags.testBit 0, method, checksum, wide.compressedSize,
      wide.headerStart + shift⟩, position + 46 + nameLength + extraLength + commentLength)

def directoryEntries (data : Array UInt8) (shift : Nat) :
    (count position : Nat) → Except ArchiveError (List DirectoryEntry)
  | 0, _ => return []
  | count + 1, position => do
    let (entry, next) ← directoryEntry data shift position
    return entry :: (← directoryEntries data shift count next)

def directory (data : Array UInt8) : Except ArchiveError (List DirectoryEntry) := do
  let place ← directoryPlace data
  directoryEntries data place.shift place.count place.start

/-- The methods by which data is kept. -/
def storedMethod : Nat := 0
def deflatedMethod : Nat := 8

/-- The kept data of an entry. -/
def packedData (data : Array UInt8) (entry : DirectoryEntry) :
    Except ArchiveError (Array UInt8) := do
  if entry.isEncrypted then .error .encrypted
  else
    let mark ← number data entry.headerStart 4
    if mark != localMark then .error .badLocalHeader
    else
      -- The lengths in front of the data may differ from those in the directory.
      let nameLength ← number data (entry.headerStart + 26) 2
      let extraLength ← number data (entry.headerStart + 28) 2
      let start := entry.headerStart + 30 + nameLength + extraLength
      if entry.method = storedMethod ∨ entry.method = deflatedMethod then
        return data.extract start (start + entry.compressedSize)
      else .error .unknownMethod

/-- The data of an entry from its kept form. -/
def unpack (entry : DirectoryEntry) (packed : Array UInt8) : Except EntryDamage (Array UInt8) :=
  let unpacked := if entry.method = storedMethod then some packed else Inflate.inflate packed
  match unpacked with
  | none => .error .stream
  | some content =>
    if (Crc32.checksum content).toNat = entry.checksum then .ok content else .error .checksum

def DirectoryEntry.isDirectory (entry : DirectoryEntry) : Bool :=
  match entry.name.toList.getLast? with
  | some c => c == '/' || c == '\\'
  | none => false

end Zip

end JavaDiagram
