import DomainAuction.Compression.Checksum
import DomainAuction.Compression.Literals
import DomainAuction.Compression.Sequences

/-!
# Frame — compressed byte strings

In the Zstandard format a compressed byte string is a row of frames, some of which may be there
only to be skipped. A frame is a row of blocks behind a header, and may end with a checksum. A
block is stored as it is, or it is one byte that is repeated, or it has literals and sequences;
sequences copy from all that the frame has yielded so far.
-/

namespace DomainAuction.Compression

/-! ## Blocks -/

/-- What a frame has yielded so far, and what its next block may refer to. -/
structure Progress where
  output : Array UInt8
  codes : Option HuffmanTable
  tables : Option SequenceTables
  recent : RecentDistances

def Progress.initial : Progress := ⟨#[], none, none, .initial⟩

/-- Appends `count` bytes, each of them from `distance` bytes back. -/
def copyBack (distance : Nat) : (count : Nat) → Array UInt8 → Array UInt8
  | 0, output => output
  | count + 1, output =>
    copyBack distance count (output.push (output.getD (output.size - distance) 0))

/-- Carries out sequences, and then appends the literals that are not used. The output may grow up
to `bound` bytes. -/
def carryOut (bound : Nat) (literals : Array UInt8) :
    List Sequence → (used : Nat) → RecentDistances → Array UInt8 →
      Option (RecentDistances × Array UInt8)
  | [], used, recent, output =>
    if output.size + (literals.size - used) ≤ bound then
      some (recent, output ++ literals.extract used literals.size)
    else none
  | sequence :: rest, used, recent, output =>
    let behind := used + sequence.literals
    let recent := recent.advance sequence
    let reach := output.size + sequence.literals
    if behind ≤ literals.size ∧ reach + sequence.copied ≤ bound
        ∧ 0 < recent.first ∧ recent.first ≤ reach then
      carryOut bound literals rest behind recent
        (copyBack recent.first sequence.copied (output ++ literals.extract used behind))
    else none

namespace Progress

/-- The progress after a block of literals and sequences, which yields at most `limit` bytes. -/
def compressed? (limit : Nat) (input : Bytes) (progress : Progress) : Option Progress := do
  let ((literals, codes), input) ← Literals.read limit progress.codes input
  let ((sequences, tables), _) ← Sequence.read progress.tables input
  let (recent, output) ← carryOut (progress.output.size + limit) literals sequences 0
    progress.recent progress.output
  return ⟨output, codes, tables, recent⟩

/-- Reads blocks up to the last one. Each takes three bytes at least, so there are fewer blocks
than bytes. -/
def readBlocks (limit : Nat) : (blocks : Nat) → Progress → Parser Progress
  | 0, _ => failure
  | blocks + 1, progress => do
    let header ← Parser.number 3
    let size := header / 8
    guard (size ≤ limit)
    let progress ← match header / 2 % 4 with
      | 0 => do
        let stored ← Parser.take size
        pure { progress with output := progress.output ++ stored }
      | 1 => do
        let b ← Parser.byte
        pure { progress with output := progress.output ++ Array.replicate size b }
      | 2 => do progress.compressed? limit (← Parser.take size)
      | _ => failure
    if header % 2 = 1 then return progress else readBlocks limit blocks progress

end Progress

/-! ## Frames -/

/-- What the header of a frame says. -/
structure FrameHeader where
  /-- How far back a block may refer, and thus how much memory the frame needs. -/
  window : Nat
  contentSize : Option Nat
  hasChecksum : Bool

namespace FrameHeader

/-- No frame may need more memory. -/
def maxWindow : Nat := 134217729

/-- The most bytes that a block yields. -/
def blockLimit (header : FrameHeader) : Nat :=
  min header.window 131072

/-- Reads the size of a window: a power of two, and some eighths of it on top. -/
def readWindow : Parser Nat := do
  let b := (← Parser.byte).toNat
  let base := 1024 <<< (b / 8)
  return base + base / 8 * (b % 8)

/-- Reads the size of the content. Numbers of two bytes start where those of one byte end. -/
def readContentSize (width : Nat) : Parser (Option Nat) :=
  match width with
  | 0 => return none
  | 2 => return some (256 + (← Parser.number 2))
  | _ => return some (← Parser.number width)

/-- Reads a header. Content that comes in one piece is its own window; dictionaries are not
supported. -/
def read : Parser FrameHeader := do
  let descriptor := (← Parser.byte).toNat
  let inOnePiece : Bool := descriptor / 32 % 2 = 1
  guard (descriptor / 8 % 2 = 0)
  let window ← if inOnePiece then pure none else some <$> readWindow
  let dictionary ← Parser.number ([0, 1, 2, 4].getD (descriptor % 4) 0)
  guard (dictionary = 0)
  let contentSize ← readContentSize
    ([if inOnePiece then 1 else 0, 2, 4, 8].getD (descriptor / 64) 0)
  let window := (window <|> contentSize).getD 0
  guard (window ≤ maxWindow)
  return ⟨window, contentSize, descriptor / 4 % 2 = 1⟩

end FrameHeader

/-- Reads a frame behind its mark. -/
def readContent : Parser (Array UInt8) := do
  let header ← FrameHeader.read
  let progress ← Progress.readBlocks header.blockLimit (← get).length .initial
  let output := progress.output
  guard (header.contentSize.all (· = output.size))
  if header.hasChecksum then
    guard ((← Parser.number 4) = (checksum output.toList).toNat % 4294967296)
  return output

/-- Reads a frame, which yields nothing if it is there to be skipped. -/
def readFrame : Parser (Array UInt8) := do
  let mark ← Parser.number 4
  if mark = 0xFD2FB528 then readContent
  else
    guard (mark / 16 = 0x184D2A5)
    let _ ← Parser.take (← Parser.number 4)
    return #[]

/-- Reads frames to the end, and appends what they yield. -/
def readFrames : (frames : Nat) → Array UInt8 → Parser (Array UInt8)
  | 0, _ => failure
  | frames + 1, output => do
    let output := output ++ (← readFrame)
    if (← get).isEmpty then return output else readFrames frames output

/-- The byte string that was compressed. -/
def decompress? (input : Bytes) : Option Bytes := do
  let (output, _) ← readFrames input.length #[] input
  return output.toList

end DomainAuction.Compression
