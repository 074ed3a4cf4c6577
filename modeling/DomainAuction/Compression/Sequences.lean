import DomainAuction.Compression.Entropy

/-!
# Sequences — what a block copies

A sequence says how many literals come next, and then how many bytes are copied from how far back.
Each of the three numbers has a code of its own, followed by bits that tell apart the numbers with
this code. Distances that were used lately have short names.
-/

namespace DomainAuction.Compression

/-! ## Codes -/

/-- The numbers with one code: the least of them, and the bits that tell them apart. -/
structure CodeRange where
  least : Nat
  bits : Nat
  deriving Inhabited

/-- Consecutive ranges from `least` on, with the given numbers of bits. -/
def CodeRange.consecutive (least : Nat) : List Nat → List CodeRange
  | [] => []
  | bits :: rest => ⟨least, bits⟩ :: consecutive (least + 1 <<< bits) rest

/-- A kind of number in sequences: what its codes stand for, how many cells its tables may have,
and the table that is used if none is sent. -/
structure CodeKind where
  ranges : Array CodeRange
  maxAccuracy : Nat
  standard : EntropyTable

namespace CodeKind

def maxCode (kind : CodeKind) : Nat :=
  kind.ranges.size - 1

/-- `count` symbols with the same share. -/
def run (count share : Nat) : List Share :=
  List.replicate count (.cells share)

/-- Numbers of literals. -/
def literalLength : CodeKind where
  ranges := (CodeRange.consecutive 0 (List.replicate 16 0
    ++ [1, 1, 1, 1, 2, 2, 3, 3, 4, 6, 7, 8, 9, 10, 11, 12, 13, 14, 15, 16])).toArray
  maxAccuracy := 9
  standard := .ofShares 6 (run 1 4 ++ run 1 3 ++ run 11 2 ++ run 3 1 ++ run 9 2 ++ run 1 3
    ++ run 1 2 ++ run 5 1 ++ List.replicate 4 .rare)

/-- Numbers of bytes that are copied, at least three. -/
def matchLength : CodeKind where
  ranges := (CodeRange.consecutive 3 (List.replicate 32 0
    ++ [1, 1, 1, 1, 2, 2, 3, 3, 4, 4, 5, 7, 8, 9, 10, 11, 12, 13, 14, 15, 16])).toArray
  maxAccuracy := 9
  standard := .ofShares 6 (run 1 1 ++ run 1 4 ++ run 1 3 ++ run 6 2 ++ run 37 1
    ++ List.replicate 7 .rare)

/-- Distances, three more than they are; the least of these numbers are names. -/
def distance : CodeKind where
  ranges := (CodeRange.consecutive 1 (List.range 32)).toArray
  maxAccuracy := 8
  standard := .ofShares 5 (run 6 1 ++ run 3 2 ++ run 15 1 ++ List.replicate 5 .rare)

/-- Reads the table for a block: the standard one, one with a single code, one that is sent, or the
one of the block before. -/
def readTable (kind : CodeKind) (known : Option EntropyTable) :
    (mode : Nat) → Parser EntropyTable
  | 0 => return kind.standard
  | 1 => do
    let code := (← Parser.byte).toNat
    guard (code ≤ kind.maxCode)
    return .single code
  | 2 => EntropyTable.read kind.maxAccuracy kind.maxCode
  | _ => known

/-- The number whose code is in a cell. -/
def number? (kind : CodeKind) (cell : Cell) (bits : BitStream) : Option (Nat × BitStream) := do
  let range := kind.ranges.getD cell.symbol default
  let (n, bits) ← bits.take? range.bits
  return (range.least + n, bits)

end CodeKind

/-! ## Sequences -/

/-- How many literals come next, and how many bytes are copied then. `distance` is still coded. -/
structure Sequence where
  literals : Nat
  copied : Nat
  distance : Nat

/-- The tables of the three kinds of numbers. -/
structure SequenceTables where
  literalLength : EntropyTable
  matchLength : EntropyTable
  distance : EntropyTable

/-- Where the tables stand while sequences are read. -/
structure SequenceCells where
  literalLength : Cell
  matchLength : Cell
  distance : Cell

namespace SequenceTables

def start? (tables : SequenceTables) (bits : BitStream) :
    Option (SequenceCells × BitStream) := do
  let (literalLength, bits) ← tables.literalLength.start? bits
  let (distance, bits) ← tables.distance.start? bits
  let (matchLength, bits) ← tables.matchLength.start? bits
  return (⟨literalLength, matchLength, distance⟩, bits)

def next? (tables : SequenceTables) (cells : SequenceCells) (bits : BitStream) :
    Option (SequenceCells × BitStream) := do
  let (literalLength, bits) ← tables.literalLength.next? cells.literalLength bits
  let (matchLength, bits) ← tables.matchLength.next? cells.matchLength bits
  let (distance, bits) ← tables.distance.next? cells.distance bits
  return (⟨literalLength, matchLength, distance⟩, bits)

/-- The tables that a block needs, where two bits for each kind say where its table comes from. -/
def read (known : Option SequenceTables) : Parser SequenceTables := do
  let modes := (← Parser.byte).toNat
  guard (modes % 4 = 0)
  let literalLength ←
    CodeKind.literalLength.readTable (known.map (·.literalLength)) (modes / 64)
  let distance ← CodeKind.distance.readTable (known.map (·.distance)) (modes / 16 % 4)
  let matchLength ← CodeKind.matchLength.readTable (known.map (·.matchLength)) (modes / 4 % 4)
  return ⟨literalLength, matchLength, distance⟩

end SequenceTables

namespace Sequence

/-- The sequence that some cells stand for. -/
def ofCells? (cells : SequenceCells) (bits : BitStream) : Option (Sequence × BitStream) := do
  let (distance, bits) ← CodeKind.distance.number? cells.distance bits
  let (copied, bits) ← CodeKind.matchLength.number? cells.matchLength bits
  let (literals, bits) ← CodeKind.literalLength.number? cells.literalLength bits
  return (⟨literals, copied, distance⟩, bits)

/-- The sequences of a block, most recent first. After the last one no bits are left. -/
def decodeAll (tables : SequenceTables) :
    (more : Nat) → SequenceCells → BitStream → List Sequence → Option (List Sequence)
  | 0, cells, bits, sequences =>
    match ofCells? cells bits with
    | some (sequence, rest) => if rest.left = 0 then some (sequence :: sequences) else none
    | none => none
  | more + 1, cells, bits, sequences =>
    match ofCells? cells bits with
    | some (sequence, rest) =>
      match tables.next? cells rest with
      | some (cells, rest) => decodeAll tables more cells rest (sequence :: sequences)
      | none => none
    | none => none

/-- How many sequences a block has. -/
def readCount : Parser Nat := do
  let first := (← Parser.byte).toNat
  if first < 128 then return first
  else if first < 255 then return 256 * (first - 128) + (← Parser.byte).toNat
  else return 32512 + (← Parser.number 2)

/-- Reads the sequences to the end of a block, with the tables of the block before. The tables for
the next block are left beside them. -/
def read (known : Option SequenceTables) : Parser (List Sequence × Option SequenceTables) := do
  match ← readCount with
  | 0 =>
    guard (← Parser.remaining).isEmpty
    return ([], known)
  | more + 1 =>
    let tables ← SequenceTables.read known
    let bits ← BitStream.ofBytes? (← Parser.remaining)
    let (cells, bits) ← tables.start? bits
    return ((← decodeAll tables more cells bits []).reverse, some tables)

end Sequence

/-! ## Distances -/

/-- The distances that were used last, most recent first. -/
structure RecentDistances where
  first : Nat
  second : Nat
  third : Nat

namespace RecentDistances

def initial : RecentDistances := ⟨1, 4, 8⟩

/-- The distances after one more. -/
def use (distance : Nat) (recent : RecentDistances) : RecentDistances :=
  ⟨distance, recent.first, recent.second⟩

/-- The distances after a sequence, whose own comes first. Numbers up to three are names of recent
distances. Where no literals come first, the most recent one has no name, and the last name is for
one byte less. -/
def advance (sequence : Sequence) (recent : RecentDistances) : RecentDistances :=
  if 3 < sequence.distance then recent.use (sequence.distance - 3)
  else
    match sequence.distance + if sequence.literals = 0 then 1 else 0 with
    | 1 => recent
    | 2 => ⟨recent.second, recent.first, recent.third⟩
    | 3 => recent.use recent.third
    | _ => recent.use (recent.first - 1)

end RecentDistances

end DomainAuction.Compression
