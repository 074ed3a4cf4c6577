import DomainAuction.Compression.Entropy

/-!
# Huffman — codes for literals

Each byte has a weight: the greater it is, the shorter is the code of the byte, and zero means that
the byte does not occur. The weight of the last byte is not sent, because it makes the sum of all
shares a power of two. Codes are numbered from the longest to the shortest.
-/

namespace DomainAuction.Compression

/-- For each row of `depth` bits, the byte whose code it starts with and the length of the code. -/
structure HuffmanTable where
  depth : Nat
  entries : Array (UInt8 × Nat)

namespace HuffmanTable

/-- No code is longer. -/
def maxDepth : Nat := 12

/-! ## Weights -/

/-- The weights that two states of a table yield by turns, most recent first. The end of the bits
stops one state, and the other one yields a last weight. -/
def alternate (table : EntropyTable) :
    (count : Nat) → (current other : Cell) → BitStream → List Nat → Option (List Nat)
  | 0, _, _, _, _ => none
  | count + 1, current, other, bits, weights =>
    match table.next? current bits with
    | some (next, bits) => alternate table count other next bits (current.symbol :: weights)
    | none => some (other.symbol :: current.symbol :: weights)

/-- Weights that are coded with a table of their own, which comes first. -/
def codedWeights? (input : Bytes) : Option (List Nat) := do
  let (table, rest) ← EntropyTable.read 6 255 input
  let bits ← BitStream.ofBytes? rest
  let (first, bits) ← table.start? bits
  let (second, bits) ← table.start? bits
  return (← alternate table 254 first second bits []).reverse

/-- Weights of four bits each. -/
def plainWeights (input : Bytes) : List Nat :=
  input.flatMap fun b => [b.toNat / 16, b.toNat % 16]

/-- Reads all weights but the last. -/
def readWeights : Parser (List Nat) := do
  let size := (← Parser.byte).toNat
  if size < 128 then
    codedWeights? (← Parser.take size)
  else
    let count := size - 127
    return (plainWeights (← Parser.take ((count + 1) / 2))).take count

/-! ## Tables -/

/-- How many rows of bits start with the code of a byte. -/
def rows (weight : Nat) : Nat :=
  (1 <<< weight) / 2

/-- The table of the given weights and the one that is missing. Longest codes come in pairs. -/
def ofWeights? (weights : List Nat) : Option HuffmanTable := do
  guard (weights.all (· ≤ maxDepth))
  let used := weights.foldl (fun sum weight => sum + rows weight) 0
  guard (used ≠ 0)
  let depth := used.log2 + 1
  guard (depth ≤ maxDepth)
  let unused := 1 <<< depth - used
  let last := unused.log2 + 1
  guard (rows last = unused)
  let weights := weights ++ [last]
  guard (2 ≤ weights.count 1 ∧ weights.count 1 % 2 = 0)
  let entries := (List.range depth).flatMap fun shorter =>
    weights.zipIdx.flatMap fun (weight, symbol) =>
      if weight = shorter + 1 then
        List.replicate (rows weight) (UInt8.ofNat symbol, depth - shorter)
      else []
  return ⟨depth, entries.toArray⟩

def read : Parser HuffmanTable := do
  ofWeights? (← readWeights)

/-! ## Decoding -/

/-- Appends `count` bytes, whose codes are all that is left. -/
def decodeAll (table : HuffmanTable) :
    (count : Nat) → BitStream → Array UInt8 → Option (Array UInt8)
  | 0, bits, output => if bits.left = 0 then some output else none
  | count + 1, bits, output =>
    let (symbol, size) := table.entries.getD (bits.peek table.depth) (0, 0)
    match bits.skip? size with
    | some rest => decodeAll table count rest (output.push symbol)
    | none => none

/-- Appends the `count` bytes that a byte string codes. -/
def decode? (table : HuffmanTable) (count : Nat) (input : Bytes) (output : Array UInt8) :
    Option (Array UInt8) := do
  table.decodeAll count (← BitStream.ofBytes? input) output

end HuffmanTable

end DomainAuction.Compression
