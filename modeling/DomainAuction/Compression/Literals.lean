import DomainAuction.Compression.Huffman

/-!
# Literals — the bytes of a block that are not copied

Literals are stored as they are, as one byte that is repeated, or in Huffman codes. The codes may
be those of the block before; long literals are cut into four parts that are coded side by side.
-/

namespace DomainAuction.Compression.Literals

/-- Literals in four parts: the first three have the same number of bytes, and the sizes of their
codes come first. -/
def inFourParts? (table : HuffmanTable) (size : Nat) (input : Bytes) : Option (Array UInt8) := do
  guard (6 ≤ size)
  let part := (size + 3) / 4
  let ((first, second, third, fourth), _) ← (do
    let a ← Parser.number 2
    let b ← Parser.number 2
    let c ← Parser.number 2
    return (← Parser.take a, ← Parser.take b, ← Parser.take c, ← Parser.remaining) :
      Parser (Bytes × Bytes × Bytes × Bytes)) input
  let output ← table.decode? part first #[]
  let output ← table.decode? part second output
  let output ← table.decode? part third output
  table.decode? (size - 3 * part) fourth output

/-- What is decoded from a field of `width` bits at `position`. -/
def field (header position width : Nat) : Nat :=
  (header >>> position) % (1 <<< width)

/-- Reads the literals of a block, of which there may be at most `limit`, with the codes of the
block before. The codes for the next block are left beside them. -/
def read (limit : Nat) (known : Option HuffmanTable) :
    Parser (Array UInt8 × Option HuffmanTable) := do
  let first := (← Parser.byte).toNat
  let format := field first 2 2
  -- The header, of which `more` bytes are still to come.
  let header (more : Nat) : Parser Nat := return first + 256 * (← Parser.number more)
  let kind := first % 4
  if kind < 2 then
    let size ← match format with
      | 1 => (· / 16) <$> header 1
      | 3 => (· / 16) <$> header 2
      | _ => pure (first / 8)
    guard (size ≤ limit)
    if kind = 0 then return ((← Parser.take size).toArray, known)
    else return (Array.replicate size (← Parser.byte), known)
  else
    let (more, width) := match format with
      | 2 => (3, 14)
      | 3 => (4, 18)
      | _ => (2, 10)
    let header ← header more
    let size := field header 4 width
    guard (size ≤ limit)
    let input ← Parser.take (field header (4 + width) width)
    let (table, codes) ←
      if kind = 2 then HuffmanTable.read input else known.map fun table => (table, input)
    let literals ←
      if format = 0 then table.decode? size codes #[] else inFourParts? table size codes
    return (literals, some table)

end DomainAuction.Compression.Literals
