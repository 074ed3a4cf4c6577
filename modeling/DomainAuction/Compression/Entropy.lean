import DomainAuction.Bytes.Parser
import DomainAuction.Compression.Bits

/-!
# Entropy — tables for symbols of uneven frequency

A table has a power of two of cells, shared out among the symbols by how often they occur. Each cell
stands for a symbol and tells how many bits to read in order to find the next cell. What is sent is
the number of cells of each symbol; a symbol that occurs less often than once has a cell at the end
of the table, from which all bits of the next cell have to be read.
-/

namespace DomainAuction.Compression

/-- How many cells a symbol has. -/
inductive Share where
  | cells (count : Nat)
  /-- One cell at the end. -/
  | rare
  deriving DecidableEq

namespace Share

/-- The cells taken up. -/
def size : Share → Nat
  | cells count => count
  | rare => 1

/-! ## Reading -/

/-- One share where `free` cells are not shared out. The `free + 2` shares that are possible take
one bit less as long as the longer codes suffice for the rest. -/
def read (free : Nat) : BitReader Share := do
  let width := (free + 1).log2
  let short := 2 * (1 <<< width) - 2 - free
  let low ← BitReader.bits width
  let code ← if low < short then pure low else do
    let code := low + (← BitReader.bits 1) <<< width
    pure (if code < 1 <<< width then code else code - short)
  return if code = 0 then rare else cells (code - 1)

/-- How many more symbols have no cells: three for each pair of bits that are set, and at last the
number that another pair spells. -/
def readGap : (pairs : Nat) → BitReader Nat
  | 0 => failure
  | pairs + 1 => do
    let count ← BitReader.bits 2
    if count = 3 then return 3 + (← readGap pairs) else return count

/-- The shares of at most `symbols` symbols, until no cell is free. The next `gap` symbols have no
cells. -/
def readAll : (symbols free gap : Nat) → BitReader (List Share)
  | _, 0, _ => return []
  | 0, _ + 1, _ => failure
  | symbols + 1, free, gap + 1 => return .cells 0 :: (← readAll symbols free gap)
  | symbols + 1, free, 0 => do
    let share ← read free
    let gap ← if share = cells 0 then readGap 256 else pure 0
    return share :: (← readAll symbols (free - share.size) gap)

end Share

/-! ## Tables -/

/-- A cell: its symbol, and the bits to be read and added to `base` for the next cell. -/
structure Cell where
  symbol : Nat
  bits : Nat
  base : Nat
  deriving Inhabited

/-- A table of `2 ^ accuracy` cells. -/
structure EntropyTable where
  accuracy : Nat
  cells : Array Cell

namespace EntropyTable

/-- The symbol of each cell. Rare symbols go to the end, and the cells of the others are scattered
by a step that is prime to the size. -/
def scatter (accuracy : Nat) (shares : List Share) : Array Nat :=
  let size := 1 <<< accuracy
  let rare := (shares.zipIdx.filter (·.1 = .rare)).map (·.2)
  let step := size / 2 + size / 8 + 3
  let places := ((List.range size).map fun i => i * step % size).filter (· < size - rare.length)
  let common := shares.zipIdx.flatMap fun (share, symbol) =>
    match share with
    | .cells count => List.replicate count symbol
    | .rare => []
  let ends := (List.range rare.length).map fun i => size - 1 - i
  (places.zip common ++ ends.zip rare).foldl (fun symbols (place, symbol) =>
    symbols.setIfInBounds place symbol) (Array.replicate size 0)

/-- The table in which the symbols have their shares. The cells of a symbol are numbered from its
share upwards, in the order of the table; such a number and the bits behind it name the next cell. -/
def ofShares (accuracy : Nat) (shares : List Share) : EntropyTable :=
  let numbers := (shares.map Share.size).toArray
  let (cells, _) := (scatter accuracy shares).foldl (fun (cells, numbers) symbol =>
    let number := numbers.getD symbol 1
    let bits := accuracy - number.log2
    (cells.push ⟨symbol, bits, number <<< bits - 1 <<< accuracy⟩,
      numbers.setIfInBounds symbol (number + 1))) (#[], numbers)
  ⟨accuracy, cells⟩

/-- The table of a single symbol, for which no bits are needed. -/
def single (symbol : Nat) : EntropyTable :=
  ⟨0, #[⟨symbol, 0, 0⟩]⟩

/-- Reads a table with at most `2 ^ maxAccuracy` cells for symbols up to `maxSymbol`. -/
def read (maxAccuracy maxSymbol : Nat) : Parser EntropyTable := fun input =>
  BitReader.run? (do
    let accuracy := (← BitReader.bits 4) + 5
    if maxAccuracy < accuracy then failure
    return ofShares accuracy (← Share.readAll (maxSymbol + 1) (1 <<< accuracy) 0)) input

/-- The cell with a number. -/
def cell (table : EntropyTable) (number : Nat) : Cell :=
  table.cells.getD number default

/-- The first cell. -/
def start? (table : EntropyTable) (bits : BitStream) : Option (Cell × BitStream) := do
  let (number, bits) ← bits.take? table.accuracy
  return (table.cell number, bits)

/-- The cell behind another one. -/
def next? (table : EntropyTable) (cell : Cell) (bits : BitStream) : Option (Cell × BitStream) := do
  let (number, bits) ← bits.take? cell.bits
  return (table.cell (cell.base + number), bits)

end EntropyTable

end DomainAuction.Compression
