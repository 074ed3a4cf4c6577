import DomainAuction.Bytes.Endian

/-!
# Bits — byte strings as rows of bits

The bits of a byte string are counted from the low bit of its first byte. Tables are read in this
order. Symbols are read from the other end: the highest bit that is set marks where to start, and
the first bits that are read are the high bits of a number.
-/

namespace DomainAuction.Compression

/-- The number that `count` bits spell, the first of which is at `position`. -/
def bitsAt (bytes : Array UInt8) (position count : Nat) : Nat :=
  let window := bytes.extract (position / 8) ((position + count + 7) / 8)
  (ofLittleEndian window.toList >>> (position % 8)) % (1 <<< count)

/-! ## From the front -/

/-- A computation that reads bits from the front of a byte string, and keeps its position. -/
abbrev BitReader (α : Type) := ReaderT (Array UInt8) (StateT Nat Option) α

namespace BitReader

/-- The next `count` bits. -/
def bits (count : Nat) : BitReader Nat := fun bytes position =>
  if position + count ≤ 8 * bytes.size then
    some (bitsAt bytes position count, position + count)
  else none

/-- What is read from the front of a byte string, with the bytes that were not touched. -/
def run? {α : Type} (reader : BitReader α) (input : Bytes) : Option (α × Bytes) := do
  let (a, position) ← reader input.toArray 0
  return (a, input.drop ((position + 7) / 8))

end BitReader

/-! ## From the end -/

/-- A row of bits that is read from its end: those below `left` are still to come. -/
structure BitStream where
  bytes : Array UInt8
  left : Nat

namespace BitStream

/-- The bits below the mark, which is in the last byte. -/
def ofBytes? (bytes : Bytes) : Option BitStream :=
  match bytes.getLast? with
  | none => none
  | some last =>
    if last = 0 then none else some ⟨bytes.toArray, 8 * (bytes.length - 1) + last.toNat.log2⟩

/-- The next `count` bits, with zeros behind the last one. -/
def peek (count : Nat) (s : BitStream) : Nat :=
  if count ≤ s.left then bitsAt s.bytes (s.left - count) count
  else bitsAt s.bytes 0 s.left <<< (count - s.left)

/-- Leaves out the next `count` bits. -/
def skip? (count : Nat) (s : BitStream) : Option BitStream :=
  if count ≤ s.left then some { s with left := s.left - count } else none

/-- Takes the next `count` bits. -/
def take? (count : Nat) (s : BitStream) : Option (Nat × BitStream) :=
  (s.skip? count).map fun rest => (s.peek count, rest)

end BitStream

end DomainAuction.Compression
