import DomainAuction.Packing.Reader

/-!
# Layout — how values lie in bytes

A layout pairs the way a kind of value is written with the way it is read. Layouts of numbers,
texts and addresses are put together, one behind the other, to the layouts of records and
instructions, so writing and reading follow one description.
-/

namespace DomainAuction

/-- How the values of a type are written and read. -/
structure Layout (α : Type) where
  write : α → Bytes
  read : Reader α

namespace Layout

variable {α β : Type}

/-! ## Whole byte strings -/

/-- Reads a value off the front and leaves the rest unread. -/
def decode (l : Layout α) (input : Bytes) : Except AuctionError α :=
  l.read.value input

/-- Reads a value that takes up the whole byte string. -/
def decodeExact (l : Layout α) (input : Bytes) : Except AuctionError α :=
  Reader.value (do let a ← l.read; Reader.finish; return a) input

/-! ## Numbers and byte strings -/

def u8 : Layout UInt8 where
  write n := littleEndian 1 n.toNat
  read := Reader.u8

def u32 : Layout UInt32 where
  write n := littleEndian 4 n.toNat
  read := Reader.u32

def u64 : Layout UInt64 where
  write n := littleEndian 8 n.toNat
  read := Reader.u64

def octets (n : Nat) : Layout (Octets n) where
  write := Octets.toList
  read := Reader.octets n

def address : Layout Address := octets 32

/-- A yes-or-no byte. Every byte but zero reads as yes. -/
def flag : Layout Bool where
  write b := [if b then 1 else 0]
  read := do return (← Reader.u8) != 0

/-- A text behind its length in bytes. The length is written in 32 bits, so of a longer text only
the remainder is recorded. -/
def text : Layout String where
  write s := u32.write (UInt32.ofNat (utf8 s).length) ++ utf8 s
  read := Reader.text

/-- A number behind a presence byte. -/
def optionalU64 : Layout (Option UInt64) where
  write
    | none => [0]
    | some n => 1 :: u64.write n
  read := Reader.optionalU64

/-- Byte strings of fixed length behind their length, which must be right. -/
def measured (n : Nat) : Layout (Octets n) where
  write a := u32.write (UInt32.ofNat n) ++ a.toList
  read := do
    if (← Reader.u32).toNat = n then Reader.octets n else throw .invalidStringLength

/-! ## Putting layouts together -/

/-- One value behind the other. -/
def both (l : Layout α) (m : Layout β) : Layout (α × β) where
  write p := l.write p.1 ++ m.write p.2
  read := do return (← l.read, ← m.read)

/-- The same bytes for another type. -/
def iso (l : Layout α) (forth : α → β) (back : β → α) : Layout β where
  write b := l.write (back b)
  read := forth <$> l.read

/-- Refuses inputs shorter than `size` before any field is looked at. -/
def sized (size : Nat) (l : Layout α) : Layout α where
  write := l.write
  read := do
    if (← get).length < size then throw .insufficientByteLength
    l.read

/-- A point in time, as the 64 bits of its two's complement. -/
def optionalTime : Layout (Option Int64) :=
  optionalU64.iso (Option.map UInt64.toInt64) (Option.map Int64.toUInt64)

end Layout

end DomainAuction
