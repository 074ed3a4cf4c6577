import DomainAuction.AuctionError
import DomainAuction.Bytes.Octets
import DomainAuction.Text.Utf8

/-!
# Reader — taking fields off the front of a byte string

A reader takes bytes off the front and gives a value, or fails and says where it stopped. A field
of fixed width takes all of its bytes or none. A text has taken its length prefix by the time its
bytes are looked at, and an optional number its presence byte.
-/

namespace DomainAuction

/-- A computation that takes fields off the front of a byte string. -/
abbrev Reader (α : Type) := EStateM AuctionError Bytes α

namespace Reader

/-- What a reader finds at the front of a byte string. -/
def value {α : Type} (r : Reader α) (input : Bytes) : Except AuctionError α :=
  match r input with
  | .ok a _ => .ok a
  | .error e _ => .error e

/-- The next `count` bytes. -/
def bytes (count : Nat) : Reader Bytes := fun input =>
  if count ≤ input.length then .ok (input.take count) (input.drop count)
  else .error .insufficientByteLength input

/-- The next `n` bytes, with their number in the type. -/
def octets (n : Nat) : Reader (Octets n) := fun input =>
  if h : n ≤ input.length then .ok ⟨input.take n, by simp [h]⟩ (input.drop n)
  else .error .insufficientByteLength input

/-- A little-endian number of `width` bytes. -/
def number (width : Nat) : Reader Nat := do
  return ofLittleEndian (← bytes width)

def u8 : Reader UInt8 := do
  return UInt8.ofNat (← number 1)

def u32 : Reader UInt32 := do
  return UInt32.ofNat (← number 4)

def u64 : Reader UInt64 := do
  return UInt64.ofNat (← number 8)

def address : Reader Address :=
  octets 32

/-- A text behind its length in bytes. -/
def text : Reader String := do
  let length := (← u32).toNat
  if length ≤ (← get).length then
    match ofUtf8? (← bytes length) with
    | some s => return s
    | none => throw .invalidUtf8
  else throw .invalidStringLength

/-- A number behind a presence byte. -/
def optionalU64 : Reader (Option UInt64) := do
  match ← u8 with
  | 0 => return none
  | 1 => return some (← u64)
  | _ => throw .invalidOptionTag

/-- Checks that nothing is left. -/
def finish : Reader Unit := do
  unless (← get).isEmpty do throw .trailingBytes

end Reader

end DomainAuction
