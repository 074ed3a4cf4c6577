import DomainAuction.Bytes.Octets

/-!
# Parser — reading byte strings from the front

A parser takes what it needs off the front of a byte string and leaves the rest to the next one; it
gives up when too little is there or when something is not as it should be.
-/

namespace DomainAuction

/-- A computation that takes values off the front of a byte string, or gives up. -/
abbrev Parser (α : Type) := StateT Bytes Option α

namespace Parser

def byte : Parser UInt8 := fun input =>
  match input with
  | [] => none
  | b :: rest => some (b, rest)

def octets (n : Nat) : Parser (Octets n) := fun input =>
  if h : n ≤ input.length then
    some (⟨input.take n, List.length_take_of_le h⟩, input.drop n)
  else none

/-- The next `count` bytes. -/
def take (count : Nat) : Parser Bytes := fun input =>
  if count ≤ input.length then some (input.take count, input.drop count) else none

/-- A little-endian number of `width` bytes. -/
def number (width : Nat) : Parser Nat :=
  ofLittleEndian <$> take width

/-- All that is left. -/
def remaining : Parser Bytes := fun input =>
  some (input, [])

/-- `count` values, one behind the other. -/
def times {α : Type} (p : Parser α) : (count : Nat) → Parser (List α)
  | 0 => return []
  | count + 1 => return (← p) :: (← times p count)

end Parser

end DomainAuction
