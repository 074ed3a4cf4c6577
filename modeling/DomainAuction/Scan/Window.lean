import DomainAuction.Bytes.Octets

/-!
# Window — picking accounts by some of their bytes

A scan hands over the accounts of a program whose data show given bytes at given places. Bytes say
less than records, so a scan may find accounts that were not asked for, and its caller looks again
at what it decodes.
-/

namespace DomainAuction

/-- Bytes that the data of an account must have at an offset. -/
structure Window where
  offset : Nat
  bytes : Bytes
  deriving DecidableEq

namespace Window

/-- Whether a byte string has the bytes at the offset, and reaches that far. -/
def shows (w : Window) (data : Bytes) : Bool :=
  w.offset ≤ data.length && w.bytes.isPrefixOf (data.drop w.offset)

/-- Whether a byte string has the bytes of every window. -/
def allShow (windows : List Window) (data : Bytes) : Bool :=
  windows.all (·.shows data)

/-! ## Windows for bids and names -/

/-- The pots of a bidder. -/
def ofBidder (bidder : Address) : List Window :=
  [⟨32, bidder.toList⟩]

/-- The names of an owner, under one parent or under any. -/
def ofOwner (owner : Address) (parent : Option Address) : List Window :=
  ⟨32, owner.toList⟩ :: parent.toList.map fun p => ⟨0, p.toList⟩

end Window

end DomainAuction
