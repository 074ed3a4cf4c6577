import DomainAuction.Record.Auction
import DomainAuction.Scan.Window

/-!
# EndingAuctions — windows for auctions that end soon

The end of an auction is written in eight bytes, least significant first. All times between two
others share the high-order bytes that those two share, so a window on these bytes finds every
auction that ends in between, and with them the rest of their bucket. The end lies eight bytes
further on once there is a bid, so there are two sets of windows.
-/

namespace DomainAuction

/-- The eight bytes of a time. -/
def timeBytes (t : Int64) : Bytes :=
  littleEndian 8 t.toUInt64.toNat

/-- How many low-order bytes have to be left out before two byte strings agree, when both start
with their least significant byte. -/
def varyingLowBytes : Bytes → Bytes → Nat
  | a :: as, b :: bs =>
    if as = bs then (if a = b then 0 else 1) else varyingLowBytes as bs + 1
  | _, _ => 0

/-- The window on the bytes that all times from `now` to `last` share, behind the presence byte
at an offset; none if they share no byte. -/
def endTimeWindow (presence : Nat) (now last : Int64) : Option Window :=
  let varying := varyingLowBytes (timeBytes now) (timeBytes last)
  if varying = 8 then none
  else some ⟨presence + 1 + varying, (timeBytes now).drop varying⟩

/-- Auctions without a bid that have not ended: no last bid, no end, and a planned end. -/
def endingWithoutBid (now interval : Int64) : List Window :=
  ⟨96, [0, 0, 1]⟩ :: (endTimeWindow 98 now (spanEnd now interval)).toList

/-- Auctions with a bid that have not ended. -/
def endingWithBid (now interval : Int64) : List Window :=
  ⟨96, [1]⟩ :: ⟨105, [0, 1]⟩ :: (endTimeWindow 106 now (spanEnd now interval)).toList

end DomainAuction
