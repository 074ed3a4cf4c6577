import DomainAuction.Packing.Layout

/-!
# Auction — the records of the auction program

An auction account starts with a header, followed by data that this library leaves alone, so a
header is read off the front of a longer byte string. A bidder pot holds the tokens that one
wallet has bid in one auction.
-/

namespace DomainAuction

/-- The size of an auction account without bids. -/
def baseAuctionSize : Nat := 182

/-- The owner and the timing of an auction. Times are seconds since 1970. -/
structure AuctionHeader where
  authority : Address
  resource : Address
  tokenMint : Address
  lastBid : Option Int64
  endedAt : Option Int64
  endAuctionAt : Option Int64
  endAuctionGap : Option Int64
  deriving DecidableEq

namespace AuctionHeader

def layout : Layout AuctionHeader :=
  .iso
    (.both .address (.both .address (.both .address
      (.both .optionalTime (.both .optionalTime (.both .optionalTime .optionalTime))))))
    (fun (authority, resource, tokenMint, lastBid, endedAt, endAuctionAt, endAuctionGap) =>
      ⟨authority, resource, tokenMint, lastBid, endedAt, endAuctionAt, endAuctionGap⟩)
    (fun h => (h.authority, h.resource, h.tokenMint, h.lastBid, h.endedAt, h.endAuctionAt,
      h.endAuctionGap))

/-- Where the presence byte of the end time lies in a header without an actual end: behind three
addresses and the two times before it. -/
def endAuctionAtOffset (h : AuctionHeader) : Nat :=
  96 + (if h.lastBid.isSome then 9 else 1) + 1

end AuctionHeader

/-- The end of a span of `interval` seconds from `now`, kept in the range of times. -/
def spanEnd (now interval : Int64) : Int64 :=
  .ofInt (max (min (now.toInt + interval.toInt) Int64.maxValue.toInt) Int64.minValue.toInt)

/-- Whether an auction is scheduled to end within `interval` seconds of `now` and has not ended. -/
def AuctionHeader.endsWithin (h : AuctionHeader) (now interval : Int64) : Bool :=
  match h.endedAt, h.endAuctionAt with
  | none, some t => now ≤ t && t ≤ spanEnd now interval
  | _, _ => false

/-- The tokens that a wallet has bid in an auction. -/
structure BidderPot where
  bidderPotToken : Address
  bidderWallet : Address
  auction : Address
  emptied : Bool
  deriving DecidableEq

def BidderPot.layout : Layout BidderPot :=
  .sized 97 <| .iso (.both .address (.both .address (.both .address .flag)))
    (fun (token, wallet, auction, emptied) => ⟨token, wallet, auction, emptied⟩)
    (fun p => (p.bidderPotToken, p.bidderWallet, p.auction, p.emptied))

end DomainAuction
