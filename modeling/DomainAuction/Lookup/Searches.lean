import DomainAuction.Deployment
import DomainAuction.Node.Basic
import DomainAuction.Scan.EndingAuctions

/-!
# Searches — bids, names and ending auctions

A search scans the accounts of a program through windows on their bytes, decodes what it finds, and
keeps what was asked for. Auctions that end soon take two scans: those without a bid are looked for
first, so that a bid made meanwhile moves an auction to the scan that is still to come.
-/

namespace DomainAuction.Node

variable {σ ε : Type} (node : Node σ ε)

/-- The accounts that decode to something that was asked for. -/
def decodeAll {α : Type} (decode : Bytes → Option α) (accounts : List (Address × Bytes)) :
    List (Address × α) :=
  accounts.filterMap fun (address, data) => (decode data).map fun a => (address, a)

/-- The pot that data hold, if it is the bidder's. -/
def potOf (bidder : Address) (data : Bytes) : Option BidderPot :=
  (BidderPot.layout.decode data).toOption.filter (·.bidderWallet == bidder)

/-- The pots of a bidder, one for each auction with a bid. -/
def bidderAuctions (d : Deployment) (bidder : Address) : Session σ ε (List (Address × BidderPot)) := do
  let found ← node.ask (.programAccounts d.auctionProgram (Window.ofBidder bidder))
  return decodeAll (potOf bidder) found

/-- The name accounts of an owner under the root domain. -/
def ownedDomains (d : Deployment) (owner : Address) : Session σ ε (List Address) := do
  let found : List (Address × Bytes) ←
    node.ask (.programAccounts d.namingServiceProgram (Window.ofOwner owner (some d.rootDomain)))
  return found.map Prod.fst

/-- The accounts that the windows for ending auctions find, those without a bid first. -/
def scanEndingAuctions (d : Deployment) (now interval : Int64) :
    Session σ ε (List (Address × Bytes)) := do
  let withoutBid : List (Address × Bytes) ←
    node.ask (.programAccounts d.auctionProgram (endingWithoutBid now interval))
  let withBid : List (Address × Bytes) ←
    node.ask (.programAccounts d.auctionProgram (endingWithBid now interval))
  return withoutBid ++ withBid

/-- The header that data hold, if its auction ends in time. -/
def endingHeaderOf (now interval : Int64) (data : Bytes) : Option AuctionHeader :=
  (AuctionHeader.layout.decode data).toOption.filter (·.endsWithin now interval)

/-- The auctions that end within `interval` seconds of `now`, those without a bid first. -/
def endingAuctions (d : Deployment) (now interval : Int64) :
    Session σ ε (List (Address × AuctionHeader)) := do
  let found ← node.scanEndingAuctions d now interval
  return decodeAll (endingHeaderOf now interval) found

end DomainAuction.Node
