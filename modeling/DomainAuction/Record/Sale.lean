import DomainAuction.Packing.Layout

/-!
# Sale — the records of the name auction program

The program keeps one central state, for each name that was ever auctioned the state of its sale,
and for each resale the account that is paid.
-/

namespace DomainAuction

/-- The account that signs for the program. -/
structure CentralState where
  signerNonce : UInt8
  deriving DecidableEq

def CentralState.layout : Layout CentralState :=
  .iso .u8 (fun nonce => ⟨nonce⟩) CentralState.signerNonce

/-- How far the sale of a name has come. -/
inductive AuctionStatus where
  | uninitialized
  | firstAuction
  | secondaryAuction
  deriving DecidableEq

namespace AuctionStatus

def code : AuctionStatus → UInt8
  | uninitialized => 0
  | firstAuction => 1
  | secondaryAuction => 2

def layout : Layout AuctionStatus where
  write s := [s.code]
  read := do
    match ← Reader.u8 with
    | 0 => return uninitialized
    | 1 => return firstAuction
    | 2 => return secondaryAuction
    | _ => throw .invalidAuctionStatus

end AuctionStatus

/-- The sale of a name: its auction and the currency of the bids. -/
structure NameAuction where
  status : AuctionStatus
  quoteMint : Address
  signerNonce : UInt8
  auctionAccount : Address
  deriving DecidableEq

namespace NameAuction

def layout : Layout NameAuction :=
  .sized 66 <| .iso (.both AuctionStatus.layout (.both .address (.both .u8 .address)))
    (fun (status, quoteMint, signerNonce, auctionAccount) =>
      ⟨status, quoteMint, signerNonce, auctionAccount⟩)
    (fun a => (a.status, a.quoteMint, a.signerNonce, a.auctionAccount))

/-- Whether an auction of the name was ever started. -/
def isInitialized (a : NameAuction) : Bool :=
  a.status != .uninitialized

/-- Whether the name is sold by an owner. -/
def isResale (a : NameAuction) : Bool :=
  a.status == .secondaryAuction

end NameAuction

/-- The token account that a resale pays. -/
structure ResellingState where
  tokenDestinationAccount : Address
  deriving DecidableEq

def ResellingState.layout : Layout ResellingState :=
  .iso .address (fun account => ⟨account⟩) ResellingState.tokenDestinationAccount

end DomainAuction
