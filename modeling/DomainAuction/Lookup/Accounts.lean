import DomainAuction.Domain.Basic
import DomainAuction.Node.Basic
import DomainAuction.Price.Oracle
import DomainAuction.Record.Auction
import DomainAuction.Record.Name
import DomainAuction.Record.Sale

/-!
# Accounts — looking up single records

Each lookup asks a node for one account and decodes its data. A missing account is an error of its
own for every kind of record, and the failure says which address was asked for. The state of a sale
is read as soon as a node has processed it; everything else waits for confirmation.
-/

namespace DomainAuction.Node

variable {σ ε : Type} (node : Node σ ε)

/-- The data of an account that has to exist. -/
def fetch (address : Address) (commitment : Commitment) (missing : AuctionError) :
    Session σ ε Bytes := do
  match ← node.ask (.account address commitment) with
  | some data => return data
  | none => throw ⟨[.accountMissing address], .auction missing⟩

/-- The record at the front of an account that has to exist. -/
def fetchRecord {α : Type} (layout : Layout α) (address : Address) (commitment : Commitment)
    (missing : AuctionError) : Session σ ε α := do
  Session.ofExcept (layout.decode (← node.fetch address commitment missing))

/-- Whether there is an account at an address. -/
def accountExists (address : Address) : Session σ ε Bool := do
  let data ← node.ask (.account address .confirmed)
  return Option.isSome data

/-! ## Records of a domain -/

/-- The state of the sale of a name. -/
def nameAuction (x : Domain) : Session σ ε NameAuction :=
  node.fetchRecord NameAuction.layout x.state .processed .auctionNotFound

/-- The record of a resale. -/
def resellingState (x : Domain) : Session σ ε ResellingState :=
  node.fetchRecord ResellingState.layout x.resellingState .confirmed .resellingStateNotFound

/-- The owner of a name. -/
def domainOwner (x : Domain) : Session σ ε Address := do
  let header ← node.fetchRecord NameHeader.layout x.nameAccount .confirmed .accountNotFound
  return header.owner

/-! ## Records of a deployment -/

/-- The account that signs for the program. -/
def centralState (d : Deployment) : Session σ ε CentralState :=
  node.fetchRecord CentralState.layout d.centralState .confirmed .accountNotFound

/-- The owner and the timing of an auction. -/
def auctionHeader (auction : Address) : Session σ ε AuctionHeader :=
  node.fetchRecord AuctionHeader.layout auction .confirmed .auctionNotFound

/-- The text of the name of a name account. -/
def reverseLookup (d : Deployment) (nameAccount : Address) : Session σ ε String := do
  let data ← (node.fetch (d.reverseLookup nameAccount) .confirmed .accountNotFound).within
    (.reverseLookup nameAccount)
  let record ← Session.ofExcept (ReverseLookup.layout.decode data)
  return record.name

/-! ## The price oracle -/

/-- The price that registrations are quoted in. -/
def oraclePrice (d : Deployment) : Session σ ε OraclePrice := do
  let data ← (node.fetch d.priceOracle .confirmed .accountNotFound).within .oracleAccount
  match OraclePrice.decode data with
  | .ok price => return price
  | .error e => throw ⟨[.oracleData], .auction e.toAuctionError⟩

/-- The same price as one number. -/
def oraclePriceDecimal (d : Deployment) : Session σ ε Decimal := do
  let price ← node.oraclePrice d
  match price.toDecimal with
  | some decimal => return decimal
  | none =>
    throw ⟨[.oracleDecimal price.price price.exponent], .auction .invalidOracleExponent⟩

end DomainAuction.Node
