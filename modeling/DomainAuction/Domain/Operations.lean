import DomainAuction.Domain.Basic
import DomainAuction.Operation.Basic
import DomainAuction.Record.Sale

/-!
# Operations — the requests that concern a domain

For each request to the program, the operation with the accounts of the domain and its deployment
filled in. What is left to say is who pays, who signs, and where the money goes.
-/

namespace DomainAuction

/-- The side of the bidder in a claim. -/
structure ClaimParams where
  feePayer : Address
  bidderWallet : Address
  bidderPotToken : Address
  /-- A token account of the seller that lowers the fee of a resale. -/
  discountAccount : Option Address
  buyNow : Address
  referrer : Option Address

/-- A price at which a resale ends at once, and the account that keeps watch over it. -/
structure BuyNow where
  maxPrice : UInt64
  account : Address

namespace Domain

variable (x : Domain)

/-- Starts the first auction of the name. -/
def createAuction (feePayer quoteMint : Address) : Operation :=
  .createAuction
    { rentSysvar
      clockSysvar
      namingServiceProgram := x.deployment.namingServiceProgram
      rootDomain := x.deployment.rootDomain
      nameAccount := x.nameAccount
      reverseLookup := x.reverseLookup
      systemProgram
      auctionProgram := x.deployment.auctionProgram
      auction := x.auction
      centralState := x.deployment.centralState
      state := x.state
      feePayer
      quoteMint
      priceOracle := x.deployment.priceOracle }
    x.name

/-- Starts the first auction of the name in an account made for it. -/
def legacyCreateAuction (feePayer quoteMint auction : Address) : Operation :=
  .legacyCreateAuction
    { rentSysvar
      clockSysvar
      namingServiceProgram := x.deployment.namingServiceProgram
      rootDomain := x.deployment.rootDomain
      nameAccount := x.nameAccount
      systemProgram
      auctionProgram := x.deployment.auctionProgram
      auction
      state := x.state
      feePayer
      quoteMint }
    x.hashedName

/-- The account with the bids of one wallet in an auction. -/
def bidderPot (auction bidder : Address) : Address :=
  (DerivedAccount.bidderPot x.deployment.auctionProgram auction bidder).address

/-- Hands the name to the winner of the auction that the state of the sale names. -/
def claim (sale : NameAuction) (params : ClaimParams) (destinationToken : Address)
    (space : UInt32) : Operation :=
  .claim
    { clockSysvar
      tokenProgram
      namingServiceProgram := x.deployment.namingServiceProgram
      rootDomain := x.deployment.rootDomain
      nameAccount := x.nameAccount
      systemProgram
      auctionProgram := x.deployment.auctionProgram
      auction := sale.auctionAccount
      centralState := x.deployment.centralState
      state := x.state
      resellingState := x.resellingState
      feePayer := params.feePayer
      quoteMint := sale.quoteMint
      destinationToken
      bidderWallet := params.bidderWallet
      bidderPot := x.bidderPot sale.auctionAccount params.bidderWallet
      bidderPotToken := params.bidderPotToken
      quoteVault := x.deployment.quoteVault sale.quoteMint
      discountAccount := params.discountAccount.getD (.zero 32)
      buyNow := params.buyNow
      solVault := x.deployment.solVault
      referrer := params.referrer
      isResell := sale.isResale }
    x.hashedName space

/-- The same in the older protocol, where `lamports` pays for the new name account. -/
def legacyClaim (sale : NameAuction) (params : ClaimParams) (lamports : UInt64)
    (space : UInt32) : Operation :=
  .legacyClaim
    { tokenProgram
      clockSysvar
      namingServiceProgram := x.deployment.namingServiceProgram
      rootDomain := x.deployment.rootDomain
      nameAccount := x.nameAccount
      systemProgram
      auctionProgram := x.deployment.auctionProgram
      auction := sale.auctionAccount
      centralState := x.deployment.centralState
      state := x.state
      feePayer := params.feePayer
      quoteMint := sale.quoteMint
      destinationToken := x.deployment.quoteVault sale.quoteMint
      bidderWallet := params.bidderWallet
      bidderPot := x.bidderPot sale.auctionAccount params.bidderWallet
      bidderPotToken := params.bidderPotToken }
    x.hashedName lamports space

/-- The accounts of a resale. -/
def resellAccounts (nameOwner feePayer destinationToken : Address) (buyNow : Option Address) :
    ResellAccounts :=
  { rentSysvar
    clockSysvar
    namingServiceProgram := x.deployment.namingServiceProgram
    rootDomain := x.deployment.rootDomain
    nameAccount := x.nameAccount
    nameOwner
    reverseLookup := x.reverseLookup
    systemProgram
    auctionProgram := x.deployment.auctionProgram
    auction := x.auction
    centralState := x.deployment.centralState
    state := x.state
    resellingState := x.resellingState
    destinationToken
    feePayer
    buyNow }

/-- Puts an owned name up for auction. -/
def resell (nameOwner feePayer destinationToken : Address) (minimumPrice endAuctionAt : UInt64)
    (buyNow : Option BuyNow) : Operation :=
  .resell (x.resellAccounts nameOwner feePayer destinationToken (buyNow.map BuyNow.account))
    x.name minimumPrice endAuctionAt (buyNow.map BuyNow.maxPrice)

def legacyResell (nameOwner feePayer destinationToken : Address) (minimumPrice : UInt64) :
    Operation :=
  .legacyResell (x.resellAccounts nameOwner feePayer destinationToken none) x.name minimumPrice

/-- Stores the text of the name. Under a parent other than the root, the owner of the parent
signs. -/
def createReverse (feePayer : Address) (parentNameOwner : Option Address) : Operation :=
  .createReverse
    { rentSysvar
      namingServiceProgram := x.deployment.namingServiceProgram
      rootDomain := x.deployment.rootDomain
      reverseLookup := x.reverseLookup
      centralState := x.deployment.centralState
      feePayer
      parentName := x.parentName?
      parentNameOwner }
    x.name

/-- Ends a resale that nobody bid on. -/
def endAuction (auctionCreator destinationToken : Address) : Operation :=
  .endAuction
    { clockSysvar
      namingServiceProgram := x.deployment.namingServiceProgram
      rootDomain := x.deployment.rootDomain
      nameAccount := x.nameAccount
      auctionProgram := x.deployment.auctionProgram
      auction := x.auction
      centralState := x.deployment.centralState
      state := x.state
      auctionCreator
      resellingState := x.resellingState
      destinationToken
      solVault := x.deployment.solVault
      systemProgram }
    x.name

/-- Buys the name at its fixed price. -/
def register (buyer buyerTokenSource : Address) (space : UInt32) : Operation :=
  .register
    { rentSysvar
      namingServiceProgram := x.deployment.namingServiceProgram
      rootDomain := x.deployment.rootDomain
      nameAccount := x.nameAccount
      reverseLookup := x.reverseLookup
      systemProgram
      centralState := x.deployment.centralState
      buyer
      buyerTokenSource
      priceOracle := x.deployment.priceOracle
      quoteVault := x.deployment.fidaVault
      tokenProgram
      state := x.state }
    x.name space

/-- Takes back a name that the central state holds. -/
def takeBack : Operation :=
  .takeBack
    { admin := x.deployment.admin
      namingServiceProgram := x.deployment.namingServiceProgram
      nameAccount := x.nameAccount
      centralState := x.deployment.centralState
      rootDomain := x.deployment.rootDomain }

end Domain

/-- Creates the central state of the program, with its bump as the nonce. -/
def Deployment.initCentralState (d : Deployment) (feePayer : Address) : Operation :=
  let (state, stateNonce) := (DerivedAccount.centralState d.programId).find
  .init { state, systemProgram, feePayer, rentSysvar } stateNonce

end DomainAuction
