import DomainAuction.AuctionError
import DomainAuction.Instruction.Basic

/-!
# Accounts — the accounts that each operation names

The program reads its accounts by position, so each operation has a record of the accounts it
touches and one function that puts them in order with their rights. Optional accounts come last;
those of a parent name are only put in order once they are known to fit together.
-/

namespace DomainAuction

open AccountMeta (reads writes readsSigned writesSigned)

structure InitAccounts where
  state : Address
  systemProgram : Address
  feePayer : Address
  rentSysvar : Address

def InitAccounts.metas (x : InitAccounts) : List AccountMeta :=
  [writes x.state, reads x.systemProgram, reads x.feePayer, reads x.rentSysvar]

structure CreateAuctionAccounts where
  rentSysvar : Address
  clockSysvar : Address
  namingServiceProgram : Address
  rootDomain : Address
  nameAccount : Address
  reverseLookup : Address
  systemProgram : Address
  auctionProgram : Address
  auction : Address
  centralState : Address
  state : Address
  feePayer : Address
  quoteMint : Address
  priceOracle : Address

def CreateAuctionAccounts.metas (x : CreateAuctionAccounts) : List AccountMeta :=
  [reads x.rentSysvar, reads x.clockSysvar, reads x.namingServiceProgram, reads x.rootDomain,
   reads x.nameAccount, writes x.reverseLookup, reads x.systemProgram, reads x.auctionProgram,
   writes x.auction, reads x.centralState, writes x.state, writesSigned x.feePayer,
   reads x.quoteMint, reads x.priceOracle]

structure LegacyCreateAuctionAccounts where
  rentSysvar : Address
  clockSysvar : Address
  namingServiceProgram : Address
  rootDomain : Address
  nameAccount : Address
  systemProgram : Address
  auctionProgram : Address
  auction : Address
  state : Address
  feePayer : Address
  quoteMint : Address

def LegacyCreateAuctionAccounts.metas (x : LegacyCreateAuctionAccounts) : List AccountMeta :=
  [reads x.rentSysvar, reads x.clockSysvar, reads x.namingServiceProgram, reads x.rootDomain,
   reads x.nameAccount, reads x.systemProgram, reads x.auctionProgram, writes x.auction,
   writes x.state, writesSigned x.feePayer, reads x.quoteMint]

structure ClaimAccounts where
  clockSysvar : Address
  tokenProgram : Address
  namingServiceProgram : Address
  rootDomain : Address
  nameAccount : Address
  systemProgram : Address
  auctionProgram : Address
  auction : Address
  centralState : Address
  state : Address
  resellingState : Address
  feePayer : Address
  quoteMint : Address
  destinationToken : Address
  bidderWallet : Address
  bidderPot : Address
  bidderPotToken : Address
  quoteVault : Address
  discountAccount : Address
  buyNow : Address
  solVault : Address
  referrer : Option Address
  /-- Whether an owner sells the name. Then anyone may claim it for the bidder. -/
  isResell : Bool

def ClaimAccounts.metas (x : ClaimAccounts) : List AccountMeta :=
  [reads x.clockSysvar, reads x.tokenProgram, reads x.namingServiceProgram, reads x.rootDomain,
   writes x.nameAccount, reads x.systemProgram, reads x.auctionProgram, writes x.auction,
   reads x.centralState, writes x.state, reads x.resellingState, writesSigned x.feePayer,
   reads x.quoteMint, writes x.destinationToken, ⟨x.bidderWallet, !x.isResell, false⟩,
   writes x.bidderPot, writes x.bidderPotToken, writes x.quoteVault, reads x.discountAccount,
   writes x.buyNow, writes x.solVault] ++ x.referrer.toList.map writes

structure LegacyClaimAccounts where
  tokenProgram : Address
  clockSysvar : Address
  namingServiceProgram : Address
  rootDomain : Address
  nameAccount : Address
  systemProgram : Address
  auctionProgram : Address
  auction : Address
  centralState : Address
  state : Address
  feePayer : Address
  quoteMint : Address
  destinationToken : Address
  bidderWallet : Address
  bidderPot : Address
  bidderPotToken : Address

def LegacyClaimAccounts.metas (x : LegacyClaimAccounts) : List AccountMeta :=
  [reads x.tokenProgram, reads x.clockSysvar, reads x.namingServiceProgram, reads x.rootDomain,
   writes x.nameAccount, reads x.systemProgram, reads x.auctionProgram, writes x.auction,
   reads x.centralState, writes x.state, writesSigned x.feePayer, reads x.quoteMint,
   writes x.destinationToken, readsSigned x.bidderWallet, writes x.bidderPot,
   writes x.bidderPotToken]

structure ResellAccounts where
  rentSysvar : Address
  clockSysvar : Address
  namingServiceProgram : Address
  rootDomain : Address
  nameAccount : Address
  nameOwner : Address
  reverseLookup : Address
  systemProgram : Address
  auctionProgram : Address
  auction : Address
  centralState : Address
  state : Address
  resellingState : Address
  destinationToken : Address
  feePayer : Address
  buyNow : Option Address

def ResellAccounts.metas (x : ResellAccounts) : List AccountMeta :=
  [reads x.rentSysvar, reads x.clockSysvar, reads x.namingServiceProgram, reads x.rootDomain,
   writes x.nameAccount, readsSigned x.nameOwner, writes x.reverseLookup, reads x.systemProgram,
   reads x.auctionProgram, writes x.auction, reads x.centralState, writes x.state,
   writes x.resellingState, writes x.destinationToken, writesSigned x.feePayer]
    ++ x.buyNow.toList.map writes

structure CreateReverseAccounts where
  rentSysvar : Address
  namingServiceProgram : Address
  rootDomain : Address
  reverseLookup : Address
  centralState : Address
  feePayer : Address
  parentName : Option Address
  parentNameOwner : Option Address

/-- A parent name needs its owner. -/
def CreateReverseAccounts.validate (x : CreateReverseAccounts) : Except AuctionError Unit :=
  match x.parentName, x.parentNameOwner with
  | some _, none => .error .missingParentNameOwner
  | _, _ => .ok ()

/-- The accounts of the parent name: its owner signs, and an owner without a parent is left out. -/
def CreateReverseAccounts.parentMetas (x : CreateReverseAccounts) : List AccountMeta :=
  match x.parentName, x.parentNameOwner with
  | some parent, some owner => [writes parent, readsSigned owner]
  | _, _ => []

/-- The place of the system program is taken by the zero address, which is its address. -/
def CreateReverseAccounts.metas (x : CreateReverseAccounts) :
    Except AuctionError (List AccountMeta) := do
  x.validate
  return [reads x.rentSysvar, reads x.namingServiceProgram, reads x.rootDomain,
    writes x.reverseLookup, reads (.zero 32), reads x.centralState, writesSigned x.feePayer]
      ++ x.parentMetas

structure EndAuctionAccounts where
  clockSysvar : Address
  namingServiceProgram : Address
  rootDomain : Address
  nameAccount : Address
  auctionProgram : Address
  auction : Address
  centralState : Address
  state : Address
  auctionCreator : Address
  resellingState : Address
  destinationToken : Address
  solVault : Address
  systemProgram : Address

def EndAuctionAccounts.metas (x : EndAuctionAccounts) : List AccountMeta :=
  [reads x.clockSysvar, reads x.namingServiceProgram, reads x.rootDomain, writes x.nameAccount,
   reads x.auctionProgram, writes x.auction, reads x.centralState, writes x.state,
   writesSigned x.auctionCreator, writes x.resellingState, writes x.destinationToken,
   writes x.solVault, reads x.systemProgram]

structure RegisterAccounts where
  rentSysvar : Address
  namingServiceProgram : Address
  rootDomain : Address
  nameAccount : Address
  reverseLookup : Address
  systemProgram : Address
  centralState : Address
  buyer : Address
  buyerTokenSource : Address
  priceOracle : Address
  quoteVault : Address
  tokenProgram : Address
  state : Address

def RegisterAccounts.metas (x : RegisterAccounts) : List AccountMeta :=
  [reads x.rentSysvar, reads x.namingServiceProgram, reads x.rootDomain, writes x.nameAccount,
   writes x.reverseLookup, reads x.systemProgram, reads x.centralState, writesSigned x.buyer,
   writes x.buyerTokenSource, reads x.priceOracle, writes x.quoteVault, reads x.tokenProgram,
   reads x.state]

structure TakeBackAccounts where
  admin : Address
  namingServiceProgram : Address
  nameAccount : Address
  centralState : Address
  rootDomain : Address

def TakeBackAccounts.metas (x : TakeBackAccounts) : List AccountMeta :=
  [writesSigned x.admin, reads x.namingServiceProgram, writes x.nameAccount, reads x.centralState,
   reads (.zero 32), reads x.rootDomain]

end DomainAuction
