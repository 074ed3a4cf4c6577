import DomainAuction.Domain.Operations
import DomainAuction.Lookup.Accounts
import DomainAuction.Transaction.Draft

/-!
# Flow — from an intention to a draft

A flow looks up what an operation needs to know and returns a draft that is ready to be signed. The
two protocols differ in what they need: the older one wants lamports for new accounts, and keeps a
new auction in an account with a key of its own.
-/

namespace DomainAuction

/-- Makes a new account of `space` bytes that holds `lamports` and belongs to `owner`. -/
def createAccount (payer account : Address) (lamports space : UInt64) (owner : Address) :
    Instruction where
  programId := systemProgram
  accounts := [.writesSigned payer, .writesSigned account]
  data := Layout.u32.write 0 ++ Layout.u64.write lamports ++ Layout.u64.write space ++ owner.toList

/-- The draft of one operation, if the deployment has it. -/
def Operation.draft (op : Operation) (d : Deployment) : Except AuctionError Draft := do
  return .ofInstruction (← op.build d)

/-! ## Flows that ask nothing -/

/-- Creates the central state of a deployment. -/
def Deployment.initDraft (d : Deployment) (feePayer : Address) : Except AuctionError Draft :=
  (d.initCentralState feePayer).draft d

namespace Domain

variable (x : Domain)

/-- Puts an owned name up for a resale. The older protocol has no planned end and no price at which
the resale ends at once. -/
def resellDraft (nameOwner feePayer destinationToken : Address)
    (minimumPrice endAuctionAt : UInt64) (buyNow : Option BuyNow) : Except AuctionError Draft :=
  let op := match x.deployment.version with
    | .current => x.resell nameOwner feePayer destinationToken minimumPrice endAuctionAt buyNow
    | .legacy => x.legacyResell nameOwner feePayer destinationToken minimumPrice
  op.draft x.deployment

/-- Stores the text of a name. -/
def reverseLookupDraft (feePayer : Address) (parentNameOwner : Option Address) :
    Except AuctionError Draft :=
  (x.createReverse feePayer parentNameOwner).draft x.deployment

/-- Buys a name at its fixed price. -/
def registerDraft (buyer buyerTokenSource : Address) (space : UInt32) :
    Except AuctionError Draft :=
  (x.register buyer buyerTokenSource space).draft x.deployment

/-- Takes back a name that the central state holds. -/
def takeBackDraft : Except AuctionError Draft :=
  x.takeBack.draft x.deployment

end Domain

/-! ## Flows that ask a node -/

namespace Node

variable {σ ε : Type} (node : Node σ ε)

/-- Starts the first auction of a name. In the older protocol the auction is kept in an account
that belongs to `newKey`. -/
def createAuctionDraft (x : Domain) (feePayer quoteMint : Address) (newKey : SigningKey) :
    Session σ ε Draft := do
  let d := x.deployment
  match d.version with
  | .current => Session.ofExcept ((x.createAuction feePayer quoteMint).draft d)
  | .legacy =>
    let account := newKey.publicKey
    let lamports ← node.ask (.rentMinimum baseAuctionSize)
    let allocate :=
      createAccount feePayer account lamports (.ofNat baseAuctionSize) d.auctionProgram
    let create ← Session.ofExcept ((x.legacyCreateAuction feePayer quoteMint account).build d)
    return ⟨[newKey], [allocate, create]⟩

/-- Where a resale pays to. -/
def resaleDestination (x : Domain) : Session σ ε Address := do
  let resale ← (node.resellingState x).within .resellingState
  return resale.tokenDestinationAccount

/-- Claims a name for the winner of its auction. A resale pays the seller, a first auction the
vault of its currency. -/
def claimDraft (x : Domain) (params : ClaimParams) (space : UInt32) : Session σ ε Draft := do
  let d := x.deployment
  let sale ← node.nameAuction x
  match d.version with
  | .current =>
    let destination ←
      if sale.isResale then node.resaleDestination x else pure (d.quoteVault sale.quoteMint)
    Session.ofExcept ((x.claim sale params destination space).draft d)
  | .legacy =>
    let lamports ← node.ask (.rentMinimum (NameHeader.size + space.toNat))
    Session.ofExcept ((x.legacyClaim sale params lamports space).draft d)

/-- Ends a resale that nobody bid on. -/
def endAuctionDraft (x : Domain) (auctionCreator : Address) : Session σ ε Draft := do
  let destination ← node.resaleDestination x
  Session.ofExcept ((x.endAuction auctionCreator destination).draft x.deployment)

end Node

end DomainAuction
