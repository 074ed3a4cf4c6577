import DomainAuction.Domain.Operations
import DomainAuction.Proofs.Operation.Building

/-!
# Places — where an operation names the records of a domain

A domain has four records, at addresses that follow from the domain. The program finds them by their
place in the list of accounts, and each operation has its own list. The table of places is written
down once here, and every operation on a domain is checked against it.
-/

namespace DomainAuction

/-- The records of a domain. -/
inductive DomainRecord where
  /-- The name account, which says who owns the name. -/
  | header
  /-- The state of the sale. -/
  | sale
  /-- The record of a resale. -/
  | resale
  /-- The text of the name, for whoever knows its name account. -/
  | text

def DomainRecord.address (x : Domain) : DomainRecord → Address
  | header => x.nameAccount
  | sale => x.state
  | resale => x.resellingState
  | text => x.reverseLookup

namespace Operation

/-- The place at which an operation names a record among its accounts, and the address there. -/
def named : Operation → DomainRecord → Option (Nat × Address)
  | createAuction a _, .header => some (4, a.nameAccount)
  | createAuction a _, .text => some (5, a.reverseLookup)
  | createAuction a _, .sale => some (10, a.state)
  | legacyCreateAuction a _, .header => some (4, a.nameAccount)
  | legacyCreateAuction a _, .sale => some (8, a.state)
  | claim a _ _, .header => some (4, a.nameAccount)
  | claim a _ _, .sale => some (9, a.state)
  | claim a _ _, .resale => some (10, a.resellingState)
  | legacyClaim a _ _ _, .header => some (4, a.nameAccount)
  | legacyClaim a _ _ _, .sale => some (9, a.state)
  | resell a _ _ _ _, .header | legacyResell a _ _, .header => some (4, a.nameAccount)
  | resell a _ _ _ _, .text | legacyResell a _ _, .text => some (6, a.reverseLookup)
  | resell a _ _ _ _, .sale | legacyResell a _ _, .sale => some (11, a.state)
  | resell a _ _ _ _, .resale | legacyResell a _ _, .resale => some (12, a.resellingState)
  | createReverse a _, .text => some (3, a.reverseLookup)
  | endAuction a _, .header => some (3, a.nameAccount)
  | endAuction a _, .sale => some (7, a.state)
  | endAuction a _, .resale => some (9, a.resellingState)
  | register a _ _, .header => some (3, a.nameAccount)
  | register a _ _, .text => some (4, a.reverseLookup)
  | register a _ _, .sale => some (12, a.state)
  | takeBack a, .header => some (2, a.nameAccount)
  | _, _ => none

variable {op : Operation} {metas : List AccountMeta} {r : DomainRecord} {k : Nat}
variable {address : Address}

/-- **The table of places is that of the lists of accounts.** -/
theorem address_at_place (hm : op.metas = .ok metas) (hr : op.named r = some (k, address)) :
    ∃ m, metas[k]? = some m ∧ m.address = address := by
  cases op with
  | createReverse a name =>
    rw [metas_createReverse hm]
    cases r <;> cases hr
    exact ⟨_, rfl, rfl⟩
  | init => cases hr
  | _ =>
    cases hm
    cases r <;> cases hr <;> exact ⟨_, rfl, rfl⟩

/-! ## Operations on a domain -/

/-- The operations on a domain, whoever pays, signs or is paid. -/
inductive On (x : Domain) : Operation → Prop
  | createAuction (feePayer quoteMint : Address) : On x (x.createAuction feePayer quoteMint)
  | legacyCreateAuction (feePayer quoteMint auction : Address) :
    On x (x.legacyCreateAuction feePayer quoteMint auction)
  | claim (sale : NameAuction) (params : ClaimParams) (destinationToken : Address)
    (space : UInt32) : On x (x.claim sale params destinationToken space)
  | legacyClaim (sale : NameAuction) (params : ClaimParams) (lamports : UInt64) (space : UInt32) :
    On x (x.legacyClaim sale params lamports space)
  | resell (nameOwner feePayer destinationToken : Address) (minimumPrice endAuctionAt : UInt64)
    (buyNow : Option BuyNow) :
    On x (x.resell nameOwner feePayer destinationToken minimumPrice endAuctionAt buyNow)
  | legacyResell (nameOwner feePayer destinationToken : Address) (minimumPrice : UInt64) :
    On x (x.legacyResell nameOwner feePayer destinationToken minimumPrice)
  | createReverse (feePayer : Address) (parentNameOwner : Option Address) :
    On x (x.createReverse feePayer parentNameOwner)
  | endAuction (auctionCreator destinationToken : Address) :
    On x (x.endAuction auctionCreator destinationToken)
  | register (buyer buyerTokenSource : Address) (space : UInt32) :
    On x (x.register buyer buyerTokenSource space)
  | takeBack : On x x.takeBack

variable {x : Domain}

/-- An operation on a domain names no account that its protocol does not know. -/
theorem On.not_hasLegacyBuyNow (h : op.On x) : ¬ op.HasLegacyBuyNow := by
  cases h with
  | legacyResell => exact Bool.false_ne_true
  | _ => exact id

theorem On.exists_build (h : op.On x) (hs : op.payload.supportedIn x.deployment.version = true)
    (howner : ¬ op.LacksParentOwner) : ∃ i, op.build x.deployment = .ok i :=
  build_eq_ok_iff.2 ⟨hs, validate_eq_ok_iff.2 ⟨howner, h.not_hasLegacyBuyNow⟩⟩

/-- **An operation on a domain names the records of that domain.** -/
theorem On.address_eq (h : op.On x) (hr : op.named r = some (k, address)) :
    address = r.address x := by
  -- both sides are opened first: two addresses that look different are compared by a search
  cases h <;> cases r <;> cases hr <;> simp only [DomainRecord.address, Domain.resellAccounts]

end Operation

end DomainAuction
