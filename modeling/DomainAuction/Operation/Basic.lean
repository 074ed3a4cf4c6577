import DomainAuction.Deployment
import DomainAuction.Instruction.Payload
import DomainAuction.Operation.Accounts

/-!
# Operation — one request to the name auction program

An operation is the accounts it touches together with its payload. It becomes an instruction of a
deployment if the deployment's protocol has its payload and its optional accounts fit together;
an operation that does not exist in the protocol is refused first.
-/

namespace DomainAuction

/-- A request to the program with all its accounts. -/
inductive Operation where
  | init (accounts : InitAccounts) (stateNonce : UInt8)
  | createAuction (accounts : CreateAuctionAccounts) (name : String)
  | legacyCreateAuction (accounts : LegacyCreateAuctionAccounts) (hashedName : Digest)
  | claim (accounts : ClaimAccounts) (hashedName : Digest) (space : UInt32)
  | legacyClaim (accounts : LegacyClaimAccounts) (hashedName : Digest) (lamports : UInt64)
    (space : UInt32)
  | resell (accounts : ResellAccounts) (name : String) (minimumPrice endAuctionAt : UInt64)
    (maxPrice : Option UInt64)
  | legacyResell (accounts : ResellAccounts) (name : String) (minimumPrice : UInt64)
  | createReverse (accounts : CreateReverseAccounts) (name : String)
  | endAuction (accounts : EndAuctionAccounts) (name : String)
  | register (accounts : RegisterAccounts) (name : String) (space : UInt32)
  | takeBack (accounts : TakeBackAccounts)

namespace Operation

def payload : Operation → Payload
  | init _ stateNonce => .init stateNonce
  | createAuction _ name => .createAuction name
  | legacyCreateAuction _ hashedName => .legacyCreateAuction hashedName
  | claim _ hashedName space => .claim hashedName space
  | legacyClaim _ hashedName lamports space => .legacyClaim hashedName lamports space
  | resell _ name minimumPrice endAuctionAt maxPrice =>
    .resell name minimumPrice endAuctionAt maxPrice
  | legacyResell _ name minimumPrice => .legacyResell name minimumPrice
  | createReverse _ name => .createReverse name
  | endAuction _ name => .endAuction name
  | register _ name space => .register name space
  | takeBack _ => .takeBack

/-- The accounts in the order in which the program reads them. -/
def metas : Operation → Except AuctionError (List AccountMeta)
  | init x _ => .ok x.metas
  | createAuction x _ => .ok x.metas
  | legacyCreateAuction x _ => .ok x.metas
  | claim x _ _ => .ok x.metas
  | legacyClaim x _ _ _ => .ok x.metas
  | resell x _ _ _ _ => .ok x.metas
  | legacyResell x _ _ => .ok x.metas
  | createReverse x _ => x.metas
  | endAuction x _ => .ok x.metas
  | register x _ _ => .ok x.metas
  | takeBack x => .ok x.metas

/-- Checks the optional accounts: a parent name needs its owner, and the older protocol knows no
price at which a resale ends at once. -/
def validate : Operation → Except AuctionError Unit
  | createReverse x _ => x.validate
  | legacyResell x _ _ =>
    if x.buyNow.isSome then .error .unsupportedProtocolVersion else .ok ()
  | _ => .ok ()

/-- The bytes of the payload of a valid operation. -/
def encode (op : Operation) : Except AuctionError Bytes := do
  op.validate
  return op.payload.encode

/-- The accounts of a valid operation. -/
def accounts (op : Operation) : Except AuctionError (List AccountMeta) := do
  op.validate
  op.metas

/-- The instruction of an operation for a deployment. -/
def build (op : Operation) (d : Deployment) : Except AuctionError Instruction := do
  unless op.payload.supportedIn d.version do throw .unsupportedProtocolVersion
  return ⟨d.programId, ← op.accounts, ← op.encode⟩

end Operation

end DomainAuction
