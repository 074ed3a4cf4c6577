import DomainAuction.Derivation.DerivedAccount
import DomainAuction.Instruction.Version
import DomainAuction.Text.Base58

/-!
# Deployment — the programs and accounts of one installation

A deployment fixes the protocol, the programs and the shared accounts that operations refer to.
Its central state is derived from the program, and changing the program derives it anew; the
other changes touch one field each.
-/

namespace DomainAuction

/-! ## Programs and accounts that every deployment shares -/

def systemProgram : Address :=
  .ofBase58 "11111111111111111111111111111111" (by decide +kernel)

def tokenProgram : Address :=
  .ofBase58 "TokenkegQfeZyiNwAJbNbGKPFXCWuBvf9Ss623VQ5DA" (by decide +kernel)

def rentSysvar : Address :=
  .ofBase58 "SysvarRent111111111111111111111111111111111" (by decide +kernel)

def clockSysvar : Address :=
  .ofBase58 "SysvarC1ock11111111111111111111111111111111" (by decide +kernel)

/-! ## Deployments -/

/-- One installation of the name auction program. -/
structure Deployment where
  version : ProtocolVersion
  programId : Address
  centralState : Address
  namingServiceProgram : Address
  auctionProgram : Address
  rootDomain : Address
  priceOracle : Address
  solVault : Address
  fidaVault : Address
  usdcVault : Address
  fidaMint : Address
  usdcMint : Address
  admin : Address
  deriving DecidableEq

namespace Deployment

/-- The deployment that holds the real names. -/
def mainnet : Deployment where
  version := .current
  programId := .ofBase58 "jCebN34bUfdeUYJT13J1yG16XWQpt5PDx6Mse9GUqhR" (by decide +kernel)
  centralState := .ofBase58 "33m47vH6Eav6jr5Ry86XjhRft2jRBLDnDgPSHoquXi2Z" (by decide +kernel)
  namingServiceProgram :=
    .ofBase58 "namesLPneVptA9Z5rqUDD9tMTWEJwofgaYwp8cawRkX" (by decide +kernel)
  auctionProgram := .ofBase58 "AVWV7vdWbLqXiLKFaP19GhYurhwxaLp2qRBSjT5tR5vT" (by decide +kernel)
  rootDomain := .ofBase58 "58PwtjSDuFHuUkYjH9BYnnQKHfwo9reZhC2zMJv9JPkx" (by decide +kernel)
  priceOracle := .ofBase58 "ETp9eKXVv1dWwHSpsXRUuXHmw24PwRkttCGVgpZEY9zF" (by decide +kernel)
  solVault := .ofBase58 "GcWEQ9K78FV7LEHteFVciYApERk5YvQuFDQPk1yYJVXi" (by decide +kernel)
  fidaVault := .ofBase58 "AUoZ3YAhV3b2rZeEH93UMZHXUZcTramBvb4d9YEVySkc" (by decide +kernel)
  usdcVault := .ofBase58 "DmSyHDSM9eSLyvoLsPvDr5fRRFZ7Bfr3h3ULvWpgQaq7" (by decide +kernel)
  fidaMint := .ofBase58 "EchesyfXePKdLtoiZSL8pBe8Myagyy8ZRqsACNCFGnvp" (by decide +kernel)
  usdcMint := .ofBase58 "EPjFWdd5AufqSSqeM2qN1xzybapC8G4wEGGkZwyTDt1v" (by decide +kernel)
  admin := .ofBase58 "VBx642K1hYGLU5Zm1CHW1uRXAtFgxN5mRqyMcXnLZFW" (by decide +kernel)

/-- The same deployment with another program, and the central state of that program. -/
def withProgram (d : Deployment) (programId : Address) : Deployment :=
  { d with programId, centralState := (DerivedAccount.centralState programId).address }

def withVersion (d : Deployment) (version : ProtocolVersion) : Deployment :=
  { d with version }

def withAuctionProgram (d : Deployment) (auctionProgram : Address) : Deployment :=
  { d with auctionProgram }

def withRootDomain (d : Deployment) (rootDomain : Address) : Deployment :=
  { d with rootDomain }

/-- The first test deployment, which speaks the older protocol only. -/
def legacyDevnet : Deployment :=
  { mainnet with
    version := .legacy
    auctionProgram := .ofBase58 "HLGetPpEUaagthEtF4px9S24hwJrwz3qvgRZxkWTw4ei" (by decide +kernel)
    rootDomain := .ofBase58 "4MpujQVQLPPsC8ToEcSepSvtYCf5ZBf2odxZkZ2Qz8QH" (by decide +kernel)
    : Deployment }.withProgram
    (.ofBase58 "CrR5iPwBE4wEGe7NS3YA2j5NXityhqEnumvW23MwnTA9" (by decide +kernel))

/-- The token account of the program that bids in a currency go to. -/
def quoteVault (d : Deployment) (quoteMint : Address) : Address :=
  if quoteMint = d.usdcMint then d.usdcVault else d.fidaVault

end Deployment

end DomainAuction
