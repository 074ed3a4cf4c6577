import DomainAuction.Proofs.Operation.Building
import DomainAuction.Proofs.Transaction.Keys

/-!
# Signers — who signs an operation

Which accounts sign is a matter of the operation, with two exceptions: the bidder signs a claim
unless an owner sells the name, and the owner of a parent name signs if there is a parent name.
-/

namespace DomainAuction

open AccountMeta (reads writes writesSigned)

/-- Accounts that stand behind the others and do not sign make no difference. -/
theorem Instruction.signers_append_writes {program : Address} {metas : List AccountMeta}
    {last : Option Address} {data : Bytes} :
    signers ⟨program, metas ++ last.toList.map writes, data⟩ = signers ⟨program, metas, data⟩ := by
  cases last <;> simp [signers, writes]

namespace Operation

/-- The accounts that sign an operation, in the order in which the program reads them. -/
def signers : Operation → List Address
  | init _ _ => []
  | createAuction x _ => [x.feePayer]
  | legacyCreateAuction x _ => [x.feePayer]
  | claim x _ _ => x.feePayer :: if x.isResell then [] else [x.bidderWallet]
  | legacyClaim x _ _ _ => [x.feePayer, x.bidderWallet]
  | resell x _ _ _ _ => [x.nameOwner, x.feePayer]
  | legacyResell x _ _ => [x.nameOwner, x.feePayer]
  | createReverse x _ =>
    x.feePayer :: if x.parentName.isSome then x.parentNameOwner.toList else []
  | endAuction x _ => [x.auctionCreator]
  | register x _ _ => [x.buyer]
  | takeBack x => [x.admin]

variable {op : Operation} {d : Deployment} {i : Instruction}

/-- The accounts of a parent name have its owner as their only signer. -/
theorem signers_parentMetas {x : CreateReverseAccounts} :
    (x.parentMetas.filter AccountMeta.isSigner).map AccountMeta.address
      = if x.parentName.isSome then x.parentNameOwner.toList else [] := by
  unfold CreateReverseAccounts.parentMetas
  cases x.parentName <;> cases x.parentNameOwner <;> rfl

theorem signers_of_metas {program : Address} {keys : List AccountMeta} {data : Bytes}
    (h : op.metas = .ok keys) : Instruction.signers ⟨program, keys, data⟩ = op.signers := by
  cases op with
  | claim x hashedName space =>
    rw [← Except.ok.inj h, ClaimAccounts.metas, Instruction.signers_append_writes]
    cases hresale : x.isResell <;>
      simp [Instruction.signers, signers, hresale, reads, writes, writesSigned]
  | resell x name minimumPrice endAuctionAt maxPrice =>
    rw [← Except.ok.inj h, ResellAccounts.metas, Instruction.signers_append_writes]
    rfl
  | legacyResell x name minimumPrice =>
    rw [← Except.ok.inj h, ResellAccounts.metas, Instruction.signers_append_writes]
    rfl
  | createReverse x name =>
    rw [metas_createReverse h, signers, ← signers_parentMetas]
    simp [Instruction.signers, reads, writes, writesSigned]
  | _ =>
    rw [← Except.ok.inj h]
    rfl

/-- **The signers of what is built are those of the operation.** -/
theorem signers_of_build (h : op.build d = .ok i) : i.signers = op.signers :=
  signers_of_metas (metas_of_build h)

end Operation

end DomainAuction
