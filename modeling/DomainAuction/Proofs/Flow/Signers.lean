import DomainAuction.Proofs.Domain.Addresses
import DomainAuction.Proofs.Flow.Claims
import DomainAuction.Proofs.Operation.Signers
import DomainAuction.Proofs.Transaction.Signing

/-!
# Signers — a flow returns everything that its signers need

Each flow has its roles: whoever pays, owns, bids or administers, and signs for it. A draft wants the
signatures of the roles and of the new keys that come with it, and of no one else. So a wallet that
plays every role can sign, and one that does not is told that a signer is missing.
-/

namespace DomainAuction

open Message (Limits)
open SigningKey (Covers)

/-- The flows, with what they are told. -/
inductive Flow where
  | init (d : Deployment) (feePayer : Address)
  | createAuction (x : Domain) (feePayer quoteMint : Address) (newKey : SigningKey)
  | claim (x : Domain) (params : ClaimParams) (space : UInt32)
  | resell (x : Domain) (nameOwner feePayer destinationToken : Address)
    (minimumPrice endAuctionAt : UInt64) (buyNow : Option BuyNow)
  | endAuction (x : Domain) (auctionCreator : Address)
  | reverseLookup (x : Domain) (feePayer : Address) (parentNameOwner : Option Address)
  | register (x : Domain) (buyer buyerTokenSource : Address) (space : UInt32)
  | takeBack (x : Domain)

/-- Whom the instructions of a draft want to sign, in their order. -/
def Draft.required (draft : Draft) : List Address :=
  draft.instructions.flatMap Instruction.signers

/-- The draft of one operation has no keys, and wants the signers of the operation. -/
theorem Operation.required_of_draft {op : Operation} {d : Deployment} {draft : Draft}
    (h : op.draft d = .ok draft) : draft.signers = [] ∧ draft.required = op.signers := by
  obtain ⟨i, hbuild, rfl⟩ := draft_eq_ok_iff.1 h
  refine ⟨rfl, ?_⟩
  rw [← signers_of_build hbuild]
  exact List.append_nil _

namespace Flow

variable {σ ε : Type} {node : Node σ ε} {s s' : σ} {flow : Flow} {draft : Draft}

/-- What a flow asks a node, and the draft it returns. -/
def run (node : Node σ ε) : Flow → Session σ ε Draft
  | init d feePayer => Session.ofExcept (d.initDraft feePayer)
  | createAuction x feePayer quoteMint newKey => node.createAuctionDraft x feePayer quoteMint newKey
  | claim x params space => node.claimDraft x params space
  | resell x nameOwner feePayer destinationToken minimumPrice endAuctionAt buyNow =>
    Session.ofExcept
      (x.resellDraft nameOwner feePayer destinationToken minimumPrice endAuctionAt buyNow)
  | endAuction x auctionCreator => node.endAuctionDraft x auctionCreator
  | reverseLookup x feePayer parentNameOwner =>
    Session.ofExcept (x.reverseLookupDraft feePayer parentNameOwner)
  | register x buyer buyerTokenSource space =>
    Session.ofExcept (x.registerDraft buyer buyerTokenSource space)
  | takeBack x => Session.ofExcept x.takeBackDraft

/-- The keys that a flow makes: one, for an auction of the older protocol. -/
def newKeys : Flow → List SigningKey
  | createAuction x _ _ newKey => if x.deployment.version = .legacy then [newKey] else []
  | _ => []

/-- Who has a role in a flow that has to sign, given what the node shows. -/
inductive Signs (node : Node σ ε) (s : σ) : Flow → Address → Prop
  | createPayer {x : Domain} {feePayer quoteMint : Address} {newKey : SigningKey} :
    Signs node s (createAuction x feePayer quoteMint newKey) feePayer
  | claimPayer {x : Domain} {params : ClaimParams} {space : UInt32} :
    Signs node s (claim x params space) params.feePayer
  | legacyBidder {x : Domain} {params : ClaimParams} {space : UInt32} :
    x.deployment.version = .legacy → Signs node s (claim x params space) params.bidderWallet
  | firstBidder {x : Domain} {params : ClaimParams} {space : UInt32} {sale : NameAuction} {t : σ} :
    node.Shows NameAuction.layout x.state .processed s sale t → sale.isResale = false →
    Signs node s (claim x params space) params.bidderWallet
  | resellPayer {x : Domain} {nameOwner feePayer destinationToken : Address}
    {minimumPrice endAuctionAt : UInt64} {buyNow : Option BuyNow} :
    Signs node s
      (resell x nameOwner feePayer destinationToken minimumPrice endAuctionAt buyNow) feePayer
  | nameOwner {x : Domain} {nameOwner feePayer destinationToken : Address}
    {minimumPrice endAuctionAt : UInt64} {buyNow : Option BuyNow} :
    Signs node s
      (resell x nameOwner feePayer destinationToken minimumPrice endAuctionAt buyNow) nameOwner
  | auctionCreator {x : Domain} {auctionCreator : Address} :
    Signs node s (endAuction x auctionCreator) auctionCreator
  | reversePayer {x : Domain} {feePayer : Address} {parentNameOwner : Option Address} :
    Signs node s (reverseLookup x feePayer parentNameOwner) feePayer
  | parentOwner {x : Domain} {feePayer owner : Address} :
    x.parent ≠ x.deployment.rootDomain →
    Signs node s (reverseLookup x feePayer (some owner)) owner
  | buyer {x : Domain} {buyer buyerTokenSource : Address} {space : UInt32} :
    Signs node s (register x buyer buyerTokenSource space) buyer
  | admin {x : Domain} : Signs node s (takeBack x) x.deployment.admin

/-! ## What each flow returns -/

/-- A draft comes with the new keys of its flow, and wants these and the roles to sign. -/
structure Fits (node : Node σ ε) (s : σ) (flow : Flow) (draft : Draft) : Prop where
  signers : draft.signers = flow.newKeys
  mem_required_iff : ∀ a, a ∈ draft.required ↔ flow.Signs node s a ∨ Covers flow.newKeys a

/-- A flow without new keys whose roles are the signers of one operation. -/
theorem fits_of_operation {op : Operation} {d : Deployment} (h : op.draft d = .ok draft)
    (hkeys : flow.newKeys = []) (hroles : ∀ a, a ∈ op.signers ↔ flow.Signs node s a) :
    flow.Fits node s draft := by
  obtain ⟨hown, hrequired⟩ := Operation.required_of_draft h
  refine ⟨hown.trans hkeys.symm, fun a => ?_⟩
  rw [hrequired, hroles, hkeys, or_iff_left SigningKey.not_covers_nil]

/-- A flow without new keys and with one role, which alone signs one operation. -/
theorem fits_of_sole_signer {op : Operation} {d : Deployment} {who : Address}
    (h : op.draft d = .ok draft) (hkeys : flow.newKeys = []) (hsole : op.signers = [who])
    (hsigns : flow.Signs node s who) (honly : ∀ a, flow.Signs node s a → a = who) :
    flow.Fits node s draft := by
  refine fits_of_operation h hkeys fun a => ?_
  rw [hsole, List.mem_singleton]
  constructor
  · rintro rfl
    exact hsigns
  · exact honly a

section

variable {x : Domain} {d : Deployment}

theorem fits_init {feePayer : Address} (h : d.initDraft feePayer = .ok draft) :
    (init d feePayer).Fits node s draft := by
  refine fits_of_operation h rfl fun a => ?_
  have hnone : (d.initCentralState feePayer).signers = [] := by
    rewrite [Deployment.initCentralState_eq]
    exact rfl
  rw [hnone]
  exact iff_of_false List.not_mem_nil fun hsigns => nomatch hsigns

theorem fits_createAuction {feePayer quoteMint : Address} {newKey : SigningKey}
    (h : node.createAuctionDraft x feePayer quoteMint newKey s = .ok draft s') :
    (createAuction x feePayer quoteMint newKey).Fits node s draft := by
  have honly : ∀ a, (createAuction x feePayer quoteMint newKey).Signs node s a → a = feePayer := by
    rintro a ⟨⟩
    rfl
  unfold Node.createAuctionDraft at h
  cases hv : x.deployment.version with
  | current =>
    simp only [hv, Session.ofExcept_eq_ok_iff] at h
    exact fits_of_sole_signer h.1 (by simp [newKeys, hv]) rfl .createPayer honly
  | legacy =>
    simp only [hv, Running.bind_eq_ok_iff, Session.ofExcept_eq_ok_iff, Running.pure_eq_ok_iff] at h
    obtain ⟨lamports, t, -, create, t', ⟨hbuild, -⟩, rfl, -⟩ := h
    have hnew : (createAuction x feePayer quoteMint newKey).newKeys = [newKey] := if_pos hv
    have hcreate : create.signers = [feePayer] := Operation.signers_of_build hbuild
    -- the payer and the new account sign that the account is made
    have hrequired : Draft.required ⟨[newKey], [createAccount feePayer newKey.publicKey lamports
        (.ofNat baseAuctionSize) x.deployment.auctionProgram, create]⟩
          = [feePayer, newKey.publicKey] ++ (create.signers ++ []) := rfl
    rw [hcreate] at hrequired
    refine ⟨hnew.symm, fun a => ?_⟩
    rw [hrequired, hnew, SigningKey.covers_cons, or_iff_left SigningKey.not_covers_nil]
    constructor
    · intro ha
      obtain rfl | rfl | rfl : a = feePayer ∨ a = newKey.publicKey ∨ a = feePayer := by
        simpa using ha
      · exact .inl .createPayer
      · exact .inr rfl
      · exact .inl .createPayer
    · rintro (hsigns | rfl)
      · rw [honly a hsigns]
        exact List.mem_cons_self
      · exact List.mem_cons_of_mem _ List.mem_cons_self

theorem fits_claim {params : ClaimParams} {space : UInt32}
    (h : node.claimDraft x params space s = .ok draft s') :
    (claim x params space).Fits node s draft := by
  cases hv : x.deployment.version with
  | current =>
    obtain ⟨sale, t, payee, hsale, -, hdraft⟩ := (Node.claimDraft_current_eq_ok_iff hv).1 h
    refine fits_of_operation hdraft rfl fun a => ?_
    have hroles : a ∈ (x.claim sale params payee space).signers
        ↔ a = params.feePayer ∨ sale.isResale = false ∧ a = params.bidderWallet := by
      cases hresale : sale.isResale <;> simp [Domain.claim, Operation.signers, hresale]
    rw [hroles]
    constructor
    · rintro (rfl | ⟨hfirst, rfl⟩)
      · exact .claimPayer
      · exact .firstBidder hsale hfirst
    · intro hsigns
      cases hsigns with
      | claimPayer => exact .inl rfl
      | legacyBidder hl =>
        rw [hv] at hl
        cases hl
      | firstBidder hshows hfirst =>
        cases hshows.unique hsale
        exact .inr ⟨hfirst, rfl⟩
  | legacy =>
    obtain ⟨sale, t, lamports, -, -, hdraft⟩ := (Node.claimDraft_legacy_eq_ok_iff hv).1 h
    refine fits_of_operation hdraft rfl fun a => ?_
    have hroles : a ∈ (x.legacyClaim sale params lamports space).signers
        ↔ a = params.feePayer ∨ a = params.bidderWallet := by
      simp [Domain.legacyClaim, Operation.signers]
    rw [hroles]
    constructor
    · rintro (rfl | rfl)
      · exact .claimPayer
      · exact .legacyBidder hv
    · intro hsigns
      cases hsigns with
      | claimPayer => exact .inl rfl
      | legacyBidder => exact .inr rfl
      | firstBidder => exact .inr rfl

theorem fits_resell {nameOwner feePayer destinationToken : Address}
    {minimumPrice endAuctionAt : UInt64} {buyNow : Option BuyNow}
    (h : x.resellDraft nameOwner feePayer destinationToken minimumPrice endAuctionAt buyNow
      = .ok draft) :
    (resell x nameOwner feePayer destinationToken minimumPrice endAuctionAt buyNow).Fits
      node s draft := by
  -- the two protocols have an operation each, and the same two signers
  obtain ⟨op, hdraft, hsigners⟩ : ∃ op : Operation,
      op.draft x.deployment = .ok draft ∧ op.signers = [nameOwner, feePayer] := by
    unfold Domain.resellDraft at h
    cases hv : x.deployment.version with
    | current =>
      simp only [hv] at h
      exact ⟨_, h, rfl⟩
    | legacy =>
      simp only [hv] at h
      exact ⟨_, h, rfl⟩
  refine fits_of_operation hdraft rfl fun a => ?_
  rw [hsigners, List.mem_pair]
  constructor
  · rintro (rfl | rfl)
    · exact .nameOwner
    · exact .resellPayer
  · intro hsigns
    cases hsigns with
    | resellPayer => exact .inr rfl
    | nameOwner => exact .inl rfl

theorem fits_endAuction {auctionCreator : Address}
    (h : node.endAuctionDraft x auctionCreator s = .ok draft s') :
    (endAuction x auctionCreator).Fits node s draft := by
  unfold Node.endAuctionDraft at h
  simp only [Running.bind_eq_ok_iff, Session.ofExcept_eq_ok_iff] at h
  obtain ⟨destination, t, -, hdraft, -⟩ := h
  refine fits_of_sole_signer hdraft rfl rfl .auctionCreator ?_
  rintro a ⟨⟩
  rfl

theorem fits_reverseLookup {feePayer : Address} {parentNameOwner : Option Address}
    (h : x.reverseLookupDraft feePayer parentNameOwner = .ok draft) :
    (reverseLookup x feePayer parentNameOwner).Fits node s draft := by
  refine fits_of_operation h rfl fun a => ?_
  have hroles : a ∈ (x.createReverse feePayer parentNameOwner).signers
      ↔ a = feePayer ∨ x.parent ≠ x.deployment.rootDomain ∧ parentNameOwner = some a := by
    by_cases hroot : x.parent = x.deployment.rootDomain <;>
      simp [Domain.createReverse, Operation.signers, Domain.parentName?, hroot]
  rw [hroles]
  constructor
  · rintro (rfl | ⟨hparent, rfl⟩)
    · exact .reversePayer
    · exact .parentOwner hparent
  · intro hsigns
    cases hsigns with
    | reversePayer => exact .inl rfl
    | parentOwner hparent => exact .inr ⟨hparent, rfl⟩

theorem fits_register {buyer buyerTokenSource : Address} {space : UInt32}
    (h : x.registerDraft buyer buyerTokenSource space = .ok draft) :
    (register x buyer buyerTokenSource space).Fits node s draft := by
  refine fits_of_sole_signer h rfl rfl .buyer ?_
  rintro a ⟨⟩
  rfl

theorem fits_takeBack (h : x.takeBackDraft = .ok draft) : (takeBack x).Fits node s draft := by
  refine fits_of_sole_signer h rfl rfl .admin ?_
  rintro a ⟨⟩
  rfl

end

/-- **Every flow that succeeds returns what its signers need.** -/
theorem fits_of_run (h : flow.run node s = .ok draft s') : flow.Fits node s draft := by
  cases flow with
  | init d feePayer =>
    rw [run, Session.ofExcept_eq_ok_iff] at h
    exact fits_init h.1
  | createAuction x feePayer quoteMint newKey => exact fits_createAuction h
  | claim x params space => exact fits_claim h
  | resell x nameOwner feePayer destinationToken minimumPrice endAuctionAt buyNow =>
    rw [run, Session.ofExcept_eq_ok_iff] at h
    exact fits_resell h.1
  | endAuction x auctionCreator => exact fits_endAuction h
  | reverseLookup x feePayer parentNameOwner =>
    rw [run, Session.ofExcept_eq_ok_iff] at h
    exact fits_reverseLookup h.1
  | register x buyer buyerTokenSource space =>
    rw [run, Session.ofExcept_eq_ok_iff] at h
    exact fits_register h.1
  | takeBack x =>
    rw [run, Session.ofExcept_eq_ok_iff] at h
    exact fits_takeBack h.1

/-! ## Signing what a flow returns -/

variable {wallet : SigningKey} {beforehand : List Instruction} {blockhash : Digest}

section

variable (h : flow.Fits node s draft)
variable (hother : ∀ i ∈ beforehand, ∀ k ∈ i.accounts, k.isSigner = false)

include h hother

/-- Behind instructions without signers, the message of a draft that fits wants the wallet that
pays, the roles, and the new keys. -/
theorem Fits.mem_wanted_iff {a : Address} : a ∈ draft.wanted wallet beforehand
    ↔ a = wallet.publicKey ∨ flow.Signs node s a ∨ Covers flow.newKeys a := by
  have hnone : ∀ i ∈ beforehand, a ∉ i.signers := by
    intro i hi ha
    obtain ⟨k, hk, hsigner, -⟩ := Instruction.mem_signers_iff.1 ha
    rw [hother i hi k hk] at hsigner
    cases hsigner
  have hown : (∃ i ∈ beforehand ++ draft.instructions, a ∈ i.signers) ↔ a ∈ draft.required := by
    rw [Draft.required, List.mem_flatMap]
    constructor
    · rintro ⟨i, hi, ha⟩
      obtain hi | hi := List.mem_append.1 hi
      · exact absurd ha (hnone i hi)
      · exact ⟨i, hi, ha⟩
    · rintro ⟨i, hi, ha⟩
      exact ⟨i, List.mem_append_right _ hi, ha⟩
  rw [Draft.mem_wanted_iff, hown, h.mem_required_iff]

theorem Fits.noneTooMany : draft.NoneTooMany wallet beforehand := by
  intro k hk
  rw [h.mem_wanted_iff hother, ← h.signers]
  obtain rfl | hnew := List.mem_cons.1 hk
  · exact .inl rfl
  · exact .inr (.inr ⟨k, hnew, rfl⟩)

/-- No key is missing if each role is the wallet's or that of a new key. -/
theorem Fits.noneMissing_iff : draft.NoneMissing wallet beforehand
    ↔ ∀ a, flow.Signs node s a → a = wallet.publicKey ∨ Covers draft.signers a := by
  have hcovers : ∀ a, Covers (draft.keysAtHand wallet) a
      ↔ a = wallet.publicKey ∨ Covers draft.signers a := by
    intro a
    rw [Draft.keysAtHand, SigningKey.covers_cons, eq_comm]
  simp only [Draft.NoneMissing, h.mem_wanted_iff hother, hcovers]
  constructor
  · exact fun hall a hrole => hall a (.inr (.inl hrole))
  · rintro hroles a (rfl | hrole | hnew)
    · exact .inl rfl
    · exact hroles a hrole
    · rw [h.signers]
      exact .inr hnew

end

/-- A node that knows the rent of accounts, and nothing else. -/
def showingRent (lamports : UInt64) : Node Unit Unit where
  answer
    | .rentMinimum _ => return lamports
    | _ => throw ()

end Flow

end DomainAuction
