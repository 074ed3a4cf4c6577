import DomainAuction.Proofs.Flow.Claims
import DomainAuction.Proofs.Lookup.Views

/-!
# Failures — what the failure of a flow says about its lookups

The flows that look something up before they build anything put contexts around the failures of
their lookups. The contexts are for people: the error inside is the one that the lookup carried, so
a caller who tells absent, undecodable and unreachable apart for a view can do so for a flow.
-/

namespace DomainAuction

namespace Node

variable {σ ε : Type} {node : Node σ ε} {s s' : σ} {x : Domain} {e : Option AuctionError}

theorem resaleDestination_failsWith_iff :
    (node.resaleDestination x).FailsWith s e s' ↔ (node.resellingState x).FailsWith s e s' := by
  unfold resaleDestination
  simp only [Session.failsWith_bind_iff, Session.failsWith_within_iff, Session.not_failsWith_pure,
    and_false, exists_false, or_false]

theorem claimDestination_failsWith_iff {sale : NameAuction} :
    (node.claimDestination x sale).FailsWith s e s'
      ↔ sale.isResale = true ∧ (node.resellingState x).FailsWith s e s' := by
  unfold claimDestination
  cases sale.isResale with
  | true => simp [resaleDestination_failsWith_iff]
  | false => simp [Session.not_failsWith_pure]

/-- A draft of one operation fails where the operation is not built. -/
theorem failsWith_draft_iff {op : Operation} {d : Deployment} :
    (Session.ofExcept (op.draft d) : Session σ ε Draft).FailsWith s e s'
      ↔ ∃ error, op.build d = .error error ∧ e = some error ∧ s' = s := by
  rw [Session.failsWith_ofExcept_iff, Operation.draft]
  cases op.build d <;> simp

theorem not_failsWith_draft {op : Operation} {d : Deployment} (h : ∃ i, op.build d = .ok i) :
    ¬ (Session.ofExcept (op.draft d) : Session σ ε Draft).FailsWith s e s' := by
  obtain ⟨i, hbuild⟩ := h
  simp [failsWith_draft_iff, hbuild]

/-- A claim fails as the lookup of the sale does, or as that of the resale, or because the node does
not tell the rent. -/
theorem claimDraft_failsWith_iff {params : ClaimParams} {space : UInt32} :
    (node.claimDraft x params space).FailsWith s e s' ↔
      (node.nameAuction x).FailsWith s e s' ∨ ∃ sale t, node.nameAuction x s = .ok sale t ∧
        (x.deployment.version = .current ∧ sale.isResale = true
            ∧ (node.resellingState x).FailsWith t e s' ∨
          x.deployment.version = .legacy ∧ e = none
            ∧ ∃ fault, node.answer (.rentMinimum (96 + space.toNat)) t = .error fault s') := by
  cases hv : x.deployment.version with
  | current =>
    have hbuilt : ∀ sale payee t, ¬ (Session.ofExcept
        ((x.claim sale params payee space).draft x.deployment) :
          Session σ ε Draft).FailsWith t e s' :=
      fun sale payee t =>
        not_failsWith_draft (Domain.exists_claim_build x sale params payee space hv)
    rw [claimDraft_current hv]
    simp [Session.failsWith_bind_iff, claimDestination_failsWith_iff, hbuilt]
  | legacy =>
    have hbuilt : ∀ sale (lamports : (Request.rentMinimum (96 + space.toNat)).Answer) t,
        ¬ (Session.ofExcept ((x.legacyClaim sale params lamports space).draft x.deployment) :
          Session σ ε Draft).FailsWith t e s' :=
      fun sale lamports t =>
        not_failsWith_draft (Domain.exists_legacyClaim_build x sale params lamports space hv)
    rw [claimDraft_legacy hv]
    simp [Session.failsWith_bind_iff, Session.failsWith_ask_iff, hbuilt, NameHeader.size]

/-- The end of an auction fails as the lookup of the resale does, or behind it because the older
protocol does not have the operation. -/
theorem endAuctionDraft_failsWith_iff {auctionCreator : Address} :
    (node.endAuctionDraft x auctionCreator).FailsWith s e s' ↔
      (node.resellingState x).FailsWith s e s' ∨
        x.deployment.version = .legacy ∧ e = some .unsupportedProtocolVersion
          ∧ ∃ resale, node.resellingState x s = .ok resale s' := by
  unfold endAuctionDraft
  rw [Session.failsWith_bind_iff, resaleDestination_failsWith_iff]
  refine or_congr_right ?_
  cases hv : x.deployment.version with
  | current =>
    have hbuilt : ∀ payee t, ¬ (Session.ofExcept
        ((x.endAuction auctionCreator payee).draft x.deployment) :
          Session σ ε Draft).FailsWith t e s' :=
      fun payee t => not_failsWith_draft (Operation.build_eq_ok_iff.2 ⟨by rw [hv]; rfl, rfl⟩)
    simp [hbuilt]
  | legacy =>
    have hrefused : ∀ payee, (x.endAuction auctionCreator payee).build x.deployment
        = .error .unsupportedProtocolVersion :=
      fun payee => Operation.build_of_unsupported (by rw [hv]; rfl)
    simp only [failsWith_draft_iff, hrefused, resaleDestination_eq_ok_iff, resellingState,
      fetchRecord_eq_ok_iff]
    constructor
    · rintro ⟨payee, t, ⟨resale, hshows, rfl⟩, error, herror, rfl, rfl⟩
      cases herror
      exact ⟨trivial, rfl, resale, hshows⟩
    · rintro ⟨-, rfl, resale, hshows⟩
      exact ⟨_, s', ⟨resale, hshows, rfl⟩, _, rfl, rfl, rfl⟩

/-- **A failure says what is wrong with the account.** Each of the seven views asks for one account
and tells an absent account, undecodable data and an unreachable node apart. The two flows that look
up first carry what their lookups carry; besides, a claim of the older protocol fails for want of
the rent, and the end of an auction in the older protocol because there is no such operation. -/
theorem views_classify (x : Domain) (d : Deployment) (auction nameAccount : Address) :
    IsView (ε := ε) (fun node => node.nameAuction x) x.state .processed .auctionNotFound
      NameAuction.layout.decode ∧
    IsView (ε := ε) (fun node => node.resellingState x) x.resellingState .confirmed
      .resellingStateNotFound ResellingState.layout.decode ∧
    IsView (ε := ε) (fun node => node.centralState d) d.centralState .confirmed .accountNotFound
      CentralState.layout.decode ∧
    IsView (ε := ε) (fun node => node.auctionHeader auction) auction .confirmed .auctionNotFound
      AuctionHeader.layout.decode ∧
    IsView (ε := ε) (fun node => node.domainOwner x) x.nameAccount .confirmed .accountNotFound
      (fun data => NameHeader.layout.decode data >>= fun h => .ok h.owner) ∧
    IsView (ε := ε) (fun node => node.reverseLookup d nameAccount) (d.reverseLookup nameAccount)
      .confirmed .accountNotFound
      (fun data => ReverseLookup.layout.decode data >>= fun r => .ok r.name) ∧
    IsView (ε := ε) (fun node => node.oraclePrice d) d.priceOracle .confirmed .accountNotFound
      (fun data => (OraclePrice.decode data).mapError OracleError.toAuctionError) ∧
    ∀ {σ : Type} (node : Node σ ε) (s : σ) (e : Option AuctionError) (s' : σ),
      (∀ (params : ClaimParams) (space : UInt32),
        (node.claimDraft x params space).FailsWith s e s' ↔
          (node.nameAuction x).FailsWith s e s' ∨ ∃ sale t, node.nameAuction x s = .ok sale t ∧
            (x.deployment.version = .current ∧ sale.isResale = true
                ∧ (node.resellingState x).FailsWith t e s' ∨
              x.deployment.version = .legacy ∧ e = none
                ∧ ∃ fault, node.answer (.rentMinimum (96 + space.toNat)) t = .error fault s')) ∧
      ∀ auctionCreator : Address, (node.endAuctionDraft x auctionCreator).FailsWith s e s' ↔
        (node.resellingState x).FailsWith s e s' ∨
          x.deployment.version = .legacy ∧ e = some .unsupportedProtocolVersion
            ∧ ∃ resale, node.resellingState x s = .ok resale s' :=
  ⟨fetchRecord_isView NameAuction.layout_blamesData rfl,
    fetchRecord_isView ResellingState.layout_blamesData rfl,
    fetchRecord_isView CentralState.layout_blamesData rfl,
    fetchRecord_isView AuctionHeader.layout_blamesData rfl,
    domainOwner_isView x, reverseLookup_isView d nameAccount, oraclePrice_isView d,
    fun _ _ _ _ => ⟨fun _ _ => claimDraft_failsWith_iff, fun _ => endAuctionDraft_failsWith_iff⟩⟩

end Node

end DomainAuction
