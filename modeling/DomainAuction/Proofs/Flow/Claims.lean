import DomainAuction.Flow
import DomainAuction.Proofs.Lookup.Records
import DomainAuction.Proofs.Operation.Building
import DomainAuction.Proofs.Record.AccountData

/-!
# Claims — whom a claim pays, and who has to sign it

A claim follows what the ledger says about the sale. A resale pays the account that the reseller
named, and anyone may settle it; a first auction pays the vault of its currency, and the bidder
signs. The older protocol knows only the second way.
-/

namespace DomainAuction

/-- A draft of one operation is the instruction that is built of it. -/
theorem Operation.draft_eq_ok_iff {op : Operation} {d : Deployment} {draft : Draft} :
    op.draft d = .ok draft ↔ ∃ i, op.build d = .ok i ∧ draft = .ofInstruction i := by
  unfold Operation.draft
  cases op.build d <;> simp [eq_comm]

namespace Domain

variable {x : Domain} {sale : NameAuction} {params : ClaimParams} {space : UInt32}
variable {payee : Address} {lamports : UInt64} {i : Instruction}

/-- An instruction of the current protocol that claims a name for the bidder of a sale and pays
`payee`. -/
structure IsClaim (x : Domain) (sale : NameAuction) (params : ClaimParams) (space : UInt32)
    (payee : Address) (i : Instruction) : Prop where
  programId : i.programId = x.deployment.programId
  auction : i.accounts[7]? = some (.writes sale.auctionAccount)
  payee : i.accounts[13]? = some (.writes payee)
  bidder : i.accounts[14]? = some ⟨params.bidderWallet, !sale.isResale, false⟩
  bidderPot : i.accounts[15]? = some (.writes
    (DerivedAccount.bidderPot x.deployment.auctionProgram sale.auctionAccount
      params.bidderWallet).address)
  referrer : i.accounts.drop 21 = params.referrer.toList.map .writes
  payload : Payload.decode i.data .current = .ok (.claim (hashName x.name) space)

/-- An instruction of the older protocol that claims a name for the bidder of a sale. -/
structure IsLegacyClaim (x : Domain) (sale : NameAuction) (params : ClaimParams)
    (lamports : UInt64) (space : UInt32) (i : Instruction) : Prop where
  programId : i.programId = x.deployment.programId
  auction : i.accounts[7]? = some (.writes sale.auctionAccount)
  payee : i.accounts[12]? = some (.writes (x.deployment.quoteVault sale.quoteMint))
  bidder : i.accounts[13]? = some (.readsSigned params.bidderWallet)
  bidderPot : i.accounts[14]? = some (.writes
    (DerivedAccount.bidderPot x.deployment.auctionProgram sale.auctionAccount
      params.bidderWallet).address)
  length_accounts : i.accounts.length = 16
  payload : Payload.decode i.data .legacy = .ok (.legacyClaim (hashName x.name) lamports space)

theorem isClaim_of_build (hv : x.deployment.version = .current)
    (h : (x.claim sale params payee space).build x.deployment = .ok i) :
    x.IsClaim sale params space payee i := by
  have haccounts := Operation.metas_of_build h
  obtain ⟨hprogram, -, hdata, hsupported⟩ := Operation.of_build h
  rw [hv] at hsupported
  refine ⟨hprogram, ?_, ?_, ?_, ?_, ?_, ?_⟩
  case refine_6 =>
    rw [hdata]
    exact Payload.decode_encode hsupported fun s hs => by cases hs
  -- the list is opened first: two addresses that look different are compared by a search
  all_goals
    rw [← Except.ok.inj haccounts]
    simp only [ClaimAccounts.metas, Domain.bidderPot]
    rfl

theorem isLegacyClaim_of_build (hv : x.deployment.version = .legacy)
    (h : (x.legacyClaim sale params lamports space).build x.deployment = .ok i) :
    x.IsLegacyClaim sale params lamports space i := by
  have haccounts := Operation.metas_of_build h
  obtain ⟨hprogram, -, hdata, hsupported⟩ := Operation.of_build h
  rw [hv] at hsupported
  refine ⟨hprogram, ?_, ?_, ?_, ?_, ?_, ?_⟩
  case refine_6 =>
    rw [hdata]
    exact Payload.decode_encode hsupported fun s hs => by cases hs
  all_goals
    rw [← Except.ok.inj haccounts]
    simp only [LegacyClaimAccounts.metas, Domain.bidderPot]
    rfl

/-- In its own protocol a claim is always built. -/
theorem exists_claim_build (x : Domain) (sale : NameAuction) (params : ClaimParams)
    (payee : Address) (space : UInt32) (hv : x.deployment.version = .current) :
    ∃ i, (x.claim sale params payee space).build x.deployment = .ok i :=
  Operation.build_eq_ok_iff.2 ⟨by rw [hv]; rfl, rfl⟩

theorem exists_legacyClaim_build (x : Domain) (sale : NameAuction) (params : ClaimParams)
    (lamports : UInt64) (space : UInt32) (hv : x.deployment.version = .legacy) :
    ∃ i, (x.legacyClaim sale params lamports space).build x.deployment = .ok i :=
  Operation.build_eq_ok_iff.2 ⟨by rw [hv]; rfl, rfl⟩

/-- The referrer stands behind the accounts of a claim without one. -/
theorem claim_build_referrer {referrer : Option Address}
    (h : (x.claim sale { params with referrer := none } payee space).build x.deployment = .ok i) :
    (x.claim sale { params with referrer } payee space).build x.deployment
      = .ok { i with accounts := i.accounts ++ referrer.toList.map .writes } := by
  obtain ⟨hprogram, -, hdata, hsupported⟩ := Operation.of_build h
  have hfront := Except.ok.inj (Operation.metas_of_build h)
  have hsupported' : (x.claim sale { params with referrer } payee space).payload.supportedIn
      x.deployment.version = true := hsupported
  obtain ⟨metas, haccounts, hbuild⟩ := Operation.build_of_validate hsupported' rfl
  have hmetas : metas = i.accounts ++ referrer.toList.map .writes := by
    rw [← hfront, ← Except.ok.inj haccounts]
    simp only [ClaimAccounts.metas, Option.toList_none, List.map_nil, List.append_nil]
  rw [hbuild, hmetas, ← hprogram, hdata]
  rfl

end Domain

namespace Node

variable {σ ε : Type} {node : Node σ ε} {s s' : σ} {x : Domain} {sale : NameAuction}
variable {params : ClaimParams} {space : UInt32} {draft : Draft}

theorem nameAuction_eq_ok_iff :
    node.nameAuction x s = .ok sale s'
      ↔ node.Shows NameAuction.layout x.state .processed s sale s' :=
  fetchRecord_eq_ok_iff

theorem resaleDestination_eq_ok_iff {payee : Address} :
    node.resaleDestination x s = .ok payee s'
      ↔ ∃ resale, node.Shows ResellingState.layout x.resellingState .confirmed s resale s'
        ∧ resale.tokenDestinationAccount = payee := by
  unfold resaleDestination resellingState
  simp only [Running.bind_eq_ok_iff, Session.within_eq_ok_iff, fetchRecord_eq_ok_iff,
    Running.pure_eq_ok_iff]
  constructor
  · rintro ⟨resale, t, hshows, rfl, rfl⟩
    exact ⟨resale, hshows, rfl⟩
  · rintro ⟨resale, hshows, rfl⟩
    exact ⟨resale, s', hshows, rfl, rfl⟩

/-- A resale whose record is missing has nobody to pay. -/
theorem resaleDestination_of_absent
    (h : node.answer (.account x.resellingState .confirmed) s = .ok none s') :
    node.resaleDestination x s
      = .error ⟨[.resellingState, .accountMissing x.resellingState],
          .auction .resellingStateNotFound⟩ s' :=
  Running.bind_of_error (Session.within_of_error (fetchRecord_of_absent h))

/-- Where a claim of the current protocol pays to. -/
def claimDestination (node : Node σ ε) (x : Domain) (sale : NameAuction) : Session σ ε Address :=
  if sale.isResale then node.resaleDestination x
  else pure (x.deployment.quoteVault sale.quoteMint)

theorem claimDraft_current (hv : x.deployment.version = .current) :
    node.claimDraft x params space = (do
      let sale ← node.nameAuction x
      let payee ← node.claimDestination x sale
      Session.ofExcept ((x.claim sale params payee space).draft x.deployment)) := by
  unfold claimDraft claimDestination
  simp only [hv]
  refine bind_congr fun sale => ?_
  cases sale.isResale <;> rfl

theorem claimDraft_legacy (hv : x.deployment.version = .legacy) :
    node.claimDraft x params space = (do
      let sale ← node.nameAuction x
      let lamports ← node.ask (.rentMinimum (NameHeader.size + space.toNat))
      Session.ofExcept ((x.legacyClaim sale params lamports space).draft x.deployment)) := by
  unfold claimDraft
  simp only [hv]

theorem claimDraft_current_eq_ok_iff (hv : x.deployment.version = .current) :
    node.claimDraft x params space s = .ok draft s'
      ↔ ∃ sale t payee, node.Shows NameAuction.layout x.state .processed s sale t
        ∧ node.claimDestination x sale t = .ok payee s'
        ∧ (x.claim sale params payee space).draft x.deployment = .ok draft := by
  rw [claimDraft_current hv]
  simp only [Running.bind_eq_ok_iff, nameAuction_eq_ok_iff, Session.ofExcept_eq_ok_iff]
  constructor
  · rintro ⟨sale, t, hsale, payee, t', hpayee, hdraft, rfl⟩
    exact ⟨sale, t, payee, hsale, hpayee, hdraft⟩
  · rintro ⟨sale, t, payee, hsale, hpayee, hdraft⟩
    exact ⟨sale, t, hsale, payee, s', hpayee, hdraft, rfl⟩

theorem claimDraft_legacy_eq_ok_iff (hv : x.deployment.version = .legacy) :
    node.claimDraft x params space s = .ok draft s'
      ↔ ∃ sale t lamports, node.Shows NameAuction.layout x.state .processed s sale t
        ∧ node.answer (.rentMinimum (NameHeader.size + space.toNat)) t = .ok lamports s'
        ∧ (x.legacyClaim sale params lamports space).draft x.deployment = .ok draft := by
  rw [claimDraft_legacy hv]
  simp only [Running.bind_eq_ok_iff, nameAuction_eq_ok_iff, ask_eq_ok_iff,
    Session.ofExcept_eq_ok_iff]
  constructor
  · rintro ⟨sale, t, hsale, lamports, t', hrent, hdraft, rfl⟩
    exact ⟨sale, t, lamports, hsale, hrent, hdraft⟩
  · rintro ⟨sale, t, lamports, hsale, hrent, hdraft⟩
    exact ⟨sale, t, hsale, lamports, s', hrent, hdraft, rfl⟩

/-- **Where a claim comes from and goes to.** The three ways in which an instruction `i` can be the
claim of a name, with what the node has to show for it. -/
inductive Claims (node : Node σ ε) (x : Domain) (params : ClaimParams) (space : UInt32) (s : σ)
    (i : Instruction) (s' : σ) : Prop
  | resale (sale : NameAuction) (resale : ResellingState) (t : σ) :
    x.deployment.version = .current →
    node.Shows NameAuction.layout x.state .processed s sale t → sale.isResale = true →
    node.Shows ResellingState.layout x.resellingState .confirmed t resale s' →
    x.IsClaim sale params space resale.tokenDestinationAccount i →
    Claims node x params space s i s'
  | firstAuction (sale : NameAuction) :
    x.deployment.version = .current →
    node.Shows NameAuction.layout x.state .processed s sale s' → sale.isResale = false →
    x.IsClaim sale params space (x.deployment.quoteVault sale.quoteMint) i →
    Claims node x params space s i s'
  | legacy (sale : NameAuction) (lamports : UInt64) (t : σ) :
    x.deployment.version = .legacy →
    node.Shows NameAuction.layout x.state .processed s sale t →
    node.answer (.rentMinimum (96 + space.toNat)) t = .ok lamports s' →
    x.IsLegacyClaim sale params lamports space i →
    Claims node x params space s i s'

/-- A claim that succeeds is one of the three. -/
theorem claims_of_claimDraft (h : node.claimDraft x params space s = .ok draft s') :
    ∃ i, draft = .ofInstruction i ∧ node.Claims x params space s i s' := by
  cases hv : x.deployment.version with
  | current =>
    obtain ⟨sale, t, payee, hsale, hpayee, hdraft⟩ := (claimDraft_current_eq_ok_iff hv).1 h
    obtain ⟨i, hbuild, rfl⟩ := Operation.draft_eq_ok_iff.1 hdraft
    refine ⟨i, rfl, ?_⟩
    have hclaim := Domain.isClaim_of_build hv hbuild
    unfold claimDestination at hpayee
    cases hresale : sale.isResale with
    | true =>
      rw [hresale, if_pos rfl] at hpayee
      obtain ⟨resale, hshows, rfl⟩ := resaleDestination_eq_ok_iff.1 hpayee
      exact .resale sale resale t hv hsale hresale hshows hclaim
    | false =>
      rw [hresale, if_neg Bool.false_ne_true] at hpayee
      obtain ⟨rfl, rfl⟩ := Running.pure_eq_ok_iff.1 hpayee
      exact .firstAuction sale hv hsale hresale hclaim
  | legacy =>
    obtain ⟨sale, t, lamports, hsale, hrent, hdraft⟩ := (claimDraft_legacy_eq_ok_iff hv).1 h
    obtain ⟨i, hbuild, rfl⟩ := Operation.draft_eq_ok_iff.1 hdraft
    exact ⟨i, rfl, .legacy sale lamports t hv hsale hrent (Domain.isLegacyClaim_of_build hv hbuild)⟩

/-- What a node has to show for a claim: the sale, and with it the record of a resale, or the rent
of a new account in the older protocol. -/
theorem exists_claimDraft_iff :
    (∃ draft s', node.claimDraft x params space s = .ok draft s')
      ↔ ∃ sale t, node.Shows NameAuction.layout x.state .processed s sale t ∧
        (x.deployment.version = .current → sale.isResale = true → ∃ resale s',
          node.Shows ResellingState.layout x.resellingState .confirmed t resale s') ∧
        (x.deployment.version = .legacy → ∃ lamports s',
          node.answer (.rentMinimum (96 + space.toNat)) t = .ok lamports s') := by
  constructor
  · rintro ⟨draft, s', h⟩
    obtain ⟨i, -, hclaims⟩ := claims_of_claimDraft h
    cases hclaims with
    | resale sale resale t hv hsale _ hshows _ =>
      exact ⟨sale, t, hsale, fun _ _ => ⟨resale, s', hshows⟩, fun hl => by simp [hv] at hl⟩
    | firstAuction sale hv hsale hfirst _ =>
      exact ⟨sale, s', hsale, fun _ hr => by simp [hfirst] at hr, fun hl => by simp [hv] at hl⟩
    | legacy sale lamports t hv hsale hrent _ =>
      exact ⟨sale, t, hsale, fun hc => by simp [hv] at hc, fun _ => ⟨lamports, s', hrent⟩⟩
  · rintro ⟨sale, t, hsale, hresale, hrent⟩
    cases hv : x.deployment.version with
    | current =>
      have hpayee : ∃ payee s', node.claimDestination x sale t = .ok payee s' := by
        unfold claimDestination
        cases hr : sale.isResale with
        | true =>
          obtain ⟨resale, s', hshows⟩ := hresale hv hr
          exact ⟨_, s', resaleDestination_eq_ok_iff.2 ⟨resale, hshows, rfl⟩⟩
        | false => exact ⟨_, t, rfl⟩
      obtain ⟨payee, s', hpayee⟩ := hpayee
      obtain ⟨i, hbuild⟩ := Domain.exists_claim_build x sale params payee space hv
      exact ⟨_, s', (claimDraft_current_eq_ok_iff hv).2
        ⟨sale, t, payee, hsale, hpayee, Operation.draft_eq_ok_iff.2 ⟨i, hbuild, rfl⟩⟩⟩
    | legacy =>
      obtain ⟨lamports, s', hanswer⟩ := hrent hv
      obtain ⟨i, hbuild⟩ := Domain.exists_legacyClaim_build x sale params lamports space hv
      exact ⟨_, s', (claimDraft_legacy_eq_ok_iff hv).2
        ⟨sale, t, lamports, hsale, hanswer, Operation.draft_eq_ok_iff.2 ⟨i, hbuild, rfl⟩⟩⟩

/-- A resale whose record is missing is not claimed. -/
theorem claimDraft_of_absent (hv : x.deployment.version = .current) {t : σ}
    (hsale : node.Shows NameAuction.layout x.state .processed s sale t)
    (hresale : sale.isResale = true)
    (habsent : node.answer (.account x.resellingState .confirmed) t = .ok none s') :
    node.claimDraft x params space s
      = .error ⟨[.resellingState, .accountMissing x.resellingState],
          .auction .resellingStateNotFound⟩ s' := by
  rw [claimDraft_current hv, Running.bind_of_ok (nameAuction_eq_ok_iff.2 hsale)]
  refine Running.bind_of_error ?_
  rw [claimDestination, if_pos hresale]
  exact resaleDestination_of_absent habsent

/-- A referrer is paid behind all other accounts, and changes nothing else. -/
theorem claimDraft_referrer (hv : x.deployment.version = .current) {i : Instruction}
    (h : node.claimDraft x { params with referrer := none } space s = .ok (.ofInstruction i) s')
    (referrer : Option Address) :
    node.claimDraft x { params with referrer } space s = .ok (.ofInstruction
      { i with accounts := i.accounts ++ referrer.toList.map .writes }) s' := by
  obtain ⟨sale, t, payee, hsale, hpayee, hdraft⟩ := (claimDraft_current_eq_ok_iff hv).1 h
  obtain ⟨i', hbuild, hi⟩ := Operation.draft_eq_ok_iff.1 hdraft
  cases hi
  exact (claimDraft_current_eq_ok_iff hv).2 ⟨sale, t, payee, hsale, hpayee,
    Operation.draft_eq_ok_iff.2 ⟨_, Domain.claim_build_referrer hbuild, rfl⟩⟩

/-- In the older protocol nobody is paid for a referral. -/
theorem legacy_claimDraft_referrer (hv : x.deployment.version = .legacy)
    (referrer : Option Address) :
    node.claimDraft x { params with referrer } space = node.claimDraft x params space := by
  rw [claimDraft_legacy hv, claimDraft_legacy hv]
  rfl

/-- **A claim pays and is signed for as the state of the sale says.** Every claim is one of the three,
so the state exists and decodes, and one is made exactly if the node shows what it needs. A resale
whose record is missing fails with the reason. The referrer is only ever the last account of a claim
of the current protocol. -/
theorem claimDraft_routes (node : Node σ ε) (x : Domain) (params : ClaimParams) (space : UInt32)
    (s : σ) :
    (∀ draft s', node.claimDraft x params space s = .ok draft s' →
      ∃ i, draft = .ofInstruction i ∧ node.Claims x params space s i s') ∧
    ((∃ draft s', node.claimDraft x params space s = .ok draft s') ↔
      ∃ sale t, node.Shows NameAuction.layout x.state .processed s sale t ∧
        (x.deployment.version = .current → sale.isResale = true → ∃ resale s',
          node.Shows ResellingState.layout x.resellingState .confirmed t resale s') ∧
        (x.deployment.version = .legacy → ∃ lamports s',
          node.answer (.rentMinimum (96 + space.toNat)) t = .ok lamports s')) ∧
    (x.deployment.version = .current →
      (∀ sale t s', node.Shows NameAuction.layout x.state .processed s sale t →
        sale.isResale = true →
        node.answer (.account x.resellingState .confirmed) t = .ok none s' →
        node.claimDraft x params space s = .error ⟨[.resellingState,
          .accountMissing x.resellingState], .auction .resellingStateNotFound⟩ s') ∧
      (∀ i s', node.claimDraft x { params with referrer := none } space s
          = .ok (.ofInstruction i) s' →
        node.claimDraft x params space s = .ok (.ofInstruction
          { i with accounts := i.accounts ++ params.referrer.toList.map .writes }) s')) ∧
    (x.deployment.version = .legacy → ∀ referrer,
      node.claimDraft x { params with referrer } space = node.claimDraft x params space) :=
  ⟨fun _ _ => claims_of_claimDraft, exists_claimDraft_iff,
    fun hv => ⟨fun _ _ _ => claimDraft_of_absent hv,
      fun _ _ h => claimDraft_referrer hv h params.referrer⟩,
    fun hv => legacy_claimDraft_referrer hv⟩

/-- A node that shows a resale to everyone who asks. -/
def showingResale (payee : Address) : Node Unit Unit where
  answer
    | .account _ .processed =>
      return some (NameAuction.layout.write ⟨.secondaryAuction, .zero 32, 255, .zero 32⟩)
    | .account _ _ => return some (ResellingState.layout.write ⟨payee⟩)
    | _ => throw ()

theorem showingResale_shows {payee address : Address} :
    (showingResale payee).Shows NameAuction.layout address .processed ()
        ⟨.secondaryAuction, .zero 32, 255, .zero 32⟩ () ∧
      (showingResale payee).Shows ResellingState.layout address .confirmed () ⟨payee⟩ () :=
  ⟨⟨_, rfl, NameAuction.exact_layout.decode_eq_ok_iff.2 ⟨trivial, [], (List.append_nil _).symm⟩⟩,
    ⟨_, rfl, ResellingState.exact_layout.decode_eq_ok_iff.2
      ⟨trivial, [], (List.append_nil _).symm⟩⟩⟩

/-- A resale is claimed for the wallet at address two, which does not sign. The reseller's account at
address seven is paid. -/
theorem claimDraft_showingResale :
    ∃ i s', (showingResale (.ofNat 32 7)).claimDraft (.underRoot .mainnet "sol")
        ⟨.ofNat 32 1, .ofNat 32 2, .ofNat 32 3, none, .ofNat 32 4, none⟩ 1000 ()
          = .ok (.ofInstruction i) s' ∧
      i.accounts[13]? = some (.writes (.ofNat 32 7)) ∧
      i.accounts[14]? = some (.reads (.ofNat 32 2)) := by
  obtain ⟨hroute, hmade, -, -⟩ := claimDraft_routes (showingResale (.ofNat 32 7))
    (.underRoot .mainnet "sol") ⟨.ofNat 32 1, .ofNat 32 2, .ofNat 32 3, none, .ofNat 32 4, none⟩
    1000 ()
  obtain ⟨draft, s', h⟩ := hmade.2 ⟨_, _, showingResale_shows.1,
    fun _ _ => ⟨_, _, showingResale_shows.2⟩, fun hv => by cases hv⟩
  obtain ⟨i, rfl, hclaims⟩ := hroute draft s' h
  refine ⟨i, s', h, ?_⟩
  cases hclaims with
  | resale sale resale t hv hsale hr hshows hclaim =>
    cases hsale.unique showingResale_shows.1
    cases hshows.unique showingResale_shows.2
    exact ⟨hclaim.payee, hclaim.bidder⟩
  | firstAuction sale hv hsale hfirst hclaim =>
    cases hsale.unique showingResale_shows.1
    cases hfirst
  | legacy sale lamports t hv hsale hrent hclaim => cases hv

end Node

end DomainAuction
