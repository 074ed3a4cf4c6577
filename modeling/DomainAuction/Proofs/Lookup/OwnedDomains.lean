import DomainAuction.Proofs.Lookup.Listing
import DomainAuction.Proofs.Lookup.Views
import DomainAuction.Proofs.Scan.AddressWindows

/-!
# OwnedDomains — the names of an owner, found without decoding

The search for the names of an owner trusts the windows and decodes nothing. The windows look at the
parent and the owner, which stand in front, and a name account goes on behind them. So the search
finds all that decoding would find, and besides the accounts that break off behind the owner: these
have no owner that a lookup could tell.
-/

namespace DomainAuction

/-- Two tests keep the same elements of a list without repetitions exactly if they agree on it. -/
theorem map_filter_eq_iff {α β : Type} {f : α → β} {xs : List α} {p q : α → Bool}
    (hxs : (xs.map f).Nodup) :
    (xs.filter p).map f = (xs.filter q).map f ↔ ∀ x ∈ xs, p x = q x := by
  have hkept : ∀ {p q : α → Bool}, (xs.filter p).map f = (xs.filter q).map f →
      ∀ x ∈ xs, p x = true → q x = true := by
    intro p q heq x hx hp
    have hmem : f x ∈ (xs.filter q).map f :=
      heq ▸ List.mem_map_of_mem (List.mem_filter.2 ⟨hx, hp⟩)
    obtain ⟨y, hy, hyx⟩ := List.mem_map.1 hmem
    obtain ⟨hy, hq⟩ := List.mem_filter.1 hy
    exact List.inj_on_of_nodup_map hxs hy hx hyx ▸ hq
  constructor
  · intro heq x hx
    exact Bool.eq_iff_iff.2 ⟨hkept heq x hx, hkept heq.symm x hx⟩
  · intro hagree
    rw [List.filter_congr hagree]

namespace Node

open NameHeader (Names CutOff)

variable {parent owner : Address} {data : Bytes}

/-! ## The search that decodes -/

/-- The header that data hold, if it is of a name of the owner under the parent. -/
def nameOfOwner (parent owner : Address) (data : Bytes) : Option NameHeader :=
  (NameHeader.layout.decode data).toOption.filter fun h =>
    h.owner == owner && h.parentName == parent

theorem isSome_nameOfOwner_iff :
    (nameOfOwner parent owner data).isSome = true ↔ Names parent owner data := by
  unfold nameOfOwner Names
  simp only [Option.isSome_iff_exists, filter_toOption_eq_some_iff, Bool.and_eq_true, beq_iff_eq]

/-- The names of an owner under a parent among some accounts, found by decoding every one of
them. -/
def namesAmong (parent owner : Address) (accounts : List (Address × Bytes)) : List Address :=
  (decodeAll (nameOfOwner parent owner) accounts).map Prod.fst

/-- The windows and the decoder disagree about what is cut off, and about nothing else. -/
theorem allShow_eq_isSome_iff :
    Window.allShow (Window.ofOwner owner (some parent)) data
        = (nameOfOwner parent owner data).isSome
      ↔ ¬ CutOff parent owner data := by
  rw [Bool.eq_iff_iff, isSome_nameOfOwner_iff, NameHeader.allShow_ofOwner_cases]
  constructor
  · intro hsame hcut
    exact (hsame.1 (.inr hcut)).not_cutOff hcut
  · intro hnot
    exact ⟨fun h => h.resolve_right hnot, .inl⟩

/-! ## The search that trusts the windows -/

/-- The accounts that the windows for the names of an owner under a parent find among others. -/
def namesShown (parent owner : Address) (accounts : List (Address × Bytes)) : List Address :=
  (accounts.filter fun a => Window.allShow (Window.ofOwner owner (some parent)) a.2).map Prod.fst

section

variable {accounts : List (Address × Bytes)}

theorem namesShown_sublist : (namesShown parent owner accounts).Sublist (accounts.map Prod.fst) :=
  List.filter_sublist.map _

theorem mem_namesShown_iff {address : Address} :
    address ∈ namesShown parent owner accounts ↔ ∃ data, (address, data) ∈ accounts
      ∧ (Names parent owner data ∨ CutOff parent owner data) := by
  simp only [namesShown, List.mem_map, List.mem_filter, NameHeader.allShow_ofOwner_cases,
    Prod.exists, exists_and_right, exists_eq_right]

/-- Trusting the windows is as good as decoding where no account is cut off, and only there. -/
theorem namesShown_eq_namesAmong_iff (honce : (accounts.map Prod.fst).Nodup) :
    namesShown parent owner accounts = namesAmong parent owner accounts
      ↔ ∀ a ∈ accounts, ¬ CutOff parent owner a.2 := by
  rw [namesShown, namesAmong, addresses_decodeAll, map_filter_eq_iff honce]
  simp only [allShow_eq_isSome_iff]

end

variable {σ ε : Type} {node : Node σ ε} {d : Deployment} {s s' : σ}

theorem ownedDomains_of_listing (l : node.Listing d.namingServiceProgram) (owner : Address)
    (hs : l.Steady s) :
    ∃ s', node.ownedDomains d owner s = .ok (namesShown d.rootDomain owner l.accounts) s'
      ∧ l.Steady s' := by
  obtain ⟨s', hscan, hs'⟩ := l.ask (Window.ofOwner owner (some d.rootDomain)) hs
  exact ⟨s', Running.bind_eq_ok_iff.2 ⟨_, s', hscan, rfl⟩, hs'⟩

/-! ## The owners of the names that are found -/

/-- The owner of a name is told by its account. -/
theorem domainOwner_of_names {x : Domain}
    (hanswer : node.answer (.account x.nameAccount .confirmed) s = .ok (some data) s')
    (hnames : Names parent owner data) : node.domainOwner x s = .ok owner s' := by
  obtain ⟨h, hdecode, rfl, -⟩ := hnames
  refine ((domainOwner_isView x).ok_iff node s h.owner s').2 ⟨data, hanswer, ?_⟩
  rw [hdecode, Running.ok_bind]

/-- No owner is told by an account that is cut off. -/
theorem domainOwner_of_cutOff {x : Domain}
    (hanswer : node.answer (.account x.nameAccount .confirmed) s = .ok (some data) s')
    (hcut : CutOff parent owner data) :
    (node.domainOwner x).FailsWith s (some .insufficientByteLength) s' := by
  refine (((domainOwner_isView x).deserialization_iff node s _ s').2 ⟨data, hanswer, ?_⟩).1
  rw [hcut.decode, Running.error_bind]

/-- The owner of a name that was found among some accounts, asked of a node that shows the account
of the name as it stands among them. -/
theorem domainOwner_of_shown {x : Domain} {accounts : List (Address × Bytes)}
    (honce : (accounts.map Prod.fst).Nodup) (hlisted : (x.nameAccount, data) ∈ accounts)
    (hfound : x.nameAccount ∈ namesShown parent owner accounts)
    (hanswer : node.answer (.account x.nameAccount .confirmed) s = .ok (some data) s') :
    node.domainOwner x s = .ok owner s'
      ∨ CutOff parent owner data
        ∧ (node.domainOwner x).FailsWith s (some .insufficientByteLength) s' := by
  obtain ⟨data', hlisted', hcases⟩ := mem_namesShown_iff.1 hfound
  have hsame : (x.nameAccount, data') = (x.nameAccount, data) :=
    List.inj_on_of_nodup_map honce hlisted' hlisted rfl
  obtain rfl := (Prod.mk.inj hsame).2
  rcases hcases with hnames | hcut
  · exact .inl (domainOwner_of_names hanswer hnames)
  · exact .inr ⟨hcut, domainOwner_of_cutOff hanswer hcut⟩

/-- **The search finds the names of the owner, and what is cut off of such a name.** On a node that
lists its accounts, it finds each once and in their order. It is the search that decodes exactly if
no account is cut off. The owner of a name that it finds is told by a lookup, unless the account of
the name is cut off: then the lookup fails. -/
theorem ownedDomains_names_or_cutOff (l : node.Listing d.namingServiceProgram) (owner : Address)
    (hs : l.Steady s) :
    ∃ found s', node.ownedDomains d owner s = .ok found s' ∧ l.Steady s'
      ∧ found.Sublist (l.accounts.map Prod.fst) ∧ found.Nodup
      ∧ (∀ address, address ∈ found ↔ ∃ data, (address, data) ∈ l.accounts
          ∧ (Names d.rootDomain owner data ∨ CutOff d.rootDomain owner data))
      ∧ (found = namesAmong d.rootDomain owner l.accounts
          ↔ ∀ a ∈ l.accounts, ¬ CutOff d.rootDomain owner a.2)
      ∧ ∀ name data t t', (d.domainAccount name, data) ∈ l.accounts →
          node.answer (.account (d.domainAccount name) .confirmed) t = .ok (some data) t' →
          d.domainAccount name ∈ found →
            node.domainOwner (.underRoot d name) t = .ok owner t'
            ∨ CutOff d.rootDomain owner data
              ∧ (node.domainOwner (.underRoot d name)).FailsWith t
                (some .insufficientByteLength) t' := by
  obtain ⟨s', hrun, hs'⟩ := ownedDomains_of_listing l owner hs
  refine ⟨_, s', hrun, hs', namesShown_sublist, l.once.sublist namesShown_sublist,
    fun _ => mem_namesShown_iff, namesShown_eq_namesAmong_iff l.once, ?_⟩
  intro name data t t' hlisted hanswer hfound
  exact domainOwner_of_shown l.once hlisted hfound hanswer

/-- A ledger with the account of one name directly under the root domain. -/
def oneName (d : Deployment) (name : String) (data : Bytes) : Ledger :=
  (Ledger.empty none [] 0).insert
    { address := d.domainAccount name, owner := d.namingServiceProgram, data }

def oneNameListing (d : Deployment) (name : String) (data : Bytes) :
    Ledger.node.Listing d.namingServiceProgram :=
  (oneName d name data).listing d.namingServiceProgram List.not_mem_nil

theorem accounts_oneNameListing (d : Deployment) (name : String) (data : Bytes) :
    (oneNameListing d name data).accounts = [(d.domainAccount name, data)] := by
  simp [oneNameListing, Ledger.listing, oneName, Ledger.insert, Ledger.empty, Account.insert,
    Ledger.ownedBy, Window.allShow]

theorem answer_oneName (d : Deployment) (name : String) (data : Bytes) :
    Ledger.node.answer (.account (d.domainAccount name) .confirmed) (oneName d name data)
      = .ok (some data) (oneName d name data) := by
  refine Ledger.node_answer_of_ok List.not_mem_nil ?_
  simp [Ledger.answer, oneName, Ledger.insert, Ledger.empty, Account.insert, Ledger.data?]

/-- The account of a name that belongs to the address zero. -/
def wholeName (d : Deployment) : Bytes :=
  NameHeader.layout.write ⟨d.rootDomain, .zero 32, .zero 32⟩

/-- The same account without its class. -/
def cutName (d : Deployment) : Bytes :=
  d.rootDomain.toList ++ (Octets.zero 32).toList

theorem names_wholeName (d : Deployment) : Names d.rootDomain (.zero 32) (wholeName d) :=
  ⟨_, NameHeader.exact_layout.decode_eq_ok_iff.2 ⟨trivial, [], (List.append_nil _).symm⟩, rfl, rfl⟩

theorem cutOff_cutName (d : Deployment) : CutOff d.rootDomain (.zero 32) (cutName d) := by
  refine ⟨List.prefix_rfl, ?_⟩
  rw [cutName, List.length_append, Octets.length_toList, Octets.length_toList]
  decide

/-- A whole name is found, and a lookup tells its owner. -/
theorem ownedDomains_wholeName :
    ∃ found s', Ledger.node.ownedDomains .mainnet (.zero 32)
        (oneName .mainnet "sol" (wholeName .mainnet)) = .ok found s'
      ∧ Deployment.mainnet.domainAccount "sol" ∈ found
      ∧ ∃ t', Ledger.node.domainOwner (.underRoot .mainnet "sol")
        (oneName .mainnet "sol" (wholeName .mainnet)) = .ok (.zero 32) t' := by
  obtain ⟨found, s', hrun, -, -, -, hmem, -, howner⟩ := ownedDomains_names_or_cutOff
    (oneNameListing .mainnet "sol" (wholeName .mainnet)) (.zero 32) rfl
  rw [accounts_oneNameListing] at hmem howner
  have hfound := (hmem _).2 ⟨_, List.mem_singleton_self _, .inl (names_wholeName _)⟩
  refine ⟨found, s', hrun, hfound, oneName .mainnet "sol" (wholeName .mainnet), ?_⟩
  refine (howner "sol" _ _ _ (List.mem_singleton_self _) (answer_oneName _ _ _)
    hfound).resolve_right ?_
  rintro ⟨hcut, -⟩
  exact (names_wholeName _).not_cutOff hcut

/-- The name is found, though nothing decodes. -/
theorem oneName_of_cutOff {d : Deployment} {owner : Address} {data : Bytes} (name : String)
    (hcut : CutOff d.rootDomain owner data) :
    (∃ s', Ledger.node.ownedDomains d owner (oneName d name data)
      = .ok [d.domainAccount name] s') ∧
    namesAmong d.rootDomain owner (oneNameListing d name data).accounts = [] := by
  constructor
  · obtain ⟨s', hrun, -⟩ := ownedDomains_of_listing (oneNameListing d name data) owner rfl
    have hshown := NameHeader.allShow_ofOwner_cases.2 (.inr hcut)
    simp only [namesShown, accounts_oneNameListing, List.filter_cons, hshown, if_true,
      List.filter_nil, List.map_cons, List.map_nil] at hrun
    exact ⟨s', hrun⟩
  · rw [accounts_oneNameListing, namesAmong, addresses_decodeAll, List.map_eq_nil_iff,
      List.filter_eq_nil_iff]
    intro a ha hnames
    obtain rfl := List.mem_singleton.1 ha
    exact (isSome_nameOfOwner_iff.1 hnames).not_cutOff hcut

/-- A name that is cut off is found as well, although it does not decode, and a lookup of its owner
fails. -/
theorem ownedDomains_cutName :
    (∃ s', Ledger.node.ownedDomains .mainnet (.zero 32) (oneName .mainnet "sol" (cutName .mainnet))
      = .ok [Deployment.mainnet.domainAccount "sol"] s') ∧
    namesAmong Deployment.mainnet.rootDomain (.zero 32)
      (oneNameListing .mainnet "sol" (cutName .mainnet)).accounts = [] ∧
    ∃ t', (Ledger.node.domainOwner (.underRoot .mainnet "sol")).FailsWith
      (oneName .mainnet "sol" (cutName .mainnet)) (some .insufficientByteLength) t' := by
  have hcut := cutOff_cutName .mainnet
  obtain ⟨hfound, hnone⟩ := oneName_of_cutOff "sol" hcut
  exact ⟨hfound, hnone, _, domainOwner_of_cutOff (answer_oneName _ _ _) hcut⟩

end Node

end DomainAuction
