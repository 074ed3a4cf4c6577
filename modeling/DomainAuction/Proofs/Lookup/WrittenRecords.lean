import DomainAuction.Proofs.Lookup.BatchedAnswers
import DomainAuction.Proofs.Lookup.ReverseLookups
import DomainAuction.Proofs.Lookup.Views
import DomainAuction.Proofs.Operation.Places

/-!
# WrittenRecords — operations name the accounts that views read

An operation tells the program where the records of a domain are, and a view asks a node for them.
They are the same accounts, for every domain and every deployment, so whatever record the program
writes where an operation told it to is the record that the view shows.
-/

namespace DomainAuction

namespace DomainRecord

/-! ## The views of a domain -/

/-- What the account of a record holds. -/
def Content : DomainRecord → Type
  | header => NameHeader
  | sale => NameAuction
  | resale => ResellingState
  | text => ReverseLookup

def layout : (r : DomainRecord) → Layout r.Content
  | header => NameHeader.layout
  | sale => NameAuction.layout
  | resale => ResellingState.layout
  | text => ReverseLookup.layout

/-- The contents that can be written: the length of a text has 32 bits. -/
def Fits : (r : DomainRecord) → r.Content → Prop
  | text => fun content => FitsPrefix content.name
  | header | sale | resale => fun _ => True

/-- What a view shows: of a name account the owner, of a reverse lookup the text. -/
def Shown : DomainRecord → Type
  | header => Address
  | sale => NameAuction
  | resale => ResellingState
  | text => String

def shown : (r : DomainRecord) → r.Content → r.Shown
  | header => NameHeader.owner
  | sale => id
  | resale => id
  | text => ReverseLookup.name

def commitment : DomainRecord → Commitment
  | sale => .processed
  | header | resale | text => .confirmed

def missing : DomainRecord → AuctionError
  | sale => .auctionNotFound
  | resale => .resellingStateNotFound
  | header | text => .accountNotFound

/-- The view of a record of a domain. -/
def view {σ ε : Type} (node : Node σ ε) (x : Domain) : (r : DomainRecord) → Session σ ε r.Shown
  | header => node.domainOwner x
  | sale => node.nameAuction x
  | resale => node.resellingState x
  | text => node.reverseLookup x.deployment x.nameAccount

theorem exact_layout : (r : DomainRecord) → r.layout.Exact r.Fits
  | header => NameHeader.exact_layout
  | sale => NameAuction.exact_layout
  | resale => ResellingState.exact_layout
  | text => ReverseLookup.exact_layout

theorem isView {ε : Type} (x : Domain) (r : DomainRecord) :
    Node.IsView (ε := ε) (fun node => r.view node x) (r.address x) r.commitment r.missing
      fun data => r.layout.decode data >>= fun content => .ok (r.shown content) := by
  have hwhole : ∀ {α : Type} (layout : Layout α),
      (fun data => layout.decode data >>= fun a => .ok (id a)) = layout.decode := by
    intro α layout
    funext data
    cases layout.decode data <;> rfl
  cases r with
  | header => exact Node.domainOwner_isView x
  | sale =>
    have hview : Node.IsView (ε := ε) (fun node => node.nameAuction x) x.state .processed
        .auctionNotFound NameAuction.layout.decode :=
      Node.fetchRecord_isView NameAuction.layout_blamesData rfl
    rw [← hwhole] at hview
    exact hview
  | resale =>
    have hview : Node.IsView (ε := ε) (fun node => node.resellingState x) x.resellingState
        .confirmed .resellingStateNotFound ResellingState.layout.decode :=
      Node.fetchRecord_isView ResellingState.layout_blamesData rfl
    rw [← hwhole] at hview
    exact hview
  | text => exact Node.reverseLookup_isView x.deployment x.nameAccount

/-- A record is read at an address: its view asks for the account there, and shows what is written
there, with anything behind it. -/
structure ReadAt (r : DomainRecord) (x : Domain) (address : Address) : Prop where
  requests : ∀ {σ ε : Type} (node : Node σ ε) (s : σ),
    (r.view node.recorded x).requests s = [.account address r.commitment]
  shows : ∀ {σ ε : Type} (node : Node σ ε) (s s' : σ) (content : r.Content) (rest : Bytes),
    r.Fits content →
    node.answer (.account address r.commitment) s = .ok (some (r.layout.write content ++ rest)) s' →
    r.view node x s = .ok (r.shown content) s'

theorem readAt (r : DomainRecord) (x : Domain) : r.ReadAt x (r.address x) where
  requests node s := (isView x r).requests node s
  shows node s s' content rest hfits hanswer := by
    have hdecode : r.layout.decode (r.layout.write content ++ rest) = .ok content :=
      r.exact_layout.decode_eq_ok_iff.2 ⟨hfits, rest, rfl⟩
    refine ((isView x r).ok_iff node s _ s').2 ⟨_, hanswer, ?_⟩
    rw [hdecode, Running.ok_bind]

end DomainRecord

namespace Node

/-! ## Many reverse lookups -/

variable {σ ε : Type} {node : Node σ ε}

theorem askedFor_of_batches {α : Type} {m : Session (σ × List Request) ε α} {s : σ}
    {slices : List (List Address)} (h : (m.after (s, [])).2 = slices.map .accounts) :
    m.askedFor s = slices.flatten := by
  unfold Session.askedFor Session.requests
  rw [h, List.flatMap_map]
  exact List.flatMap_id

/-- The lookup of many names asks for their reverse lookups in order, up to the first request that
fails. -/
theorem reverseLookups_askedFor (node : Node σ ε) (d : Deployment) (nameAccounts : List Address)
    (s : σ) :
    (node.recorded.reverseLookups d nameAccounts).askedFor s
        <+: nameAccounts.map d.reverseLookup ∧
      ∀ names t, node.recorded.reverseLookups d nameAccounts (s, []) = .ok names t →
        (node.recorded.reverseLookups d nameAccounts).askedFor s
          = nameAccounts.map d.reverseLookup := by
  cases hdata : node.recorded.accountsData (nameAccounts.map d.reverseLookup) (s, []) with
  | ok data t =>
    obtain ⟨answered, hslices, hserves, -⟩ := accountsData_eq_ok_iff.1 hdata
    obtain ⟨-, hasked⟩ := recorded_serves_iff.1 hserves
    have hrun : node.recorded.reverseLookups d nameAccounts (s, []) = .ok (data.map nameOf) t :=
      Running.bind_of_ok hdata
    have hall : (node.recorded.reverseLookups d nameAccounts).askedFor s
        = nameAccounts.map d.reverseLookup := by
      rw [← flatten_batches (nameAccounts.map d.reverseLookup), ← hslices]
      exact askedFor_of_batches (by rw [Session.after_of_ok hrun, hasked, List.nil_append])
    exact ⟨hall ▸ List.prefix_rfl, fun _ _ _ => hall⟩
  | error failure t =>
    obtain ⟨answered, slice, later, u, hsplit, hserves, hspoils⟩ :=
      accountsData_eq_error_iff.1 hdata
    obtain ⟨-, hasked⟩ := recorded_serves_iff.1 hserves
    obtain ⟨-, hlast⟩ := recorded_spoils_iff.1 hspoils
    have hrun : node.recorded.reverseLookups d nameAccounts (s, []) = .error failure t :=
      Running.bind_of_error hdata
    have hfront : (node.recorded.reverseLookups d nameAccounts).askedFor s
        = (answered.map Prod.fst ++ [slice]).flatten := by
      refine askedFor_of_batches ?_
      rw [Session.after_of_error hrun, hlast, hasked, List.map_append, List.nil_append]
      rfl
    refine ⟨⟨later.flatten, ?_⟩, fun names t' hok => ?_⟩
    · rw [hfront, ← flatten_batches (nameAccounts.map d.reverseLookup), hsplit,
        ← List.flatten_append, List.append_assoc]
      rfl
    · cases hrun.symm.trans hok

/-- The name of a name account is looked up at an address, among the names of any others: what is
asked for at its position is the account there, and what comes back is the text that is written
there. -/
structure LookedUpAt (d : Deployment) (nameAccount address : Address) : Prop where
  asks : ∀ {σ ε : Type} (node : Node σ ε) (s : σ) (nameAccounts : List Address) (j : Nat),
    nameAccounts[j]? = some nameAccount →
      (∀ a, ((node.recorded.reverseLookups d nameAccounts).askedFor s)[j]? = some a → a = address) ∧
      ∀ names t, node.recorded.reverseLookups d nameAccounts (s, []) = .ok names t →
        ((node.recorded.reverseLookups d nameAccounts).askedFor s)[j]? = some address
  shows : ∀ {σ ε : Type} (node : Node σ ε) (v : node.Snapshot) (s : σ)
    (nameAccounts : List Address) (j : Nat) (record : ReverseLookup) (rest : Bytes), v.Steady s →
    nameAccounts[j]? = some nameAccount → FitsPrefix record.name →
    v.data? address = some (ReverseLookup.layout.write record ++ rest) →
      ∃ names s', node.reverseLookups d nameAccounts s = .ok names s'
        ∧ names[j]? = some (some record.name)

theorem lookedUpAt (d : Deployment) (nameAccount : Address) :
    LookedUpAt d nameAccount (d.reverseLookup nameAccount) where
  asks node s nameAccounts j hj := by
    obtain ⟨⟨rest, hprefix⟩, hall⟩ := reverseLookups_askedFor node d nameAccounts s
    have hplace : (nameAccounts.map d.reverseLookup)[j]? = some (d.reverseLookup nameAccount) := by
      rw [List.getElem?_map, hj, Option.map_some]
    refine ⟨fun a ha => ?_, fun names t hok => ?_⟩
    · obtain ⟨hlt, -⟩ := List.getElem?_eq_some_iff.1 ha
      rw [← hprefix, List.getElem?_append_left hlt, ha] at hplace
      exact Option.some.inj hplace
    · rw [hall names t hok, hplace]
  shows node v s nameAccounts j record rest hs hj hfits hdata := by
    have hdecode : ReverseLookup.layout.decode (ReverseLookup.layout.write record ++ rest)
        = .ok record := ReverseLookup.exact_layout.decode_eq_ok_iff.2 ⟨hfits, rest, rfl⟩
    obtain ⟨s', hrun, -⟩ := v.reverseLookups d nameAccounts hs
    refine ⟨_, s', hrun, ?_⟩
    rw [List.getElem?_map, hj, Option.map_some, hdata]
    simp [nameOf, hdecode, Except.toOption]

end Node

/-! ## What operations name -/

/-- The account that a name has as a domain is the one that is found by the name. -/
theorem Domain.nameAccount_of_root (x : Domain) (h : x.parent = x.deployment.rootDomain) :
    x.nameAccount = x.deployment.domainAccount x.name := by
  unfold Domain.nameAccount Domain.hashedName Deployment.domainAccount
  rw [h]

/-- **Operations name what views read.** An operation on a domain that its protocol has is built,
and wherever the instruction names a record of the domain, the views of that record ask for the
account named there and show what is written there. A name account under the root is the one that is
found by the name, and a reverse lookup is found for its name account alone or among others. -/
theorem Operation.On.reads_what_is_named {x : Domain} {op : Operation} (h : op.On x)
    (hsupported : op.payload.supportedIn x.deployment.version = true)
    (howner : ¬ op.LacksParentOwner) :
    ∃ i, op.build x.deployment = .ok i ∧ ∀ r k address, op.named r = some (k, address) →
      (∃ m, i.accounts[k]? = some m ∧ m.address = address) ∧
      r.ReadAt x address ∧
      (r = .header → x.parent = x.deployment.rootDomain →
        address = x.deployment.domainAccount x.name) ∧
      (r = .text → Node.LookedUpAt x.deployment x.nameAccount address) := by
  obtain ⟨i, hbuild⟩ := h.exists_build hsupported howner
  refine ⟨i, hbuild, fun r k address hr => ⟨?_, ?_, ?_, ?_⟩⟩
  · exact address_at_place (metas_of_build hbuild) hr
  · rw [h.address_eq hr]
    exact r.readAt x
  · rintro rfl hroot
    rw [h.address_eq hr, DomainRecord.address, x.nameAccount_of_root hroot]
  · rintro rfl
    rw [h.address_eq hr]
    exact Node.lookedUpAt x.deployment x.nameAccount

/-- A ledger with one account. -/
def Ledger.single (address : Address) (data : Bytes) : Ledger :=
  (Ledger.empty none [] 0).insert { address, owner := .zero 32, data }

theorem Ledger.single_answer (address : Address) (data : Bytes) (commitment : Commitment) :
    Ledger.node.answer (.account address commitment) (.single address data)
      = .ok (some data) (.single address data) := by
  refine node_answer_of_ok List.not_mem_nil ?_
  simp [single, insert, empty, Account.insert, answer, data?]

/-- A name under another parent than the root domain. -/
def subdomain : Domain :=
  ⟨.mainnet, "sub", .zero 32⟩

/-- The reverse lookup that is created for a subdomain is the fourth account, and tells the name
when it is written there. -/
theorem createReverse_subdomain :
    ∃ i m s', (subdomain.createReverse (.ofNat 32 1) (some (.ofNat 32 2))).build .mainnet = .ok i ∧
      i.accounts[3]? = some m ∧
      Ledger.node.reverseLookup .mainnet subdomain.nameAccount (.single m.address
        (ReverseLookup.layout.write ⟨⟨.zero 32, .ofNat 32 2, .zero 32⟩, "sub"⟩ ++ [0, 0]))
          = .ok "sub" s' := by
  obtain ⟨i, hbuild, hnamed⟩ := Operation.On.reads_what_is_named
    (Operation.On.createReverse (x := subdomain) (.ofNat 32 1) (some (.ofNat 32 2))) rfl
    (fun h => Option.some_ne_none _ h.2)
  obtain ⟨⟨m, hm, haddress⟩, hread, -, -⟩ := hnamed .text 3 _ rfl
  have hfits : DomainRecord.text.Fits ⟨⟨.zero 32, .ofNat 32 2, .zero 32⟩, "sub"⟩ :=
    show (utf8 "sub").length < 2 ^ 32 by decide
  rw [← haddress] at hread
  exact ⟨i, m, _, hbuild, hm, hread.shows Ledger.node _ _ _ [0, 0] hfits
    (Ledger.single_answer _ _ _)⟩

end DomainAuction
