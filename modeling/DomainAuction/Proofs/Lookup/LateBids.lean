import DomainAuction.Proofs.Lookup.EndingAuctions

/-!
# LateBids — a bid between the two scans of a search

The search for ending auctions asks twice, and the ledger does not wait in between. The auctions
without a bid are scanned first, so an auction whose first bid arrives between the scans is found by
both: once as it was, and once more with its bid. In the other order it would be found by neither.
So no auction that ends in time is missed, and the only ones that are listed twice are those with a
first bid between the scans.
-/

namespace DomainAuction

namespace Node

variable {σ ε : Type}

/-- What bids make of the data of an auction: they change the time of the last bid and nothing else,
and are not taken back. -/
def OnlyBids (data data' : Bytes) : Prop :=
  ∀ h h', AuctionHeader.layout.decode data = .ok h → AuctionHeader.layout.decode data' = .ok h' →
    h' = { h with lastBid := h'.lastBid } ∧ (h.lastBid.isSome → h'.lastBid.isSome)

/-- The accounts of a program, as a node lists them before and after a moment between two requests.
An auction that is listed both times may have got bids meanwhile. -/
structure LateBids (node : Node σ ε) (program : Address) where
  earlier : List (Address × Bytes)
  once : (earlier.map Prod.fst).Nodup
  later : node.Listing program
  /-- The states in which the moment has not yet come. -/
  Before : σ → Prop
  /-- The first scan is answered from the earlier accounts, and then the moment has come. -/
  answers : ∀ windows s, Before s → ∃ s',
    node.answer (.programAccounts program windows) s
      = .ok (earlier.filter fun a => Window.allShow windows a.2) s' ∧ later.Steady s'
  bids : ∀ address data data', (address, data) ∈ earlier → (address, data') ∈ later.accounts →
    OnlyBids data data'

/-! ## What is found -/

/-- A list with one entry for each key has one entry for a key that it has. -/
theorem filter_key_of_mem {α : Type} {xs : List (Address × α)} {address : Address} {a : α}
    (honce : (xs.map Prod.fst).Nodup) (hmem : (address, a) ∈ xs) :
    xs.filter (fun x => x.1 == address) = [(address, a)] := by
  induction xs with
  | nil => cases hmem
  | cons x rest ih =>
    obtain ⟨hfresh, honce⟩ := List.nodup_cons.1 honce
    rcases List.mem_cons.1 hmem with rfl | hmem
    · have hrest : rest.filter (fun x => x.1 == address) = [] := by
        rw [List.filter_eq_nil_iff]
        intro y hy heq
        exact hfresh (List.mem_map.2 ⟨y, hy, eq_of_beq heq⟩)
      simp [hrest]
    · have hne : x.1 ≠ address := fun heq => hfresh (List.mem_map.2 ⟨_, hmem, heq.symm⟩)
      simp [hne, ih honce hmem]

variable {node : Node σ ε} {d : Deployment} {s : σ} {now interval : Int64}

/-- The search lists what the first scan found without a bid, and then what the second found with
one. -/
theorem LateBids.endingAuctions (l : node.LateBids d.auctionProgram) (now interval : Int64)
    (hs : l.Before s) :
    ∃ s', node.endingAuctions d now interval s = .ok
      ((endingAmong now interval l.earlier).filter (fun x => x.2.lastBid.isNone)
        ++ (endingAmong now interval l.later.accounts).filter fun x => x.2.lastBid.isSome) s' := by
  obtain ⟨t, hwithout, ht⟩ := l.answers (endingWithoutBid now interval) s hs
  obtain ⟨s', hwith, -⟩ := l.later.ask (endingWithBid now interval) ht
  have hscan := scanEndingAuctions_of_ask (ask_of_answer hwithout) hwith
  refine ⟨s', Running.bind_eq_ok_iff.2 ⟨_, s', hscan, ?_⟩⟩
  exact Running.pure_eq_ok_iff.2 ⟨decodeAll_scans l.earlier l.later.accounts, rfl⟩

/-- One address among what a search with late bids lists: the entry of the first scan if there was
no bid, and behind it the entry of the second if there is one. -/
theorem filter_address_scans {earlier later : List (Address × Bytes)} {address : Address}
    {h h' : AuctionHeader} (hearlier : (earlier.map Prod.fst).Nodup)
    (hlater : (later.map Prod.fst).Nodup) (hmem : (address, h) ∈ endingAmong now interval earlier)
    (hmem' : (address, h') ∈ endingAmong now interval later) :
    ((endingAmong now interval earlier).filter (fun x => x.2.lastBid.isNone)
        ++ (endingAmong now interval later).filter (fun x => x.2.lastBid.isSome)).filter
          (fun x => x.1 == address)
      = [(address, h)].filter (fun x => x.2.lastBid.isNone)
        ++ [(address, h')].filter (fun x => x.2.lastBid.isSome) := by
  have hfirst := filter_key_of_mem (nodup_addresses_decodeAll hearlier) hmem
  have hsecond := filter_key_of_mem (nodup_addresses_decodeAll hlater) hmem'
  rw [← hfirst, ← hsecond, List.filter_append]
  simp only [List.filter_filter, Bool.and_comm]
  rfl

theorem count_address_eq {α : Type} {xs : List (Address × α)} {address : Address} :
    (xs.map Prod.fst).count address = (xs.filter fun x => x.1 == address).length := by
  rw [List.count_eq_countP, List.countP_map, List.countP_eq_length_filter]
  rfl

/-- **No auction is missed, and only a first bid between the scans lists one twice.** Of an auction
that ends in time both before and after the bids, the search lists the state before if there was no
bid, and then the state after if there is one. -/
theorem endingAuctions_of_lateBids (l : node.LateBids d.auctionProgram) (now interval : Int64)
    (hs : l.Before s) :
    ∃ found s', node.endingAuctions d now interval s = .ok found s' ∧
      ∀ address h h', (address, h) ∈ endingAmong now interval l.earlier →
        (address, h') ∈ endingAmong now interval l.later.accounts →
        found.filter (fun x => x.1 == address)
            = [(address, h)].filter (fun x => x.2.lastBid.isNone)
              ++ [(address, h')].filter (fun x => x.2.lastBid.isSome) ∧
          (found.map Prod.fst).count address
            = if h.lastBid = none ∧ h'.lastBid ≠ none then 2 else 1 := by
  obtain ⟨s', hrun⟩ := l.endingAuctions now interval hs
  refine ⟨_, s', hrun, ?_⟩
  intro address h h' hmem hmem'
  have hlisted := filter_address_scans l.once l.later.once hmem hmem'
  refine ⟨hlisted, ?_⟩
  rw [count_address_eq, hlisted]
  obtain ⟨data, hdata, hdecode, -⟩ := mem_endingAmong_iff.1 hmem
  obtain ⟨data', hdata', hdecode', -⟩ := mem_endingAmong_iff.1 hmem'
  obtain ⟨-, hkept⟩ := l.bids address data data' hdata hdata' h h' hdecode hdecode'
  cases hb : h.lastBid with
  | none => cases hb' : h'.lastBid <;> simp [hb, hb']
  | some t =>
    -- a bid that was there is still there, so the second scan finds the auction
    obtain ⟨t', hb'⟩ := Option.isSome_iff_exists.1 (hkept (by simp [hb]))
    simp [hb, hb']

end Node

/-! ## A ledger that does not wait -/

namespace Ledger

/-- A ledger that answers one request, and is then as another one. -/
def overtaken : Node (Ledger × Ledger) Outage where
  answer q := fun (l, l') =>
    match node.answer q l with
    | .ok a _ => .ok a (l', l')
    | .error outage _ => .error outage (l', l')

variable {program : Address}

theorem overtaken_scan {l l' : Ledger} (h : "get_program_accounts" ∉ l.unavailable)
    (windows : List Window) :
    overtaken.answer (.programAccounts program windows) (l, l')
      = .ok ((l.ownedBy program []).filter fun a => Window.allShow windows a.2) (l', l') := by
  have hanswer : node.answer (.programAccounts program windows) l
      = .ok (l.ownedBy program windows) l := by
    simp [node, Request.method, answer, h]
  rw [← ownedBy_eq_filter]
  simp only [overtaken, hanswer]

/-- The listings of two ledgers, if all that came between them are bids. -/
def lateBids (l l' : Ledger) (h : "get_program_accounts" ∉ l.unavailable)
    (h' : "get_program_accounts" ∉ l'.unavailable)
    (bids : ∀ address data data', (address, data) ∈ l.ownedBy program [] →
      (address, data') ∈ l'.ownedBy program [] → Node.OnlyBids data data') :
    overtaken.LateBids program where
  earlier := l.ownedBy program []
  once := l.nodup_ownedBy program
  later :=
    { accounts := l'.ownedBy program []
      Steady := fun s => s = (l', l')
      once := l'.nodup_ownedBy program
      answers := by
        rintro windows _ rfl
        exact ⟨_, overtaken_scan h' windows, rfl⟩ }
  Before s := s = (l, l')
  answers := by
    rintro windows _ rfl
    exact ⟨_, overtaken_scan h windows, rfl⟩
  bids := bids

end Ledger

namespace Node

/-! ## A first bid and another bid between the scans -/

/-- Two auctions that end 5 and 16 seconds after `0x6000ff10`. -/
def twoAuctions (bid20 bid10 : Option Int64) : Ledger :=
  ((Ledger.empty none [] 0).insert (auctionAccount 20 bid20 0x6000ff15)).insert
    (auctionAccount 10 bid10 0x6000ff20)

theorem ownedBy_twoAuctions (bid20 bid10 : Option Int64) :
    (twoAuctions bid20 bid10).ownedBy (.zero 32) []
      = [(.ofNat 32 10, (auctionAccount 10 bid10 0x6000ff20).data),
         (.ofNat 32 20, (auctionAccount 20 bid20 0x6000ff15).data)] := rfl

theorem onlyBids_auctionAccount {n : Nat} {bid bid' : Option Int64} {endAuctionAt : Int64}
    (hkept : bid.isSome → bid'.isSome) :
    OnlyBids (auctionAccount n bid endAuctionAt).data (auctionAccount n bid' endAuctionAt).data := by
  have hdecode : ∀ lastBid, AuctionHeader.layout.decode (auctionAccount n lastBid endAuctionAt).data
      = .ok ⟨.zero 32, .zero 32, .zero 32, lastBid, none, some endAuctionAt, none⟩ :=
    fun lastBid => AuctionHeader.exact_layout.decode_eq_ok_iff.2 ⟨trivial, [0, 0], rfl⟩
  intro h h' hd hd'
  obtain rfl := Except.ok.inj ((hdecode bid).symm.trans hd)
  obtain rfl := Except.ok.inj ((hdecode bid').symm.trans hd')
  exact ⟨rfl, hkept⟩

/-- The one auction gets its first bid, and the other another bid. -/
def twoBids : Ledger.overtaken.LateBids (.zero 32) :=
  Ledger.lateBids (twoAuctions none (some 0x6000fed4))
    (twoAuctions (some 0x6000ff11) (some 0x6000ff12)) (by decide) (by decide) <| by
    intro address data data' hmem hmem'
    rw [ownedBy_twoAuctions] at hmem hmem'
    simp only [List.mem_cons, Prod.mk.injEq, List.not_mem_nil, or_false] at hmem hmem'
    rcases hmem with ⟨rfl, rfl⟩ | ⟨rfl, rfl⟩ <;> rcases hmem' with ⟨heq, rfl⟩ | ⟨heq, rfl⟩
    · exact onlyBids_auctionAccount fun _ => rfl
    · exact absurd heq (by decide)
    · exact absurd heq (by decide)
    · exact onlyBids_auctionAccount fun _ => rfl

/-- The first bid lists its auction twice, the other bid does not. -/
theorem endingAuctions_twoBids :
    ∃ found s', Ledger.overtaken.endingAuctions (Deployment.mainnet.withAuctionProgram (.zero 32))
        0x6000ff10 0x10 (twoAuctions none (some 0x6000fed4),
          twoAuctions (some 0x6000ff11) (some 0x6000ff12)) = .ok found s'
      ∧ (found.map Prod.fst).count (.ofNat 32 20) = 2
      ∧ (found.map Prod.fst).count (.ofNat 32 10) = 1 := by
  obtain ⟨found, s', hrun, hfound⟩ := endingAuctions_of_lateBids
    (d := Deployment.mainnet.withAuctionProgram (.zero 32)) twoBids 0x6000ff10 0x10 rfl
  refine ⟨found, s', hrun, ?_, ?_⟩
  · exact (hfound (.ofNat 32 20)
      ⟨.zero 32, .zero 32, .zero 32, none, none, some 0x6000ff15, none⟩
      ⟨.zero 32, .zero 32, .zero 32, some 0x6000ff11, none, some 0x6000ff15, none⟩
      (by decide +kernel) (by decide +kernel)).2
  · exact (hfound (.ofNat 32 10)
      ⟨.zero 32, .zero 32, .zero 32, some 0x6000fed4, none, some 0x6000ff20, none⟩
      ⟨.zero 32, .zero 32, .zero 32, some 0x6000ff12, none, some 0x6000ff20, none⟩
      (by decide +kernel) (by decide +kernel)).2

/-- The search does not list every auction once when bids arrive between its scans. -/
theorem not_forall_endingAuctions_once :
    ¬ ∀ (l : Ledger.overtaken.LateBids (.zero 32)) s, l.Before s →
      ∃ found s', Ledger.overtaken.endingAuctions (Deployment.mainnet.withAuctionProgram (.zero 32))
          0x6000ff10 0x10 s = .ok found s' ∧
        ∀ address h h', (address, h) ∈ endingAmong 0x6000ff10 0x10 l.earlier →
          (address, h') ∈ endingAmong 0x6000ff10 0x10 l.later.accounts →
          (found.map Prod.fst).count address = 1 := by
  intro honce
  obtain ⟨found, s', hrun, hfound⟩ := honce twoBids _ rfl
  obtain ⟨t, hscans⟩ := twoBids.endingAuctions
    (d := Deployment.mainnet.withAuctionProgram (.zero 32)) 0x6000ff10 0x10 rfl
  have hlisted := (EStateM.Result.ok.inj (hrun.symm.trans hscans)).1
  have hcount := hfound (.ofNat 32 20)
    ⟨.zero 32, .zero 32, .zero 32, none, none, some 0x6000ff15, none⟩
    ⟨.zero 32, .zero 32, .zero 32, some 0x6000ff11, none, some 0x6000ff15, none⟩
    (by decide +kernel) (by decide +kernel)
  rw [hlisted] at hcount
  exact absurd hcount (by decide +kernel)

end Node

end DomainAuction
