import DomainAuction.Proofs.Lookup.Listing
import DomainAuction.Proofs.Scan.HeaderWindows

/-!
# EndingAuctions — the search for ending auctions loses nothing and repeats nothing

The search makes two scans through windows, one for the auctions without a bid and one for those
with a bid. The plain way is a scan without windows that decodes every account of the program and
keeps the auctions that end in time. On a node that lists its accounts the two find the same
auctions, and the search sorts them by whether they have a bid.
-/

namespace DomainAuction.Node

variable {now interval : Int64} {data : Bytes} {h : AuctionHeader}

/-! ## One account -/

theorem endingHeaderOf_eq_some_iff :
    endingHeaderOf now interval data = some h
      ↔ AuctionHeader.layout.decode data = .ok h ∧ h.endsWithin now interval = true :=
  filter_toOption_eq_some_iff

/-- Data with an auction that ends in time are a header, with anything behind it, and the end is in
the bucket. -/
theorem exists_of_endingHeaderOf (hd : endingHeaderOf now interval data = some h) :
    (∃ rest, data = AuctionHeader.layout.write h ++ rest) ∧ h.endedAt = none
      ∧ ∃ t, h.endAuctionAt = some t ∧ InBucket now (spanEnd now interval) t := by
  obtain ⟨hdec, hends⟩ := endingHeaderOf_eq_some_iff.1 hd
  obtain ⟨-, rest, hrest⟩ := AuctionHeader.exact_layout.decode_eq_ok_iff.1 hdec
  exact ⟨⟨rest, hrest⟩, inBucket_of_endsWithin hends⟩

/-- Of the auctions that end in time, the first set of windows finds those without a bid. -/
theorem allShow_withoutBid (hd : endingHeaderOf now interval data = some h) :
    Window.allShow (endingWithoutBid now interval) data = h.lastBid.isNone := by
  obtain ⟨⟨rest, rfl⟩, hended, hbucket⟩ := exists_of_endingHeaderOf hd
  rw [Bool.eq_iff_iff, allShow_endingWithoutBid_iff, Option.isNone_iff_eq_none]
  exact ⟨fun hfound => hfound.1, fun hnone => ⟨hnone, hended, hbucket⟩⟩

/-- Of the auctions that end in time, the second set of windows finds those with a bid. -/
theorem allShow_withBid (hd : endingHeaderOf now interval data = some h) :
    Window.allShow (endingWithBid now interval) data = h.lastBid.isSome := by
  obtain ⟨⟨rest, rfl⟩, hended, hbucket⟩ := exists_of_endingHeaderOf hd
  rw [Bool.eq_iff_iff, allShow_endingWithBid_iff]
  exact ⟨fun hfound => hfound.1, fun hsome => ⟨hsome, hended, hbucket⟩⟩

/-! ## The search and the scan without windows -/

/-- The auctions that end in time among some accounts, found by decoding every one of them. -/
def endingAmong (now interval : Int64) (accounts : List (Address × Bytes)) :
    List (Address × AuctionHeader) :=
  decodeAll (endingHeaderOf now interval) accounts

theorem mem_endingAmong_iff {accounts : List (Address × Bytes)} {address : Address} :
    (address, h) ∈ endingAmong now interval accounts
      ↔ ∃ data, (address, data) ∈ accounts ∧ AuctionHeader.layout.decode data = .ok h
        ∧ h.endsWithin now interval = true := by
  unfold endingAmong
  simp only [mem_decodeAll_iff, endingHeaderOf_eq_some_iff]

/-- The auctions without a bid, followed by those with a bid. -/
def bidlessFirst (auctions : List (Address × AuctionHeader)) : List (Address × AuctionHeader) :=
  auctions.filter (fun x => x.2.lastBid.isNone) ++ auctions.filter (fun x => x.2.lastBid.isSome)

theorem bidlessFirst_perm (auctions : List (Address × AuctionHeader)) :
    (bidlessFirst auctions).Perm auctions := by
  have hperm := List.filter_append_perm (fun x => x.2.lastBid.isNone) auctions
  simpa only [bidlessFirst, Option.not_isNone] using hperm

variable {σ ε : Type} {node : Node σ ε} {d : Deployment} {s : σ}

/-- What the two scans answer, one behind the other. -/
theorem scanEndingAuctions_of_ask {t s' : σ} {first second : List (Address × Bytes)}
    (hwithout : node.ask (.programAccounts d.auctionProgram (endingWithoutBid now interval)) s
      = .ok first t)
    (hwith : node.ask (.programAccounts d.auctionProgram (endingWithBid now interval)) t
      = .ok second s') :
    node.scanEndingAuctions d now interval s = .ok (first ++ second) s' :=
  Running.bind_eq_ok_iff.2 ⟨_, t, hwithout, Running.bind_eq_ok_iff.2 ⟨_, s', hwith, rfl⟩⟩

/-- Both scans are made of the same list. -/
theorem scanEndingAuctions_of_listing (l : node.Listing d.auctionProgram) (now interval : Int64)
    (hs : l.Steady s) :
    ∃ s', node.scanEndingAuctions d now interval s
        = .ok ((l.accounts.filter fun a => Window.allShow (endingWithoutBid now interval) a.2)
          ++ l.accounts.filter fun a => Window.allShow (endingWithBid now interval) a.2) s'
      ∧ l.Steady s' := by
  -- the first scan may change the node, and leaves it steady for the second
  obtain ⟨t, hwithout, ht⟩ := l.ask (endingWithoutBid now interval) hs
  obtain ⟨s', hwith, hs'⟩ := l.ask (endingWithBid now interval) ht
  exact ⟨s', scanEndingAuctions_of_ask hwithout hwith, hs'⟩

/-- Decoding keeps the auctions without a bid from what the first scan was made of, and those with a
bid from what the second was made of. -/
theorem decodeAll_scans (first second : List (Address × Bytes)) :
    decodeAll (endingHeaderOf now interval)
        ((first.filter fun a => Window.allShow (endingWithoutBid now interval) a.2)
          ++ second.filter fun a => Window.allShow (endingWithBid now interval) a.2)
      = (endingAmong now interval first).filter (fun x => x.2.lastBid.isNone)
        ++ (endingAmong now interval second).filter (fun x => x.2.lastBid.isSome) := by
  unfold endingAmong
  rw [decodeAll, List.filterMap_append, ← decodeAll, ← decodeAll]
  rw [decodeAll_filter (q := fun h => h.lastBid.isNone) fun _ _ hd => allShow_withoutBid hd,
    decodeAll_filter (q := fun h => h.lastBid.isSome) fun _ _ hd => allShow_withBid hd]

/-- Decoding what the two scans found sorts the auctions that end in time. -/
theorem decodeAll_scanned (accounts : List (Address × Bytes)) :
    decodeAll (endingHeaderOf now interval)
        ((accounts.filter fun a => Window.allShow (endingWithoutBid now interval) a.2)
          ++ accounts.filter fun a => Window.allShow (endingWithBid now interval) a.2)
      = bidlessFirst (endingAmong now interval accounts) :=
  decodeAll_scans accounts accounts

/-- **The search is the scan without windows, sorted by bid.** On a node that lists its accounts it
succeeds for every span, finds every auction that ends in time once, and finds nothing else. -/
theorem endingAuctions_eq_bidlessFirst (l : node.Listing d.auctionProgram) (now interval : Int64)
    (hs : l.Steady s) :
    ∃ found s', node.endingAuctions d now interval s = .ok found s' ∧ l.Steady s'
      ∧ found = bidlessFirst (endingAmong now interval l.accounts)
      ∧ (found.map Prod.fst).Nodup
      ∧ ∀ address h, (address, h) ∈ found
        ↔ ∃ data, (address, data) ∈ l.accounts ∧ AuctionHeader.layout.decode data = .ok h
          ∧ h.endsWithin now interval = true := by
  obtain ⟨s', hscan, hs'⟩ := scanEndingAuctions_of_listing l now interval hs
  have hperm := bidlessFirst_perm (endingAmong now interval l.accounts)
  refine ⟨_, s', ?_, hs', rfl, ?_, ?_⟩
  · refine Running.bind_eq_ok_iff.2 ⟨_, s', hscan, ?_⟩
    exact Running.pure_eq_ok_iff.2 ⟨decodeAll_scanned l.accounts, rfl⟩
  · rw [(hperm.map Prod.fst).nodup_iff]
    exact nodup_addresses_decodeAll l.once
  · intro address h
    rw [hperm.mem_iff]
    exact mem_endingAmong_iff

/-- The account of an auction with a planned end, in an auction program at address zero. -/
def auctionAccount (address : Nat) (lastBid : Option Int64) (endAuctionAt : Int64) : Account where
  address := .ofNat 32 address
  owner := .zero 32
  data := AuctionHeader.layout.write
    ⟨.zero 32, .zero 32, .zero 32, lastBid, none, some endAuctionAt, none⟩ ++ [0, 0]

/-- Two auctions that end 5 and 16 seconds after `0x6000ff10`, the first of them without a bid, and
one that ended before, in the same bucket. -/
def threeAuctions : Ledger :=
  (((Ledger.empty none [] 0).insert (auctionAccount 20 none 0x6000ff15)).insert
    (auctionAccount 10 (some 0x6000fed4) 0x6000ff20)).insert (auctionAccount 21 none 0x6000ff01)

theorem endingAuctions_threeAuctions :
    ∃ found s', Ledger.node.endingAuctions (Deployment.mainnet.withAuctionProgram (.zero 32))
        0x6000ff10 0x10 threeAuctions = .ok found s'
      ∧ found.map Prod.fst = [.ofNat 32 20, .ofNat 32 10] := by
  obtain ⟨found, s', hrun, -, hfound, -, -⟩ := endingAuctions_eq_bidlessFirst
    (threeAuctions.listing _ (by decide)) 0x6000ff10 0x10 rfl
  refine ⟨found, s', hrun, ?_⟩
  rw [hfound]
  decide +kernel

end DomainAuction.Node
