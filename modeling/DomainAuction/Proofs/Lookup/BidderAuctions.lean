import DomainAuction.Proofs.Lookup.Listing
import DomainAuction.Proofs.Scan.AddressWindows

/-!
# BidderAuctions — the pots of a bidder, whatever a node answers

The search for the pots of a bidder looks at what it decodes and does not trust the window. So
nothing in its result depends on the node but which pots there are to find: from any answer it keeps
the accounts that decode to a pot of the bidder. On a node that lists its accounts these are all the
pots of the bidder, since the window shows every one of them.
-/

namespace DomainAuction.Node

variable {bidder : Address} {data : Bytes} {pot : BidderPot}

/-! ## One account -/

theorem potOf_eq_some_iff :
    potOf bidder data = some pot
      ↔ BidderPot.layout.decode data = .ok pot ∧ pot.bidderWallet = bidder := by
  unfold potOf
  rw [filter_toOption_eq_some_iff, beq_iff_eq]

/-- No pot of the bidder is hidden by the window. -/
theorem allShow_of_potOf (h : potOf bidder data = some pot) :
    Window.allShow (Window.ofBidder bidder) data = true := by
  obtain ⟨hdecode, hwallet⟩ := potOf_eq_some_iff.1 h
  obtain ⟨bytes, ⟨flag, -, rfl⟩, rest, rfl⟩ := (BidderPot.frontDecoded.front data pot).1 hdecode
  rw [List.append_assoc]
  exact Window.allShow_ofBidder_iff.2 hwallet

/-! ## The search and the scan without windows -/

/-- The pots of a bidder among some accounts, found by decoding every one of them. -/
def potsAmong (bidder : Address) (accounts : List (Address × Bytes)) : List (Address × BidderPot) :=
  decodeAll (potOf bidder) accounts

section

variable {accounts : List (Address × Bytes)} {address : Address}

theorem mem_potsAmong_iff :
    (address, pot) ∈ potsAmong bidder accounts
      ↔ ∃ data, (address, data) ∈ accounts ∧ BidderPot.layout.decode data = .ok pot
        ∧ pot.bidderWallet = bidder := by
  unfold potsAmong
  simp only [mem_decodeAll_iff, potOf_eq_some_iff]

/-- Looking through the window first makes no difference. -/
theorem potsAmong_shown :
    potsAmong bidder (accounts.filter fun a => Window.allShow (Window.ofBidder bidder) a.2)
      = potsAmong bidder accounts :=
  decodeAll_filter_of_isSome fun _ _ h => allShow_of_potOf h

end

variable {σ ε : Type} {node : Node σ ε} {d : Deployment}

/-- The search decodes what the node answers. -/
theorem bidderAuctions_of_ask {answer : List (Address × Bytes)} {s s' : σ}
    (h : node.ask (.programAccounts d.auctionProgram (Window.ofBidder bidder)) s = .ok answer s') :
    node.bidderAuctions d bidder s = .ok (potsAmong bidder answer) s' :=
  Running.bind_eq_ok_iff.2 ⟨answer, s', h, rfl⟩

/-- **The search is to decode and compare.** Whatever accounts the node answers, the search keeps, in
their order, those that decode to a pot of the bidder, with the pot. On a node that lists its
accounts it finds, each once, all that the scan without a window would find. -/
theorem bidderAuctions_eq_potsAmong (node : Node σ ε) (d : Deployment) (bidder : Address) :
    (∀ (answer : List (Address × Bytes)) s s',
      node.answer (.programAccounts d.auctionProgram (Window.ofBidder bidder)) s = .ok answer s' →
        ∃ pots, node.bidderAuctions d bidder s = .ok pots s' ∧ pots = potsAmong bidder answer
          ∧ (pots.map Prod.fst).Sublist (answer.map Prod.fst)
          ∧ ∀ address pot, (address, pot) ∈ pots
            ↔ ∃ data, (address, data) ∈ answer ∧ BidderPot.layout.decode data = .ok pot
              ∧ pot.bidderWallet = bidder) ∧
    ∀ (l : node.Listing d.auctionProgram) s, l.Steady s →
      ∃ pots s', node.bidderAuctions d bidder s = .ok pots s' ∧ l.Steady s'
        ∧ pots = potsAmong bidder l.accounts
        ∧ (pots.map Prod.fst).Sublist (l.accounts.map Prod.fst) ∧ (pots.map Prod.fst).Nodup
        ∧ ∀ address pot, (address, pot) ∈ pots
          ↔ ∃ data, (address, data) ∈ l.accounts ∧ BidderPot.layout.decode data = .ok pot
            ∧ pot.bidderWallet = bidder := by
  constructor
  · intro answer s s' hanswer
    exact ⟨_, bidderAuctions_of_ask (ask_of_answer hanswer), rfl, addresses_decodeAll_sublist,
      fun _ _ => mem_potsAmong_iff⟩
  · intro l s hs
    obtain ⟨s', hscan, hs'⟩ := l.ask (Window.ofBidder bidder) hs
    have hrun := bidderAuctions_of_ask hscan
    rw [potsAmong_shown] at hrun
    exact ⟨_, s', hrun, hs', rfl, addresses_decodeAll_sublist, nodup_addresses_decodeAll l.once,
      fun _ _ => mem_potsAmong_iff⟩

/-- An account with a pot and a byte behind it, in an auction program at address zero. -/
def potAccount (address wallet : Nat) : Account where
  address := .ofNat 32 address
  owner := .zero 32
  data := BidderPot.layout.write ⟨.zero 32, .ofNat 32 wallet, .zero 32, true⟩ ++ [9]

/-- Two pots of the bidder 7 around a pot of the bidder 8, and an account that breaks off behind the
wallet of the bidder 7. -/
def threePots : Ledger :=
  ((((Ledger.empty none [] 0).insert (potAccount 30 7)).insert (potAccount 31 8)).insert
    (potAccount 32 7)).insert
      { potAccount 33 7 with data := (potAccount 33 7).data.take 64 }

/-- A node that answers every scan with the same accounts, whatever it is asked for. -/
def careless (accounts : List (Address × Bytes)) : Node Unit Unit where
  answer
    | .programAccounts .. => pure accounts
    | _ => throw ()

/-- The search finds the two pots of the bidder 7, also on a node that answers with all accounts. -/
theorem bidderAuctions_threePots :
    (∃ pots s', Ledger.node.bidderAuctions (Deployment.mainnet.withAuctionProgram (.zero 32))
        (.ofNat 32 7) threePots = .ok pots s'
      ∧ pots.map Prod.fst = [.ofNat 32 30, .ofNat 32 32]) ∧
    ∃ pots s', (careless (threePots.ownedBy (.zero 32) [])).bidderAuctions .mainnet
        (.ofNat 32 7) () = .ok pots s'
      ∧ pots.map Prod.fst = [.ofNat 32 30, .ofNat 32 32] := by
  have hpots : (potsAmong (.ofNat 32 7) (threePots.ownedBy (.zero 32) [])).map Prod.fst
      = [.ofNat 32 30, .ofNat 32 32] := by decide +kernel
  constructor
  · obtain ⟨-, hlisted⟩ := bidderAuctions_eq_potsAmong Ledger.node
      (Deployment.mainnet.withAuctionProgram (.zero 32)) (.ofNat 32 7)
    obtain ⟨pots, s', hrun, -, rfl, -, -, -⟩ :=
      hlisted (threePots.listing _ (by decide)) threePots rfl
    exact ⟨_, s', hrun, hpots⟩
  · obtain ⟨hanswered, -⟩ := bidderAuctions_eq_potsAmong
      (careless (threePots.ownedBy (.zero 32) [])) .mainnet (.ofNat 32 7)
    obtain ⟨pots, hrun, rfl, -, -⟩ := hanswered (threePots.ownedBy (.zero 32) []) () () rfl
    exact ⟨_, (), hrun, hpots⟩

end DomainAuction.Node
