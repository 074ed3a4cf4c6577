import DomainAuction.Lookup.Accounts
import DomainAuction.Lookup.Batches
import DomainAuction.Proofs.Node.Sessions

/-!
# Snapshot — one state of the accounts, however it is asked for

The data of an account can be asked for alone, or together with the data of up to a hundred others.
A node that keeps its word answers both from the same accounts. Asked for one at a time, an account
is found or missing; asked for in batches, accounts come back in the order of the addresses. A
ledger in memory is such a node.
-/

namespace DomainAuction

/-! ## Batches -/

section Batches

variable {α : Type} {xs batch : List α}

/-- Batches leave nothing out and keep the order. -/
theorem flatten_batches (xs : List α) : (batches xs).flatten = xs := by
  induction xs using batches.induct with
  | case1 xs h =>
    rw [batches, if_pos h, List.flatten_nil, List.isEmpty_iff.1 h]
  | case2 xs h ih =>
    rw [batches, if_neg h, List.flatten_cons, ih, List.take_append_drop]

theorem length_le_of_mem_batches (h : batch ∈ batches xs) : batch.length ≤ batchSize := by
  induction xs using batches.induct with
  | case1 xs hempty =>
    rw [batches, if_pos hempty] at h
    cases h
  | case2 xs hempty ih =>
    rw [batches, if_neg hempty] at h
    rcases List.mem_cons.1 h with rfl | h
    · exact List.length_take_le ..
    · exact ih h

end Batches

/-! ## Nodes with a snapshot -/

namespace Node

variable {σ ε : Type}

/-- The accounts that a node shows while it is steady. -/
structure Snapshot (node : Node σ ε) where
  /-- The data of the account at an address. -/
  data? : Address → Option Bytes
  /-- The states in which the node has these accounts. -/
  Steady : σ → Prop
  single : ∀ address s, Steady s → ∃ s',
    node.answer (.account address .confirmed) s = .ok (data? address) s' ∧ Steady s'
  several : ∀ addresses s, addresses.length ≤ batchSize → Steady s → ∃ s',
    node.answer (.accounts addresses) s = .ok (addresses.map data?) s' ∧ Steady s'

namespace Snapshot

variable {node : Node σ ε} (v : node.Snapshot) {s : σ}

theorem fetch_of_some {address : Address} {data : Bytes} (missing : AuctionError)
    (h : v.data? address = some data) (hs : v.Steady s) :
    ∃ s', node.fetch address .confirmed missing s = .ok data s' ∧ v.Steady s' := by
  obtain ⟨s', hanswer, hs'⟩ := v.single address s hs
  rw [h] at hanswer
  exact ⟨s', Running.bind_of_ok (ask_of_answer hanswer), hs'⟩

theorem fetch_of_none {address : Address} (missing : AuctionError) (h : v.data? address = none)
    (hs : v.Steady s) :
    ∃ s', node.fetch address .confirmed missing s
      = .error ⟨[.accountMissing address], .auction missing⟩ s' ∧ v.Steady s' := by
  obtain ⟨s', hanswer, hs'⟩ := v.single address s hs
  rw [h] at hanswer
  exact ⟨s', Running.bind_of_ok (ask_of_answer hanswer), hs'⟩

theorem batch {addresses : List Address} (hlen : addresses.length ≤ batchSize) (hs : v.Steady s) :
    ∃ s', node.batch addresses s = .ok (addresses.map v.data?) s' ∧ v.Steady s' := by
  obtain ⟨s', hanswer, hs'⟩ := v.several addresses s hlen hs
  refine ⟨s', ?_, hs'⟩
  refine (Running.bind_of_ok (ask_of_answer hanswer)).trans ?_
  -- the answer is about as many accounts as were asked for
  rw [if_pos (List.length_map _)]
  rfl

/-- **Batches line up**: the data of any number of accounts come back one for each address, in
order. -/
theorem accountsData (addresses : List Address) (hs : v.Steady s) :
    ∃ s', node.accountsData addresses s = .ok (addresses.map v.data?) s' ∧ v.Steady s' := by
  have hstep : ∀ b ∈ batches addresses, ∀ t, v.Steady t →
      ∃ t', node.batch b t = .ok (b.map v.data?) t' ∧ v.Steady t' :=
    fun b hb t ht => v.batch (length_le_of_mem_batches hb) ht
  obtain ⟨s', hrun, hs'⟩ := Running.mapM_of_steady hstep hs
  refine ⟨s', (Running.bind_of_ok hrun).trans ?_, hs'⟩
  rw [← List.map_flatten, flatten_batches]
  rfl

end Snapshot

end Node

/-! ## The ledger in memory -/

namespace Ledger

/-- A ledger that answers about accounts in full shows the accounts that it has. -/
def snapshot (l : Ledger) (hsingle : "get_account_data" ∉ l.unavailable)
    (hseveral : "get_multiple_accounts_data" ∉ l.unavailable) (hfull : l.withheld = 0) :
    node.Snapshot where
  data? := l.data?
  Steady s := s = l
  single address s hs := by
    subst hs
    exact ⟨s, node_answer_of_ok hsingle rfl, rfl⟩
  several addresses s hlen hs := by
    subst hs
    have htake : (addresses.map s.data?).take addresses.length = addresses.map s.data? :=
      List.take_of_length_le (Nat.le_of_eq (List.length_map _))
    exact ⟨s, node_answer_of_ok hseveral (by simp [answer, hfull, htake]), rfl⟩

end Ledger

end DomainAuction
