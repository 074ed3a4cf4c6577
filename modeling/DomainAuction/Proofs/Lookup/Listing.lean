import DomainAuction.Ledger
import DomainAuction.Lookup.Searches
import DomainAuction.Proofs.Node.Sessions
import Mathlib.Data.List.Nodup

/-!
# Listing — what a node that keeps its word answers to a scan

A node is asked for the accounts of a program through windows. It has to answer with every account
that shows all of them, each once, and in an order that does not depend on the windows: whatever is
asked, the answer is what is left of one and the same list. A ledger in memory is such a node.
-/

namespace DomainAuction

/-! ## Decoding what was listed -/

/-- What was decoded and then passes a test. -/
theorem filter_toOption_eq_some_iff {ε α : Type} {r : Except ε α} {p : α → Bool} {a : α} :
    r.toOption.filter p = some a ↔ r = .ok a ∧ p a = true := by
  cases r with
  | error e => simp [Except.toOption]
  | ok b => simp only [Except.toOption, Option.filter_eq_some_iff, Option.some.injEq, Except.ok.injEq]

namespace Node

section Decoding

variable {α : Type} {decode : Bytes → Option α} {accounts : List (Address × Bytes)}

theorem mem_decodeAll_iff {address : Address} {a : α} :
    (address, a) ∈ decodeAll decode accounts
      ↔ ∃ data, (address, data) ∈ accounts ∧ decode data = some a := by
  simp [decodeAll]

/-- Decoding drops accounts and moves none. -/
theorem addresses_decodeAll :
    (decodeAll decode accounts).map Prod.fst
      = (accounts.filter fun x => (decode x.2).isSome).map Prod.fst := by
  induction accounts with
  | nil => rfl
  | cons x rest ih =>
    obtain ⟨address, data⟩ := x
    unfold decodeAll at ih ⊢
    cases hd : decode data with
    | none => simpa [hd] using ih
    | some a => simpa [hd] using ih

theorem addresses_decodeAll_sublist :
    ((decodeAll decode accounts).map Prod.fst).Sublist (accounts.map Prod.fst) := by
  rw [addresses_decodeAll]
  exact List.filter_sublist.map _

theorem nodup_addresses_decodeAll (h : (accounts.map Prod.fst).Nodup) :
    ((decodeAll decode accounts).map Prod.fst).Nodup :=
  h.sublist addresses_decodeAll_sublist

/-- **A test on the data that agrees with a test on what they decode to can be made before
decoding.** What it says about data that do not decode does not matter. -/
theorem decodeAll_filter {p : Bytes → Bool} {q : α → Bool}
    (hpq : ∀ data a, decode data = some a → p data = q a) :
    decodeAll decode (accounts.filter fun x => p x.2)
      = (decodeAll decode accounts).filter fun x => q x.2 := by
  unfold decodeAll
  rw [List.filterMap_filter, List.filter_filterMap]
  congr 1
  funext x
  obtain ⟨address, data⟩ := x
  cases hd : decode data with
  | none => simp [hd]
  | some a =>
    have hp := hpq data a hd
    cases hq : q a with
    | false => simp [hd, hp, hq, Option.filter]
    | true => simp [hd, hp, hq, Option.filter]

/-- Data that are dropped by a test, and would not decode, can be kept. -/
theorem decodeAll_filter_of_isSome {p : Bytes → Bool}
    (hp : ∀ data a, decode data = some a → p data = true) :
    decodeAll decode (accounts.filter fun x => p x.2) = decodeAll decode accounts := by
  rw [decodeAll_filter (q := fun _ => true) hp, List.filter_true]

end Decoding

/-! ## Nodes that list -/

variable {σ ε : Type}

/-- The accounts of a program, as a node lists them while it is steady. -/
structure Listing (node : Node σ ε) (program : Address) where
  /-- In the order in which the node lists them. -/
  accounts : List (Address × Bytes)
  /-- The states in which the node has these accounts. -/
  Steady : σ → Prop
  once : (accounts.map Prod.fst).Nodup
  /-- Every scan is answered with the accounts that show its windows, and the node stays steady. -/
  answers : ∀ windows s, Steady s → ∃ s',
    node.answer (.programAccounts program windows) s
      = .ok (accounts.filter fun a => Window.allShow windows a.2) s' ∧ Steady s'

theorem Listing.ask {node : Node σ ε} {program : Address} (l : node.Listing program)
    (windows : List Window) {s : σ} (hs : l.Steady s) :
    ∃ s', node.ask (.programAccounts program windows) s
      = .ok (l.accounts.filter fun a => Window.allShow windows a.2) s' ∧ l.Steady s' := by
  obtain ⟨s', hanswer, hs'⟩ := l.answers windows s hs
  exact ⟨s', ask_of_answer hanswer, hs'⟩

end Node

/-! ## The ledger in memory -/

namespace Ledger

theorem ownedBy_eq_filter (l : Ledger) (program : Address) (windows : List Window) :
    l.ownedBy program windows
      = (l.ownedBy program []).filter fun a => Window.allShow windows a.2 := by
  unfold ownedBy
  rw [List.filter_map, List.filter_filter]
  congr 2
  funext a
  simp [Window.allShow, Bool.and_comm]

theorem nodup_ownedBy (l : Ledger) (program : Address) :
    ((l.ownedBy program []).map Prod.fst).Nodup := by
  unfold ownedBy
  rw [List.map_map]
  have hdiff : l.accounts.Pairwise fun a b => a.address ≠ b.address :=
    l.ordered.imp fun hlt heq => by
      rw [heq] at hlt
      exact Nat.lt_irrefl _ hlt
  exact List.pairwise_map.2 (hdiff.filter _)

/-- A ledger that answers scans lists the accounts of every program by address. -/
def listing (l : Ledger) (program : Address) (h : "get_program_accounts" ∉ l.unavailable) :
    node.Listing program where
  accounts := l.ownedBy program []
  Steady s := s = l
  once := l.nodup_ownedBy program
  answers windows s hs := by
    subst hs
    refine ⟨s, ?_, rfl⟩
    rw [← ownedBy_eq_filter]
    simp [node, Request.method, answer, h]

end Ledger

end DomainAuction
