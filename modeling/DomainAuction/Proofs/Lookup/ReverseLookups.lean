import DomainAuction.Proofs.Lookup.Snapshot
import DomainAuction.Proofs.Record.AccountData

/-!
# ReverseLookups — many names at once, or one after the other

The names of many name accounts are looked up in batches, and a name that cannot be told is left
open. Looked up alone, a name that cannot be told is a failure, with its reason. On one and the same
snapshot the two agree at every position, however long the list is and wherever its batches end.
-/

namespace DomainAuction

namespace Node

variable {σ ε : Type} {node : Node σ ε} {s : σ}

namespace Snapshot

variable (v : node.Snapshot) (d : Deployment) (a : Address)

/-- The two reasons why the name of a name account cannot be told, as the failures of its lookup:
the record is missing, or its data do not decode. -/
inductive LookupFails : Failure ε → Prop
  | missing : v.data? (d.reverseLookup a) = none →
    LookupFails ⟨[.reverseLookup a, .accountMissing (d.reverseLookup a)], .auction .accountNotFound⟩
  | undecodable (data : Bytes) (e : AuctionError) : v.data? (d.reverseLookup a) = some data →
    ReverseLookup.layout.decode data = .error e → LookupFails ⟨[], .auction e⟩

/-- **A single lookup tells the name, or why it cannot.** -/
theorem reverseLookup_cases (hs : v.Steady s) :
    (∃ name s', node.reverseLookup d a s = .ok name s'
        ∧ nameOf (v.data? (d.reverseLookup a)) = some name) ∨
      (∃ failure s', node.reverseLookup d a s = .error failure s'
        ∧ v.LookupFails d a failure ∧ nameOf (v.data? (d.reverseLookup a)) = none) := by
  cases hdata : v.data? (d.reverseLookup a) with
  | none =>
    obtain ⟨s', hfetch, -⟩ := v.fetch_of_none .accountNotFound hdata hs
    exact .inr ⟨_, s', Running.bind_of_error (Session.within_of_error hfetch),
      .missing hdata, rfl⟩
  | some data =>
    obtain ⟨s', hfetch, -⟩ := v.fetch_of_some .accountNotFound hdata hs
    have hrun : node.reverseLookup d a s = (do
        let record ← Session.ofExcept (ReverseLookup.layout.decode data)
        return record.name : Session σ ε String) s' :=
      Running.bind_of_ok (Session.within_of_ok hfetch)
    rw [hrun]
    -- what is left is the decoding of the data, which asks nothing
    cases hdec : ReverseLookup.layout.decode data with
    | ok record =>
      exact .inl ⟨record.name, s', rfl, by simp [nameOf, hdec, Except.toOption]⟩
    | error e =>
      exact .inr ⟨⟨[], .auction e⟩, s', rfl, .undecodable data e hdata hdec,
        by simp [nameOf, hdec, Except.toOption]⟩

/-- The lookup of many names tells of each what its record holds. -/
theorem reverseLookups (nameAccounts : List Address) (hs : v.Steady s) :
    ∃ s', node.reverseLookups d nameAccounts s
        = .ok (nameAccounts.map fun a => nameOf (v.data? (d.reverseLookup a))) s'
      ∧ v.Steady s' := by
  obtain ⟨s', hrun, hs'⟩ := v.accountsData (nameAccounts.map d.reverseLookup) hs
  refine ⟨s', (Running.bind_of_ok hrun).trans ?_, hs'⟩
  rw [List.map_map]
  show EStateM.Result.ok _ s' = _
  rw [List.map_map]
  rfl

end Snapshot

/-- **Looking up many names agrees with looking up each.** The batched lookup succeeds with one
entry for each name account; the entry is the name if the single lookup tells it, and is left open
if the single lookup fails because the record is missing or does not decode. -/
theorem reverseLookups_agree (v : node.Snapshot) (d : Deployment) (nameAccounts : List Address)
    (hs : v.Steady s) :
    ∃ names s', node.reverseLookups d nameAccounts s = .ok names s' ∧ v.Steady s'
      ∧ names.length = nameAccounts.length
      ∧ ∀ (k : Nat) (a : Address), nameAccounts[k]? = some a → ∀ t, v.Steady t →
        (∀ name, names[k]? = some (some name)
          ↔ ∃ t', node.reverseLookup d a t = .ok name t') ∧
        (names[k]? = some none
          ↔ ∃ failure t', node.reverseLookup d a t = .error failure t'
            ∧ v.LookupFails d a failure) := by
  obtain ⟨s', hrun, hs'⟩ := v.reverseLookups d nameAccounts hs
  refine ⟨_, s', hrun, hs', List.length_map _, ?_⟩
  intro k a hk t ht
  rw [List.getElem?_map, hk, Option.map_some]
  rcases v.reverseLookup_cases d a ht with
    ⟨name, t', hok, hname⟩ | ⟨failure, t', herror, hfails, hname⟩
  · simp [hname, hok]
  · simp [hname, herror, hfails]

/-- A ledger with the reverse lookup of one name account, in an account with room to spare. -/
def oneLookup (d : Deployment) (nameAccount : Address) : Ledger :=
  (Ledger.empty none [] 0).insert
    { address := d.reverseLookup nameAccount
      owner := d.namingServiceProgram
      data := ReverseLookup.layout.write ⟨⟨.zero 32, .zero 32, d.centralState⟩, "sol"⟩ ++ [0, 0] }

def oneLookupSnapshot (d : Deployment) (nameAccount : Address) : Ledger.node.Snapshot :=
  (oneLookup d nameAccount).snapshot List.not_mem_nil List.not_mem_nil rfl

theorem reverseLookup_oneLookup (d : Deployment) (nameAccount : Address) :
    ∃ t', Ledger.node.reverseLookup d nameAccount (oneLookup d nameAccount) = .ok "sol" t' := by
  have hfits : FitsPrefix "sol" := show (utf8 "sol").length < 2 ^ 32 by decide
  have hdec := (ReverseLookup.exact_layout.decode_eq_ok_iff
    (a := ⟨⟨.zero 32, .zero 32, d.centralState⟩, "sol"⟩)).2 ⟨hfits, [0, 0], rfl⟩
  have hname : nameOf ((oneLookupSnapshot d nameAccount).data? (d.reverseLookup nameAccount))
      = some "sol" := by
    simp [oneLookupSnapshot, Ledger.snapshot, oneLookup, Ledger.insert, Ledger.empty,
      Account.insert, Ledger.data?, nameOf, hdec, Except.toOption]
  rcases (oneLookupSnapshot d nameAccount).reverseLookup_cases d nameAccount rfl with
    ⟨name, t', hok, hsome⟩ | ⟨failure, t', -, -, hnone⟩
  · rw [hname] at hsome
    cases hsome
    exact ⟨t', hok⟩
  · rw [hname] at hnone
    cases hnone

/-- A hundred and one times the same name account: the last one is in a batch of its own. -/
theorem reverseLookups_oneLookup :
    ∃ names s', Ledger.node.reverseLookups .mainnet (List.replicate 101 (.zero 32))
        (oneLookup .mainnet (.zero 32)) = .ok names s'
      ∧ names.length = 101 ∧ names[100]? = some (some "sol") := by
  obtain ⟨names, s', hrun, -, hlen, hagree⟩ :=
    reverseLookups_agree (oneLookupSnapshot .mainnet (.zero 32)) .mainnet
      (List.replicate 101 (.zero 32)) rfl
  refine ⟨names, s', hrun, by rw [hlen, List.length_replicate], ?_⟩
  have hlast : (List.replicate 101 (.zero 32 : Address))[100]? = some (.zero 32) := by
    rw [List.getElem?_replicate_of_lt (by decide)]
  exact ((hagree 100 (.zero 32) hlast _ rfl).1 "sol").2 (reverseLookup_oneLookup _ _)

end Node

end DomainAuction
