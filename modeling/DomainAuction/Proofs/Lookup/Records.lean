import DomainAuction.Lookup.Accounts
import DomainAuction.Proofs.Node.Sessions

/-!
# Records — when a single record is found

A lookup asks for one account. It succeeds exactly if the node answers with data and the data
decode; an answer without data is a failure that says which account is missing.
-/

namespace DomainAuction.Node

variable {σ ε α : Type} {node : Node σ ε} {s s' : σ}
variable {address : Address} {commitment : Commitment} {missing : AuctionError}

theorem fetch_eq_ok_iff {data : Bytes} :
    node.fetch address commitment missing s = .ok data s'
      ↔ node.answer (.account address commitment) s = .ok (some data) s' := by
  unfold fetch
  rw [Running.bind_eq_ok_iff]
  constructor
  · rintro ⟨answer, t, hask, hfound⟩
    cases answer with
    | none => exact absurd hfound Running.throw_ne_ok
    | some found =>
      obtain ⟨rfl, rfl⟩ := Running.pure_eq_ok_iff.1 hfound
      exact ask_eq_ok_iff.1 hask
  · intro h
    exact ⟨some data, s', ask_eq_ok_iff.2 h, Running.pure_eq_ok_iff.2 ⟨rfl, rfl⟩⟩

theorem fetch_of_absent (h : node.answer (.account address commitment) s = .ok none s') :
    node.fetch address commitment missing s
      = .error ⟨[.accountMissing address], .auction missing⟩ s' :=
  Running.bind_of_ok (ask_of_answer h)

/-- The node answers that an account exists, and the data of the account decode to a record. -/
def Shows (node : Node σ ε) (layout : Layout α) (address : Address) (commitment : Commitment)
    (s : σ) (record : α) (s' : σ) : Prop :=
  ∃ data, node.answer (.account address commitment) s = .ok (some data) s'
    ∧ layout.decode data = .ok record

variable {layout : Layout α}

/-- **A record is found exactly if its account exists and decodes.** -/
theorem fetchRecord_eq_ok_iff {record : α} :
    node.fetchRecord layout address commitment missing s = .ok record s'
      ↔ node.Shows layout address commitment s record s' := by
  unfold fetchRecord Shows
  simp only [Running.bind_eq_ok_iff, fetch_eq_ok_iff, Session.ofExcept_eq_ok_iff]
  constructor
  · rintro ⟨data, t, hdata, hdecode, rfl⟩
    exact ⟨data, hdata, hdecode⟩
  · rintro ⟨data, hdata, hdecode⟩
    exact ⟨data, s', hdata, hdecode, rfl⟩

/-- A node shows one record, if any. -/
theorem Shows.unique {t : σ} {a b : α} (ha : node.Shows layout address commitment s a s')
    (hb : node.Shows layout address commitment s b t) : a = b := by
  obtain ⟨data, hanswer, hdecode⟩ := ha
  obtain ⟨data', hanswer', hdecode'⟩ := hb
  cases hanswer.symm.trans hanswer'
  exact Except.ok.inj (hdecode.symm.trans hdecode')

theorem fetchRecord_of_absent (h : node.answer (.account address commitment) s = .ok none s') :
    node.fetchRecord layout address commitment missing s
      = .error ⟨[.accountMissing address], .auction missing⟩ s' :=
  Running.bind_of_error (fetch_of_absent h)

end DomainAuction.Node
