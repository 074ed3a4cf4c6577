import DomainAuction.Ledger
import DomainAuction.Proofs.Running

/-!
# Sessions — how requests and their contexts run

A request that the node answers is a step that succeeds with the answer. A context shows only in
failures. A ledger in memory answers from what it has, and is then as before.
-/

namespace DomainAuction

variable {σ ε α : Type} {s s' : σ}

namespace Node

theorem ask_of_answer {node : Node σ ε} {q : Request} {a : q.Answer}
    (h : node.answer q s = .ok a s') : node.ask q s = .ok a s' := by
  unfold ask EStateM.adaptExcept
  rw [h]

theorem ask_eq_ok_iff {node : Node σ ε} {q : Request} {a : q.Answer} :
    node.ask q s = .ok a s' ↔ node.answer q s = .ok a s' := by
  unfold ask EStateM.adaptExcept
  cases node.answer q s <;> simp

theorem ask_eq_error_iff {node : Node σ ε} {q : Request} {f : Failure ε} :
    node.ask q s = .error f s'
      ↔ ∃ fault, node.answer q s = .error fault s' ∧ f = ⟨[], .node fault⟩ := by
  unfold ask EStateM.adaptExcept
  cases node.answer q s with
  | ok a t => simp
  | error fault t =>
    simp only [EStateM.Result.error.injEq]
    constructor
    · rintro ⟨rfl, rfl⟩
      exact ⟨fault, ⟨rfl, rfl⟩, rfl⟩
    · rintro ⟨fault', ⟨rfl, rfl⟩, rfl⟩
      exact ⟨rfl, rfl⟩

end Node

namespace Session

theorem within_of_ok {m : Session σ ε α} {context : Context} {a : α} (h : m s = .ok a s') :
    m.within context s = .ok a s' := by
  unfold within EStateM.adaptExcept
  rw [h]

theorem within_of_error {m : Session σ ε α} {context : Context} {failure : Failure ε}
    (h : m s = .error failure s') : m.within context s = .error (failure.within context) s' := by
  unfold within EStateM.adaptExcept
  rw [h]

theorem within_eq_ok_iff {m : Session σ ε α} {context : Context} {a : α} :
    m.within context s = .ok a s' ↔ m s = .ok a s' := by
  unfold within EStateM.adaptExcept
  cases m s <;> simp

/-- What asks nothing leaves the node as it is. -/
theorem ofExcept_eq_ok_iff {e : Except AuctionError α} {a : α} :
    (ofExcept e : Session σ ε α) s = .ok a s' ↔ e = .ok a ∧ s' = s := by
  cases e with
  | ok b =>
    show EStateM.Result.ok b s = .ok a s' ↔ _
    simp [eq_comm]
  | error e =>
    show EStateM.Result.error _ s = .ok a s' ↔ _
    simp

theorem ofExcept_eq_error_iff {e : Except AuctionError α} {f : Failure ε} :
    (ofExcept e : Session σ ε α) s = .error f s'
      ↔ ∃ error, e = .error error ∧ f = ⟨[], .auction error⟩ ∧ s' = s := by
  cases e with
  | ok b =>
    show EStateM.Result.ok b s = .error f s' ↔ _
    simp
  | error e =>
    show EStateM.Result.error _ s = .error f s' ↔ _
    simp [eq_comm]

/-! ## What a failure carries -/

/-- The computation fails, and in whatever contexts carries `e`: an error of this library, or
none. -/
def FailsWith (m : Session σ ε α) (s : σ) (e : Option AuctionError) (s' : σ) : Prop :=
  ∃ f, m s = .error f s' ∧ f.auctionError? = e

variable {β : Type} {e : Option AuctionError}

/-- No context hides what a failure carries. -/
theorem failsWith_within_iff {m : Session σ ε α} {context : Context} :
    (m.within context).FailsWith s e s' ↔ m.FailsWith s e s' := by
  unfold FailsWith within EStateM.adaptExcept
  cases m s with
  | ok a t => simp
  | error f t =>
    simp only [EStateM.Result.error.injEq]
    constructor
    · rintro ⟨_, ⟨rfl, rfl⟩, he⟩
      exact ⟨f, ⟨rfl, rfl⟩, he⟩
    · rintro ⟨_, ⟨rfl, rfl⟩, he⟩
      exact ⟨f.within context, ⟨rfl, rfl⟩, he⟩

theorem failsWith_bind_iff {m : Session σ ε α} {k : α → Session σ ε β} :
    FailsWith (m >>= k) s e s'
      ↔ m.FailsWith s e s' ∨ ∃ a t, m s = .ok a t ∧ (k a).FailsWith t e s' := by
  unfold FailsWith
  simp only [Running.bind_eq_error_iff]
  constructor
  · rintro ⟨f, h | ⟨a, t, ha, h⟩, he⟩
    · exact .inl ⟨f, h, he⟩
    · exact .inr ⟨a, t, ha, f, h, he⟩
  · rintro (⟨f, h, he⟩ | ⟨a, t, ha, f, h, he⟩)
    · exact ⟨f, .inl h, he⟩
    · exact ⟨f, .inr ⟨a, t, ha, h⟩, he⟩

theorem not_failsWith_pure {a : α} : ¬ FailsWith (pure a : Session σ ε α) s e s' := by
  rintro ⟨f, h, -⟩
  exact Running.pure_ne_error h

theorem failsWith_throw_iff {f : Failure ε} :
    FailsWith (throw f : Session σ ε α) s e s' ↔ f.auctionError? = e ∧ s = s' := by
  unfold FailsWith
  simp only [Running.throw_eq_error_iff]
  constructor
  · rintro ⟨_, ⟨rfl, hs⟩, he⟩
    exact ⟨he, hs⟩
  · rintro ⟨he, hs⟩
    exact ⟨f, ⟨rfl, hs⟩, he⟩

theorem failsWith_ofExcept_iff {r : Except AuctionError α} :
    (ofExcept r : Session σ ε α).FailsWith s e s'
      ↔ ∃ error, r = .error error ∧ e = some error ∧ s' = s := by
  unfold FailsWith
  simp only [ofExcept_eq_error_iff]
  constructor
  · rintro ⟨_, ⟨error, hr, rfl, rfl⟩, rfl⟩
    exact ⟨error, hr, rfl, rfl⟩
  · rintro ⟨error, hr, rfl, rfl⟩
    exact ⟨_, ⟨error, hr, rfl, rfl⟩, rfl⟩

theorem failsWith_ask_iff {node : Node σ ε} {q : Request} :
    (node.ask q).FailsWith s e s' ↔ e = none ∧ ∃ fault, node.answer q s = .error fault s' := by
  unfold FailsWith
  simp only [Node.ask_eq_error_iff]
  constructor
  · rintro ⟨_, ⟨fault, h, rfl⟩, rfl⟩
    exact ⟨rfl, fault, h⟩
  · rintro ⟨rfl, fault, h⟩
    exact ⟨_, ⟨fault, h, rfl⟩, rfl⟩

end Session

namespace Ledger

theorem node_answer_of_ok {l : Ledger} {q : Request} {a : q.Answer} (h : q.method ∉ l.unavailable)
    (hanswer : l.answer q = .ok a) : node.answer q l = .ok a l := by
  simp [node, h, hanswer]

end Ledger

end DomainAuction
