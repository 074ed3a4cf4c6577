import DomainAuction.Proofs.Node.Sessions

/-!
# Requests — what a computation asks of a node

A recorded node answers as the node does and keeps the requests. What it has kept at the end,
whether the computation succeeds or fails, is what was asked.
-/

namespace DomainAuction

variable {σ ε α : Type}

namespace Session

/-- The state in which a computation leaves the node. -/
def after (m : Session σ ε α) (s : σ) : σ :=
  match m s with
  | .ok _ t => t
  | .error _ t => t

/-- The requests that a computation makes of a recorded node, oldest first. -/
def requests (m : Session (σ × List Request) ε α) (s : σ) : List Request :=
  (m.after (s, [])).2

/-- The accounts whose data a computation asks for, in order. -/
def askedFor (m : Session (σ × List Request) ε α) (s : σ) : List Address :=
  (m.requests s).flatMap fun
    | .account address _ => [address]
    | .accounts addresses => addresses
    | _ => []

variable {s : σ}

theorem after_of_ok {m : Session σ ε α} {a : α} {t : σ} (h : m s = .ok a t) : m.after s = t := by
  unfold after
  rw [h]

theorem after_of_error {m : Session σ ε α} {f : Failure ε} {t : σ} (h : m s = .error f t) :
    m.after s = t := by
  unfold after
  rw [h]

end Session

namespace Node

variable {node : Node σ ε} {q : Request} {s : σ} {asked : List Request}

theorem recorded_eq_ok_iff {a : q.Answer} {t : σ × List Request} :
    node.recorded.answer q (s, asked) = .ok a t
      ↔ node.answer q s = .ok a t.1 ∧ t.2 = asked ++ [q] := by
  obtain ⟨s', asked'⟩ := t
  unfold recorded
  dsimp only
  cases node.answer q s <;> simp [and_assoc, eq_comm]

theorem recorded_eq_error_iff {fault : ε} {t : σ × List Request} :
    node.recorded.answer q (s, asked) = .error fault t
      ↔ node.answer q s = .error fault t.1 ∧ t.2 = asked ++ [q] := by
  obtain ⟨s', asked'⟩ := t
  unfold recorded
  dsimp only
  cases node.answer q s <;> simp [and_assoc, eq_comm]

end Node

end DomainAuction
