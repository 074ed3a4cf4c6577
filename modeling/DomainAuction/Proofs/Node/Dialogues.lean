import DomainAuction.Proofs.Node.Requests

/-!
# Dialogues — a run told by what the node answered

A node may answer as it likes, and differently after every request. What a computation does with it
is told by a dialogue: the requests that the node was asked, each with the answer that it gave. The
node goes through its states along the dialogue, and the requests of the dialogue are those that a
recorded node keeps.
-/

namespace DomainAuction

variable {σ ε α β γ : Type}

namespace Node

/-- Asked these requests one after the other, the node gives these answers, and is led from one
state to another. -/
inductive Answers (node : Node σ ε) : σ → List ((q : Request) × q.Answer) → σ → Prop
  | nil (s : σ) : Answers node s [] s
  | cons {s t s' : σ} {q : Request} {a : q.Answer} {rest : List ((q : Request) × q.Answer)} :
    node.answer q s = .ok a t → Answers node t rest s' → Answers node s (⟨q, a⟩ :: rest) s'

variable {node : Node σ ε} {s s' : σ} {rest dialogue : List ((q : Request) × q.Answer)}

@[simp] theorem answers_nil_iff : node.Answers s [] s' ↔ s' = s := by
  constructor
  · intro h
    cases h
    rfl
  · rintro rfl
    exact .nil s'

@[simp] theorem answers_cons_iff {q : Request} {a : q.Answer} :
    node.Answers s (⟨q, a⟩ :: rest) s' ↔ ∃ t, node.answer q s = .ok a t ∧ node.Answers t rest s' := by
  constructor
  · intro h
    cases h with
    | cons hanswer hrest => exact ⟨_, hanswer, hrest⟩
  · rintro ⟨t, hanswer, hrest⟩
    exact .cons hanswer hrest

/-- **A recorded node keeps the requests of the dialogue.** -/
theorem recorded_answers_iff {asked asked' : List Request} :
    node.recorded.Answers (s, asked) dialogue (s', asked')
      ↔ node.Answers s dialogue s' ∧ asked' = asked ++ dialogue.map Sigma.fst := by
  induction dialogue generalizing s asked with
  | nil => simp
  | cons exchange rest ih =>
    obtain ⟨q, a⟩ := exchange
    simp only [answers_cons_iff, Prod.exists, recorded_eq_ok_iff, List.map_cons]
    constructor
    · rintro ⟨t, _, ⟨hanswer, rfl⟩, hrest⟩
      obtain ⟨hanswers, rfl⟩ := ih.1 hrest
      exact ⟨⟨t, hanswer, hanswers⟩, by rw [List.append_assoc, List.singleton_append]⟩
    · rintro ⟨⟨t, hanswer, hrest⟩, rfl⟩
      refine ⟨t, asked ++ [q], ⟨hanswer, rfl⟩, ih.2 ⟨hrest, ?_⟩⟩
      rw [List.append_assoc, List.singleton_append]

/-- The node answers along the dialogue, and does not answer the request behind it. -/
def BreaksOff (node : Node σ ε) (s : σ) (dialogue : List ((q : Request) × q.Answer)) (q : Request)
    (fault : ε) (s' : σ) : Prop :=
  ∃ t, node.Answers s dialogue t ∧ node.answer q t = .error fault s'

/-- The request that is not answered is the last one. -/
theorem recorded_breaksOff_iff {asked asked' : List Request} {q : Request} {fault : ε} :
    node.recorded.BreaksOff (s, asked) dialogue q fault (s', asked')
      ↔ node.BreaksOff s dialogue q fault s' ∧ asked' = asked ++ (dialogue.map Sigma.fst ++ [q]) := by
  constructor
  · rintro ⟨⟨t, kept⟩, hanswers, hfault⟩
    obtain ⟨hanswered, rfl⟩ := recorded_answers_iff.1 hanswers
    obtain ⟨hlast, rfl⟩ := recorded_eq_error_iff.1 hfault
    exact ⟨⟨t, hanswered, hlast⟩, List.append_assoc ..⟩
  · rintro ⟨⟨t, hanswers, hfault⟩, rfl⟩
    exact ⟨(t, asked ++ dialogue.map Sigma.fst), recorded_answers_iff.2 ⟨hanswers, rfl⟩,
      recorded_eq_error_iff.2 ⟨hfault, (List.append_assoc ..).symm⟩⟩

/-- **Steps that each ask one request and judge its answer** all succeed if and only if the node
answers their requests one after the other, and every answer is accepted. -/
theorem mapM_eq_ok_iff_answers {f : β → Session σ ε α} (q : β → Request)
    (reply : (b : β) → γ → (q b).Answer) (Accepts : β → γ → Prop) (value : β → γ → α)
    (hf : ∀ b s y s', f b s = .ok y s'
      ↔ ∃ c, node.answer (q b) s = .ok (reply b c) s' ∧ Accepts b c ∧ y = value b c)
    {bs : List β} {ys : List α} :
    bs.mapM f s = .ok ys s'
      ↔ ∃ cs : List (β × γ), cs.map Prod.fst = bs
        ∧ node.Answers s (cs.map fun x => ⟨q x.1, reply x.1 x.2⟩) s'
        ∧ (∀ x ∈ cs, Accepts x.1 x.2) ∧ ys = cs.map fun x => value x.1 x.2 := by
  induction bs generalizing s ys with
  | nil =>
    rw [List.mapM_nil, Running.pure_eq_ok_iff]
    constructor
    · rintro ⟨rfl, rfl⟩
      exact ⟨[], rfl, .nil s, List.forall_mem_nil _, rfl⟩
    · rintro ⟨cs, hcs, hanswers, -, rfl⟩
      obtain rfl := List.map_eq_nil_iff.1 hcs
      exact ⟨rfl, (answers_nil_iff.1 hanswers).symm⟩
  | cons b bs ih =>
    rw [List.mapM_cons, Running.bind_eq_ok_iff]
    constructor
    · rintro ⟨y, t, hy, hrest⟩
      obtain ⟨c, hanswer, hc, rfl⟩ := (hf b s y t).1 hy
      obtain ⟨ys', u, hys, hpure⟩ := Running.bind_eq_ok_iff.1 hrest
      obtain ⟨rfl, rfl⟩ := Running.pure_eq_ok_iff.1 hpure
      obtain ⟨cs, rfl, hanswers, hall, rfl⟩ := ih.1 hys
      exact ⟨(b, c) :: cs, rfl, .cons hanswer hanswers, List.forall_mem_cons.2 ⟨hc, hall⟩, rfl⟩
    · rintro ⟨cs, hcs, hanswers, hall, rfl⟩
      cases cs with
      | nil => cases hcs
      | cons x cs =>
        obtain ⟨rfl, rfl⟩ := List.cons_eq_cons.1 hcs
        obtain ⟨t, hanswer, hrest⟩ := answers_cons_iff.1 hanswers
        obtain ⟨hx, hall⟩ := List.forall_mem_cons.1 hall
        have hys := ih.2 ⟨cs, rfl, hrest, hall, rfl⟩
        exact ⟨value x.1 x.2, t, (hf x.1 s _ t).2 ⟨x.2, hanswer, hx, rfl⟩,
          Running.bind_eq_ok_iff.2 ⟨_, s', hys, rfl⟩⟩

end Node

end DomainAuction
