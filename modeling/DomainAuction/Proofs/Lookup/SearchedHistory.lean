import DomainAuction.Proofs.Lookup.History
import DomainAuction.Proofs.Node.Dialogues

/-!
# SearchedHistory — a complete account of the past, or none

A search lists signatures and fetches their transactions one after the other. Nothing is assumed of
the node: it may list what it likes, know of a transaction or not, and stop answering at any moment.
If it answers every request, the search tells of each listed transaction that took effect all that it
asked of the program, and nothing else. A listing or a fetch that is not answered ends the search
with the node's own fault, and what was found before is not handed over.
-/

namespace DomainAuction

/-! ## One transaction -/

namespace PastTransaction

variable {t : PastTransaction} {d : Deployment} {signature : Signature}
variable {xs ys : List PastInstruction}

theorem Enumerates.nodup (h : t.Enumerates d signature xs) : xs.Nodup := by
  refine h.ordered.imp ?_
  rintro a b hlt rfl
  exact Nat.lt_irrefl a.index hlt

/-- There is only one list of all instructions to the program in the order of their indexes. -/
theorem Enumerates.unique (hx : t.Enumerates d signature xs) (hy : t.Enumerates d signature ys) :
    xs = ys := by
  have hperm : xs.Perm ys := (List.perm_ext_iff_of_nodup hx.nodup hy.nodup).2 fun x =>
    (hx.mem_iff x).trans (hy.mem_iff x).symm
  exact hperm.eq_of_pairwise (fun a b _ _ hab hba => absurd hab (Nat.lt_asymm hba)) hx.ordered
    hy.ordered

end PastTransaction

/-! ## The fetched transactions -/

namespace Node

variable {σ ε : Type}

/-- What is to be told of some fetched transactions, in their order: nothing of one that the node
does not know or that failed, and of one that took effect all its instructions to the program, in
the order of their indexes. -/
inductive Tells (d : Deployment) :
    List (Signature × Option PastTransaction) → List PastInstruction → Prop
  | nil : Tells d [] []
  | unknown {signature : Signature} {fetched : List (Signature × Option PastTransaction)}
    {found : List PastInstruction} :
    Tells d fetched found → Tells d ((signature, none) :: fetched) found
  | failed {signature : Signature} {t : PastTransaction}
    {fetched : List (Signature × Option PastTransaction)} {found : List PastInstruction} :
    t.failed = true → Tells d fetched found → Tells d ((signature, some t) :: fetched) found
  | tookEffect {signature : Signature} {t : PastTransaction}
    {fetched : List (Signature × Option PastTransaction)} {xs found : List PastInstruction} :
    t.failed = false → t.Enumerates d signature xs → Tells d fetched found →
    Tells d ((signature, some t) :: fetched) (xs ++ found)

/-- The instructions to the program in a transaction as it was fetched. -/
def instructionsFetched (d : Deployment) (signature : Signature) (known : Option PastTransaction) :
    List PastInstruction :=
  match known with
  | some t => t.instructions d signature
  | none => []

variable {d : Deployment} {fetched : List (Signature × Option PastTransaction)}
variable {found : List PastInstruction}

/-- **There is one thing to tell**, and it is put together transaction by transaction. -/
theorem tells_iff :
    Tells d fetched found ↔ found = fetched.flatMap fun x => instructionsFetched d x.1 x.2 := by
  constructor
  · intro h
    induction h with
    | nil => rfl
    | unknown _ ih => exact ih
    | @failed signature t _ _ hfailed _ ih =>
      have hnone : t.instructions d signature = [] := if_pos hfailed
      rw [List.flatMap_cons, ← ih, instructionsFetched, hnone, List.nil_append]
    | tookEffect hsuccess hxs _ ih =>
      rw [List.flatMap_cons, ← ih, instructionsFetched,
        hxs.unique (PastTransaction.enumerates_instructions hsuccess)]
  · rintro rfl
    induction fetched with
    | nil => exact .nil
    | cons x fetched ih =>
      obtain ⟨signature, known⟩ := x
      cases known with
      | none => exact .unknown ih
      | some t =>
        cases hfailed : t.failed with
        | true =>
          have hnone : t.instructions d signature = [] := if_pos hfailed
          rw [List.flatMap_cons, instructionsFetched, hnone, List.nil_append]
          exact .failed hfailed ih
        | false => exact .tookEffect hfailed (PastTransaction.enumerates_instructions hfailed) ih

/-! ## The search -/

/-- A listing with its answer, and some fetches with theirs. -/
def searchDialogue (address : Address) (limit : Nat) (signatures : List Signature)
    (fetched : List (Signature × Option PastTransaction)) : List ((q : Request) × q.Answer) :=
  ⟨.signatures address limit, signatures⟩ :: fetched.map fun x => ⟨.transaction x.1, x.2⟩

/-- What a search asks next: at first for the listing, and behind the fetches of the first listed
signatures for the transaction of the one that follows. -/
inductive SearchAsks (address : Address) (limit : Nat) :
    List ((q : Request) × q.Answer) → Request → Prop
  | listing : SearchAsks address limit [] (.signatures address limit)
  | fetch (fetched : List (Signature × Option PastTransaction)) (next : Signature)
    (later : List Signature) :
    SearchAsks address limit
      (searchDialogue address limit (fetched.map Prod.fst ++ next :: later) fetched)
      (.transaction next)

variable {node : Node σ ε} {address : Address} {limit : Nat} {signature : Signature} {s s' : σ}
variable {failure : Failure ε}

theorem requests_searchDialogue {signatures : List Signature} :
    (searchDialogue address limit signatures fetched).map Sigma.fst
      = .signatures address limit :: (fetched.map Prod.fst).map .transaction := by
  rw [searchDialogue, List.map_cons, List.map_map, List.map_map]
  rfl

/-! ### One fetch -/

theorem instructionsIn_eq_ok_iff {xs : List PastInstruction} :
    node.instructionsIn d signature s = .ok xs s'
      ↔ ∃ known : Option PastTransaction, node.answer (.transaction signature) s = .ok known s'
        ∧ True ∧ xs = instructionsFetched d signature known := by
  constructor
  · intro h
    obtain ⟨known, t, hask, htell⟩ := Running.bind_eq_ok_iff.1 h
    refine ⟨known, ?_⟩
    cases known with
    | none =>
      obtain ⟨rfl, rfl⟩ := Running.pure_eq_ok_iff.1 htell
      exact ⟨ask_eq_ok_iff.1 hask, trivial, rfl⟩
    | some t =>
      obtain ⟨rfl, rfl⟩ := Running.pure_eq_ok_iff.1 htell
      exact ⟨ask_eq_ok_iff.1 hask, trivial, rfl⟩
  · rintro ⟨known, hanswer, -, rfl⟩
    refine (Running.bind_of_ok (ask_of_answer hanswer)).trans ?_
    cases known <;> rfl

theorem instructionsIn_eq_error_iff :
    node.instructionsIn d signature s = .error failure s'
      ↔ ∃ fault, node.answer (.transaction signature) s = .error fault s'
        ∧ failure = ⟨[], .node fault⟩ := by
  constructor
  · intro h
    rcases Running.bind_eq_error_iff.1 h with hask | ⟨known, t, -, htell⟩
    · exact ask_eq_error_iff.1 hask
    · cases known <;> exact absurd htell Running.pure_ne_error
  · intro h
    exact Running.bind_of_error (ask_eq_error_iff.2 h)

/-! ### All fetches -/

theorem mapM_instructionsIn_eq_ok_iff {signatures : List Signature}
    {blocks : List (List PastInstruction)} :
    signatures.mapM (node.instructionsIn d) s = .ok blocks s'
      ↔ ∃ fetched : List (Signature × Option PastTransaction), fetched.map Prod.fst = signatures
        ∧ node.Answers s (fetched.map fun x => ⟨.transaction x.1, x.2⟩) s'
        ∧ blocks = fetched.map fun x => instructionsFetched d x.1 x.2 := by
  rw [mapM_eq_ok_iff_answers .transaction (fun _ known => known) (fun _ _ => True)
    (instructionsFetched d) fun signature s xs s' => instructionsIn_eq_ok_iff]
  simp

theorem pastInstructions_eq_ok_iff :
    node.pastInstructions d address limit s = .ok found s'
      ↔ ∃ fetched, node.Answers s (searchDialogue address limit (fetched.map Prod.fst) fetched) s'
        ∧ Tells d fetched found := by
  constructor
  · intro h
    obtain ⟨signatures, t, hlist, hrest⟩ := Running.bind_eq_ok_iff.1 h
    obtain ⟨blocks, u, hblocks, hpure⟩ := Running.bind_eq_ok_iff.1 hrest
    obtain ⟨fetched, rfl, hanswers, rfl⟩ := mapM_instructionsIn_eq_ok_iff.1 hblocks
    obtain ⟨rfl, rfl⟩ := Running.pure_eq_ok_iff.1 hpure
    exact ⟨fetched, .cons (ask_eq_ok_iff.1 hlist) hanswers, tells_iff.2 rfl⟩
  · rintro ⟨fetched, hanswers, htells⟩
    obtain ⟨t, hlist, hfetches⟩ := answers_cons_iff.1 hanswers
    have hblocks := (mapM_instructionsIn_eq_ok_iff (d := d)).2 ⟨fetched, rfl, hfetches, rfl⟩
    refine (Running.bind_of_ok (ask_of_answer hlist)).trans ((Running.bind_of_ok hblocks).trans ?_)
    rw [tells_iff.1 htells, List.flatMap_def]
    rfl

theorem pastInstructions_eq_error_iff :
    node.pastInstructions d address limit s = .error failure s'
      ↔ ∃ dialogue q fault, SearchAsks address limit dialogue q
        ∧ node.BreaksOff s dialogue q fault s' ∧ failure = ⟨[], .node fault⟩ := by
  constructor
  · intro h
    rcases Running.bind_eq_error_iff.1 h with hlist | ⟨signatures, t, hlist, hrest⟩
    · obtain ⟨fault, herror, rfl⟩ := ask_eq_error_iff.1 hlist
      exact ⟨_, _, fault, .listing, ⟨s, .nil s, herror⟩, rfl⟩
    · rcases Running.bind_eq_error_iff.1 hrest with hfetches | ⟨blocks, u, -, hpure⟩
      · obtain ⟨done, next, later, blocks, u, rfl, hdone, hnext⟩ :=
          Running.mapM_eq_error_iff.1 hfetches
        obtain ⟨fetched, rfl, hanswers, -⟩ := mapM_instructionsIn_eq_ok_iff.1 hdone
        obtain ⟨fault, herror, rfl⟩ := instructionsIn_eq_error_iff.1 hnext
        exact ⟨_, _, fault, .fetch fetched next later,
          ⟨u, .cons (ask_eq_ok_iff.1 hlist) hanswers, herror⟩, rfl⟩
      · exact absurd hpure Running.pure_ne_error
  · rintro ⟨dialogue, q, fault, hasks, ⟨t, hanswers, herror⟩, rfl⟩
    cases hasks with
    | listing =>
      obtain rfl := answers_nil_iff.1 hanswers
      exact Running.bind_of_error (ask_eq_error_iff.2 ⟨fault, herror, rfl⟩)
    | fetch fetched next later =>
      obtain ⟨u, hlist, hfetches⟩ := answers_cons_iff.1 hanswers
      have hdone := (mapM_instructionsIn_eq_ok_iff (d := d)).2 ⟨fetched, rfl, hfetches, rfl⟩
      have hlost : node.instructionsIn d next t = .error ⟨[], .node fault⟩ s' :=
        instructionsIn_eq_error_iff.2 ⟨fault, herror, rfl⟩
      have hall := Running.mapM_eq_error_iff.2 ⟨_, next, later, _, t, rfl, hdone, hlost⟩
      exact (Running.bind_of_ok (ask_of_answer hlist)).trans (Running.bind_of_error hall)

/-- **All of the past that was listed, or nothing, whatever the node does.** What is to be told of
fetched transactions is determined. The search succeeds if and only if the node answers the listing
and every fetch, in the order of the listing, and then it tells just that. It fails if and only if
the listing or a fetch is not answered; that request is the last one, and its fault is all that comes
back. -/
theorem pastInstructions_all_or_nothing (node : Node σ ε) (d : Deployment) (address : Address)
    (limit : Nat) (s : σ) :
    (∀ fetched, ∃! found, Tells d fetched found) ∧
    (∀ found s' asked, node.recorded.pastInstructions d address limit (s, []) = .ok found (s', asked)
      ↔ ∃ fetched, node.Answers s (searchDialogue address limit (fetched.map Prod.fst) fetched) s'
        ∧ Tells d fetched found
        ∧ asked = .signatures address limit :: (fetched.map Prod.fst).map .transaction) ∧
    (∀ failure s' asked,
      node.recorded.pastInstructions d address limit (s, []) = .error failure (s', asked)
        ↔ ∃ dialogue q fault, SearchAsks address limit dialogue q
          ∧ node.BreaksOff s dialogue q fault s' ∧ failure = ⟨[], .node fault⟩
          ∧ asked = dialogue.map Sigma.fst ++ [q]) := by
  refine ⟨fun fetched => ?_, fun found s' asked => ?_, fun failure s' asked => ?_⟩
  · exact ⟨_, tells_iff.2 rfl, fun found h => tells_iff.1 h⟩
  · rw [pastInstructions_eq_ok_iff]
    constructor
    · rintro ⟨fetched, hanswers, htells⟩
      obtain ⟨hanswered, rfl⟩ := recorded_answers_iff.1 hanswers
      exact ⟨fetched, hanswered, htells, requests_searchDialogue⟩
    · rintro ⟨fetched, hanswers, htells, rfl⟩
      exact ⟨fetched, recorded_answers_iff.2 ⟨hanswers, requests_searchDialogue.symm⟩, htells⟩
  · rw [pastInstructions_eq_error_iff]
    constructor
    · rintro ⟨dialogue, q, fault, hasks, hbreaks, hfailure⟩
      obtain ⟨hbroken, rfl⟩ := recorded_breaksOff_iff.1 hbreaks
      exact ⟨dialogue, q, fault, hasks, hbroken, hfailure, rfl⟩
    · rintro ⟨dialogue, q, fault, hasks, hbreaks, hfailure, rfl⟩
      exact ⟨dialogue, q, fault, hasks, recorded_breaksOff_iff.2 ⟨hbreaks, rfl⟩, hfailure⟩

end Node

end DomainAuction
