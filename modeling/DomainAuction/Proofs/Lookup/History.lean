import DomainAuction.Lookup.History
import DomainAuction.Proofs.Node.Sessions
import DomainAuction.Proofs.Transaction.Payloads
import Mathlib.Data.List.Basic

/-!
# History — how far back a search reaches

The past of an address is searched among its newest signatures, as many as the limit allows. Only
then is it seen which of their transactions are known and took effect. The search finds what these
asked of the program, newest first; the others have used up the limit all the same, so that older
transactions which took effect are missed.
-/

namespace DomainAuction

/-! ## What one transaction asked -/

/-- An instruction to the program of a deployment, as a transaction has it at its index. -/
structure PastInstruction.IsIn (x : PastInstruction) (d : Deployment) (signature : Signature)
    (t : PastTransaction) : Prop where
  signature : x.signature = signature
  slot : x.slot = t.slot
  blockTime : x.blockTime = t.blockTime
  feePayer : x.feePayer = t.transaction.message.accountKeys.head?
  logs : x.logs = t.logs
  placed : ∃ i, t.transaction.message.instructions[x.index]? = some i
    ∧ t.transaction.message.accountKeys[i.programIndex.toNat]? = some d.programId
    ∧ Payload.decode i.data d.version = .ok x.payload

namespace PastTransaction

variable {t : PastTransaction} {d : Deployment} {signature : Signature}

/-- A list of all instructions to the program in a transaction, in the order of their indexes. -/
structure Enumerates (t : PastTransaction) (d : Deployment) (signature : Signature)
    (xs : List PastInstruction) : Prop where
  mem_iff : ∀ x, x ∈ xs ↔ x.IsIn d signature t
  ordered : xs.Pairwise fun a b => a.index < b.index

theorem mem_instructions_iff {x : PastInstruction} :
    x ∈ t.instructions d signature ↔ t.failed = false ∧ x.IsIn d signature t := by
  unfold instructions
  cases hfailed : t.failed with
  | true => simp
  | false =>
    simp only [Bool.false_eq_true, if_false, List.mem_map, Prod.exists, true_and]
    constructor
    · rintro ⟨index, payload, hmem, rfl⟩
      exact ⟨rfl, rfl, rfl, rfl, rfl, Message.mem_payloads_iff.1 hmem⟩
    · intro h
      refine ⟨x.index, x.payload, Message.mem_payloads_iff.2 h.placed, ?_⟩
      rw [← h.signature, ← h.slot, ← h.blockTime, ← h.feePayer, ← h.logs]

theorem instructions_ordered :
    (t.instructions d signature).Pairwise fun a b => a.index < b.index := by
  unfold instructions
  split
  · exact .nil
  · exact List.pairwise_map.2 Message.payloads_ordered

/-- What is decoded from a transaction that took effect is all that it asked of the program. -/
theorem enumerates_instructions (h : t.failed = false) :
    t.Enumerates d signature (t.instructions d signature) where
  mem_iff x := by rw [mem_instructions_iff, and_iff_right h]
  ordered := instructions_ordered

end PastTransaction

/-! ## Counting before or after dropping -/

/-- The images of the first `n` elements are the first images, fewer by the elements among them that
have none. -/
theorem filterMap_take {α β : Type} (f : α → Option β) (xs : List α) (n : Nat) :
    (xs.take n).filterMap f
      = (xs.filterMap f).take (n - (xs.take n).countP fun x => (f x).isNone) := by
  induction xs generalizing n with
  | nil => simp
  | cons x xs ih =>
    cases n with
    | zero => simp
    | succ n =>
      have hle : (xs.take n).countP (fun x => (f x).isNone) ≤ n :=
        Nat.le_trans List.countP_le_length (List.length_take_le n xs)
      cases hx : f x with
      | none => simp [hx, ih]
      | some y => simp [hx, ih, Nat.succ_sub hle]

/-! ## Nodes with a history -/

namespace Node

variable {σ ε : Type}

/-- The transactions of an address, as a node shows them while it is steady. -/
structure History (node : Node σ ε) (address : Address) where
  /-- The signatures of the transactions that name the address, newest first. -/
  signatures : List Signature
  /-- What the node knows about a transaction. -/
  transaction? : Signature → Option PastTransaction
  /-- The states in which the node has these transactions. -/
  Steady : σ → Prop
  lists : ∀ limit s, Steady s → ∃ s',
    node.answer (.signatures address limit) s = .ok (signatures.take limit) s' ∧ Steady s'
  fetches : ∀ signature ∈ signatures, ∀ s, Steady s → ∃ s',
    node.answer (.transaction signature) s = .ok (transaction? signature) s' ∧ Steady s'

namespace History

variable {node : Node σ ε} {address : Address} (h : node.History address) {s : σ}

/-- A transaction with its signature, if it is known and took effect. -/
def successful? (signature : Signature) : Option (Signature × PastTransaction) :=
  ((h.transaction? signature).filter fun t => !t.failed).map fun t => (signature, t)

/-- All transactions of the address that are known and took effect, newest first. -/
def successful : List (Signature × PastTransaction) :=
  h.signatures.filterMap h.successful?

/-- How many of the newest `limit` signatures are of transactions that failed or are unknown. -/
def skipped (limit : Nat) : Nat :=
  (h.signatures.take limit).countP fun signature => (h.successful? signature).isNone

/-- The instructions to the program in the last `count` transactions that took effect. -/
def instructionsOfLast (d : Deployment) (count : Nat) : List PastInstruction :=
  (h.successful.take count).flatMap fun x => x.2.instructions d x.1

theorem successful?_eq_some_iff {signature : Signature} {x : Signature × PastTransaction} :
    h.successful? signature = some x
      ↔ signature = x.1 ∧ h.transaction? signature = some x.2 ∧ x.2.failed = false := by
  obtain ⟨signature', t⟩ := x
  simp only [successful?, Option.map_eq_some_iff, Option.filter_eq_some_iff, Prod.mk.injEq,
    Bool.not_eq_true']
  constructor
  · rintro ⟨t, htransaction, rfl, rfl⟩
    exact ⟨rfl, htransaction⟩
  · rintro ⟨rfl, htransaction⟩
    exact ⟨t, htransaction, rfl, rfl⟩

theorem mem_successful_iff {x : Signature × PastTransaction} :
    x ∈ h.successful
      ↔ x.1 ∈ h.signatures ∧ h.transaction? x.1 = some x.2 ∧ x.2.failed = false := by
  unfold successful
  simp only [List.mem_filterMap, successful?_eq_some_iff]
  constructor
  · rintro ⟨signature, hmem, rfl, hx⟩
    exact ⟨hmem, hx⟩
  · rintro ⟨hmem, hx⟩
    exact ⟨x.1, hmem, rfl, hx⟩

theorem skipped_le (limit : Nat) : h.skipped limit ≤ limit :=
  Nat.le_trans List.countP_le_length (List.length_take_le limit h.signatures)

/-- The newest signatures are of the newest transactions that took effect, of fewer by those that
are skipped. -/
theorem filterMap_take_signatures (limit : Nat) :
    (h.signatures.take limit).filterMap h.successful?
      = h.successful.take (limit - h.skipped limit) :=
  filterMap_take h.successful? h.signatures limit

/-- The instructions to the program in one of the transactions, none if it is not known. -/
def instructionsOf (d : Deployment) (signature : Signature) : List PastInstruction :=
  match h.transaction? signature with
  | some t => t.instructions d signature
  | none => []

theorem instructionsOf_eq_flatMap (d : Deployment) (signature : Signature) :
    h.instructionsOf d signature
      = (h.successful? signature).toList.flatMap fun x => x.2.instructions d x.1 := by
  unfold instructionsOf successful?
  cases h.transaction? signature with
  | none => rfl
  | some t =>
    cases hfailed : t.failed with
    | true => simp [PastTransaction.instructions, hfailed, Option.filter]
    | false => simp [hfailed, Option.filter]

theorem flatten_instructionsOf (d : Deployment) (limit : Nat) :
    ((h.signatures.take limit).map (h.instructionsOf d)).flatten
      = h.instructionsOfLast d (limit - h.skipped limit) := by
  calc ((h.signatures.take limit).map (h.instructionsOf d)).flatten
      = (h.signatures.take limit).flatMap fun signature =>
          (h.successful? signature).toList.flatMap fun x => x.2.instructions d x.1 := by
        rw [← List.flatMap_def]
        exact List.flatMap_congr fun signature _ => h.instructionsOf_eq_flatMap d signature
    _ = ((h.signatures.take limit).filterMap h.successful?).flatMap fun x =>
          x.2.instructions d x.1 := by
        rw [← List.flatMap_assoc, ← List.filterMap_eq_flatMap_toList]
    _ = h.instructionsOfLast d (limit - h.skipped limit) := by
        rw [h.filterMap_take_signatures, instructionsOfLast]

/-! ### The search -/

theorem ask_signatures (limit : Nat) (hs : h.Steady s) :
    ∃ s', node.ask (.signatures address limit) s = .ok (h.signatures.take limit) s'
      ∧ h.Steady s' := by
  obtain ⟨s', hanswer, hs'⟩ := h.lists limit s hs
  exact ⟨s', ask_of_answer hanswer, hs'⟩

/-- One step of the search. -/
theorem instructionsIn (d : Deployment) {signature : Signature} (hmem : signature ∈ h.signatures)
    (hs : h.Steady s) :
    ∃ s', node.instructionsIn d signature s = .ok (h.instructionsOf d signature) s'
      ∧ h.Steady s' := by
  obtain ⟨s', hanswer, hs'⟩ := h.fetches signature hmem s hs
  refine ⟨s', (Running.bind_of_ok (ask_of_answer hanswer)).trans ?_, hs'⟩
  unfold instructionsOf
  cases h.transaction? signature <;> rfl

/-- The whole search reads the newest signatures, one after the other. -/
theorem pastInstructions (d : Deployment) (limit : Nat) (hs : h.Steady s) :
    ∃ s', node.pastInstructions d address limit s
        = .ok ((h.signatures.take limit).map (h.instructionsOf d)).flatten s'
      ∧ h.Steady s' := by
  obtain ⟨t, hlist, ht⟩ := h.ask_signatures limit hs
  have hstep : ∀ signature ∈ h.signatures.take limit, ∀ t, h.Steady t →
      ∃ t', node.instructionsIn d signature t = .ok (h.instructionsOf d signature) t'
        ∧ h.Steady t' :=
    fun signature hmem t ht => h.instructionsIn d (List.mem_of_mem_take hmem) ht
  obtain ⟨s', hrun, hs'⟩ := Running.mapM_of_steady hstep ht
  exact ⟨s', (Running.bind_of_ok hlist).trans ((Running.bind_of_ok hrun).trans rfl), hs'⟩

end History

variable {node : Node σ ε} {address : Address} {s : σ}

/-- **Transactions that failed or are unknown use up the limit.** The search succeeds, and finds the
instructions of the last transactions that took effect, newest first and in order. There are as many
fewer of these transactions than the limit allows as the search has skipped, and the next ones are
missed. -/
theorem pastInstructions_eq_instructionsOfLast (h : node.History address) (d : Deployment)
    (limit : Nat) (hs : h.Steady s) :
    ∃ found s', node.pastInstructions d address limit s = .ok found s' ∧ h.Steady s'
      ∧ found = h.instructionsOfLast d (limit - h.skipped limit)
      ∧ (∀ y ∈ h.successful, y.2.Enumerates d y.1 (y.2.instructions d y.1))
      ∧ h.instructionsOfLast d limit = found
          ++ ((h.successful.drop (limit - h.skipped limit)).take (h.skipped limit)).flatMap
            fun y => y.2.instructions d y.1 := by
  obtain ⟨s', hrun, hs'⟩ := h.pastInstructions d limit hs
  rw [h.flatten_instructionsOf] at hrun
  refine ⟨_, s', hrun, hs', rfl, ?_, ?_⟩
  · intro y hy
    obtain ⟨-, -, hsuccess⟩ := h.mem_successful_iff.1 hy
    exact PastTransaction.enumerates_instructions hsuccess
  · -- the limit is what was read of them and what was skipped
    have hlimit : limit = (limit - h.skipped limit) + h.skipped limit :=
      (Nat.sub_add_cancel (h.skipped_le limit)).symm
    conv_lhs => rw [hlimit]
    rw [History.instructionsOfLast, History.instructionsOfLast, List.take_add, List.flatMap_append]

end Node

/-! ## The ledger in memory -/

namespace Ledger

/-- A ledger that answers about transactions, and reaches those of an address, shows their
history. -/
def history (l : Ledger) (address : Address) (hlist : "get_signatures_for_address" ∉ l.unavailable)
    (hfetch : "get_transaction" ∉ l.unavailable)
    (hreach : ∀ signature ∈ l.signaturesOf address, signature ∉ l.unreachable) :
    node.History address where
  signatures := l.signaturesOf address
  transaction? signature := l.transactions.lookup signature
  Steady s := s = l
  lists limit s hs := by
    subst hs
    exact ⟨s, node_answer_of_ok hlist rfl, rfl⟩
  fetches signature hmem s hs := by
    subst hs
    exact ⟨s, node_answer_of_ok hfetch (by simp [answer, hreach signature hmem]), rfl⟩

end Ledger

namespace Node

/-- A transaction that takes an auction back, paid by the key at address zero. -/
def takingBack (d : Deployment) (slot : UInt64) (failed : Bool) : PastTransaction where
  slot := slot
  blockTime := none
  failed := failed
  logs := []
  transaction :=
    { signatures := []
      message :=
        { format := .legacy
          header := ⟨1, 0, 1⟩
          accountKeys := [.zero 32, d.programId]
          blockhash := .zero 32
          instructions := [⟨1, [0], [10]⟩] } }

/-- A ledger with two transactions of the address zero. The older one took effect, and the newer one
failed. -/
def failedLast (d : Deployment) : Ledger :=
  ((((Ledger.empty none [] 0).record (.ofNat 64 1) (takingBack d 10 false)).list (.ofNat 64 1)
    [.zero 32]).record (.ofNat 64 2) (takingBack d 20 true)).list (.ofNat 64 2) [.zero 32]

def failedLastHistory (d : Deployment) : Ledger.node.History (.zero 32) :=
  (failedLast d).history (.zero 32) List.not_mem_nil List.not_mem_nil fun _ _ => List.not_mem_nil

/-- With a limit of two, the search comes to the older transaction. -/
theorem pastInstructions_failedLast :
    ∃ found s', Ledger.node.pastInstructions .mainnet (.zero 32) 2 (failedLast .mainnet)
        = .ok found s'
      ∧ found.map PastInstruction.slot = [10] := by
  obtain ⟨found, s', hrun, -, hfound, -, -⟩ :=
    pastInstructions_eq_instructionsOfLast (failedLastHistory .mainnet) .mainnet 2 rfl
  refine ⟨found, s', hrun, ?_⟩
  rw [hfound]
  decide +kernel

/-- With a limit of one, the failed transaction is all that the search looks at. It finds nothing,
although the last transaction that took effect has an instruction. -/
theorem pastInstructions_not_last :
    (∃ s', Ledger.node.pastInstructions .mainnet (.zero 32) 1 (failedLast .mainnet) = .ok [] s')
      ∧ ((failedLastHistory .mainnet).instructionsOfLast .mainnet 1).map PastInstruction.slot
        = [10] := by
  constructor
  · obtain ⟨s', hrun, -⟩ := (failedLastHistory .mainnet).pastInstructions .mainnet 1 rfl
    have hread : (((failedLastHistory .mainnet).signatures.take 1).map
        ((failedLastHistory .mainnet).instructionsOf .mainnet)).flatten = [] := by decide +kernel
    rw [hread] at hrun
    exact ⟨s', hrun⟩
  · decide +kernel

end Node

end DomainAuction
