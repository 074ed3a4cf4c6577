import DomainAuction.Deployment
import DomainAuction.Node.Basic
import DomainAuction.Transaction.Payloads

/-!
# History — what the program was asked before

The past of an address is the list of its last transactions. Of those that are known and took
effect, the instructions to the program are decoded; one that cannot be fetched ends the search.
-/

namespace DomainAuction

/-- An instruction to the program in a past transaction. -/
structure PastInstruction where
  signature : Signature
  slot : UInt64
  blockTime : Option Int64
  feePayer : Option Address
  /-- The place among the instructions of the transaction. -/
  index : Nat
  payload : Payload
  logs : List String
  deriving DecidableEq

/-- The instructions to the program of a deployment, if the transaction took effect. -/
def PastTransaction.instructions (t : PastTransaction) (d : Deployment) (signature : Signature) :
    List PastInstruction :=
  if t.failed then []
  else (t.transaction.message.payloads d.programId d.version).map fun (index, payload) =>
    { signature, slot := t.slot, blockTime := t.blockTime
      feePayer := t.transaction.message.accountKeys.head?, index, payload, logs := t.logs }

/-- The instructions to the program in one of the past transactions. -/
def Node.instructionsIn {σ ε : Type} (node : Node σ ε) (d : Deployment) (signature : Signature) :
    Session σ ε (List PastInstruction) := do
  match ← node.ask (.transaction signature) with
  | some t => return PastTransaction.instructions t d signature
  | none => return []

/-- The instructions to the program in the last `limit` transactions that name an address, newest
transaction first. -/
def Node.pastInstructions {σ ε : Type} (node : Node σ ε) (d : Deployment) (address : Address)
    (limit : Nat) : Session σ ε (List PastInstruction) := do
  let signatures : List Signature ← node.ask (.signatures address limit)
  let found ← signatures.mapM (node.instructionsIn d)
  return found.flatten

end DomainAuction
