import DomainAuction.Domain.Basic
import DomainAuction.Node.Basic
import DomainAuction.Record.Name

/-!
# Batches — looking up many accounts at once

A node answers about at most a hundred accounts in one request, so longer lists are asked for in
batches, one after the other. The answers line up with the addresses: a node that answers about
another number of accounts than it was asked for is not believed.
-/

namespace DomainAuction

/-- The most accounts that one request may name. -/
def batchSize : Nat := 100

/-- Consecutive batches of a list, all full but the last. -/
def batches {α : Type} (xs : List α) : List (List α) :=
  if xs.isEmpty then [] else xs.take batchSize :: batches (xs.drop batchSize)
termination_by xs.length
decreasing_by
  have : xs.length ≠ 0 := by simpa using ‹¬ xs.isEmpty = true›
  simp [batchSize]
  omega

namespace Node

variable {σ ε : Type} (node : Node σ ε)

/-- The data of at most a hundred accounts. -/
def batch (addresses : List Address) : Session σ ε (List (Option Bytes)) := do
  let data : List (Option Bytes) ← node.ask (.accounts addresses)
  if data.length = addresses.length then return data
  else throw ⟨[], .miscounted addresses.length data.length⟩

/-- The data of any number of accounts, in order. -/
def accountsData (addresses : List Address) : Session σ ε (List (Option Bytes)) := do
  let data ← (batches addresses).mapM node.batch
  return data.flatten

/-- The text of the name that the data of a reverse lookup hold. -/
def nameOf (data : Option Bytes) : Option String :=
  data.bind fun data => (ReverseLookup.layout.decode data).toOption.map (·.name)

/-- The texts of the names of some name accounts, in order. -/
def reverseLookups (d : Deployment) (nameAccounts : List Address) :
    Session σ ε (List (Option String)) := do
  let data ← node.accountsData (nameAccounts.map d.reverseLookup)
  return data.map nameOf

end Node

end DomainAuction
