import DomainAuction.Scan.Window
import DomainAuction.Transaction.Message

/-!
# Request — what the library asks of a node

A node keeps a copy of the ledger and answers questions about it. Each question has its own type of
answer, so a node is a single function from questions to answers.
-/

namespace DomainAuction

/-- How sure a node has to be of the state that it answers from. -/
inductive Commitment where
  | processed
  | confirmed
  | finalized
  deriving DecidableEq

namespace Commitment

def name : Commitment → String
  | processed => "processed"
  | confirmed => "confirmed"
  | finalized => "finalized"

def ofName? : String → Option Commitment
  | "processed" => some processed
  | "confirmed" => some confirmed
  | "finalized" => some finalized
  | _ => none

end Commitment

/-- A transaction that the ledger has seen, with what is known about its execution. -/
structure PastTransaction where
  slot : UInt64
  /-- Seconds since 1970. -/
  blockTime : Option Int64
  /-- Whether the transaction was included but had no effect. -/
  failed : Bool
  logs : List String
  transaction : Transaction
  deriving DecidableEq

/-- A question to a node. -/
inductive Request where
  /-- The data of an account. -/
  | account (address : Address) (commitment : Commitment)
  /-- The data of several accounts, in the given order. -/
  | accounts (addresses : List Address)
  /-- The accounts of a program whose data show all windows. -/
  | programAccounts (program : Address) (windows : List Window)
  /-- The signatures of the last transactions that name an address, newest first. -/
  | signatures (address : Address) (limit : Nat)
  /-- A transaction by its signature. -/
  | transaction (signature : Signature)
  /-- The balance that keeps an account of `size` bytes alive. -/
  | rentMinimum (size : Nat)
  deriving DecidableEq

/-- The type of the answer to a question. -/
def Request.Answer : Request → Type
  | account .. => Option Bytes
  | accounts .. => List (Option Bytes)
  | programAccounts .. => List (Address × Bytes)
  | signatures .. => List Signature
  | transaction .. => Option PastTransaction
  | rentMinimum .. => UInt64

end DomainAuction
