import DomainAuction.Bytes.Octets
import DomainAuction.Rpc.TransactionError
import DomainAuction.Text.Base58

/-!
# Exchange — calls to a node and its replies

A connection holds the replies that are still to come, and keeps a record of the calls that were
made and of the lines that were printed meanwhile. Each call takes the next reply; when there is
none, the node is taken to have refused.
-/

namespace DomainAuction.Rpc

/-- What a node sends back. -/
inductive Reply where
  | result (value : Value)
  | refusal (code : Int) (message : String)

/-- A call: the name of a method and its parameters. -/
structure Call where
  method : String
  params : List Value

/-- A connection to a node. Calls and lines are kept oldest first. -/
structure Connection where
  replies : List Reply
  calls : List Call
  lines : List String

/-- Why a call has no useful result. -/
inductive CallError where
  | refused (code : Int) (message : String)
  /-- The result has another shape than the method's results have. -/
  | misshapen
  /-- A text of the result is not what it should be. -/
  | unreadable (expected : String)
  /-- The node says that it took a transaction with another signature. -/
  | otherSignature (received expected : Signature)
  | failed (e : TransactionError)
  | unconfirmed
  deriving DecidableEq

def CallError.message : CallError → String
  | refused code message =>
    "RPC response error " ++ toString code ++ ": " ++ message ++ "; "
  | misshapen => "RPC response of an unexpected shape"
  | unreadable expected => "parse error: expected " ++ expected
  | otherSignature received expected =>
    "RPC request error: RPC node returned mismatched signature " ++ received.toBase58
      ++ ", expected " ++ expected.toBase58
  | failed e => e.message
  | unconfirmed =>
    "unable to confirm transaction. "
      ++ "This can happen in situations such as transaction expiration and "
      ++ "insufficient fee-payer funds"

/-- A computation that makes calls. -/
abbrev Exchange := EStateM CallError Connection

/-- Makes one call. -/
def send (call : Call) : Exchange Value := fun c =>
  let c := { c with calls := c.calls ++ [call] }
  match c.replies with
  | [] => .error (.refused (-1) "no response") c
  | .result v :: rest => .ok v { c with replies := rest }
  | .refusal code message :: rest => .error (.refused code message) { c with replies := rest }

/-- Makes one call and reads its result. -/
def call {α : Type} (method : String) (params : List Value) (read : Value → Option α) :
    Exchange α := do
  match read (← send ⟨method, params⟩) with
  | some a => return a
  | none => throw .misshapen

end DomainAuction.Rpc
