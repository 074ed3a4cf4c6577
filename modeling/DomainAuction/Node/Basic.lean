import DomainAuction.AuctionError
import DomainAuction.Node.Request
import DomainAuction.Text.Base58

/-!
# Node — asking a node, and what can go wrong

A node answers requests and may change with every one of them: it is a computation over states of
any type `σ` that fails with faults of any type `ε`. What the library computes from answers is a
`Session`. A session fails with a cause, around which each layer may put what it was about to do.
-/

namespace DomainAuction

/-! ## Failures -/

/-- What was going on when something failed. -/
inductive Context where
  | accountMissing (address : Address)
  | reverseLookup (nameAccount : Address)
  | resellingState
  | oracleAccount
  | oracleData
  | oracleDecimal (price : Int64) (exponent : Int)
  deriving DecidableEq

def Context.text : Context → String
  | accountMissing a => "Account " ++ a.toBase58 ++ " doesn't exist"
  | reverseLookup a => "No reverse lookup for " ++ a.toBase58
  | resellingState => "Could not retrieve reselling state"
  | oracleAccount => "Unable to retrieve oracle data"
  | oracleData => "Invalid oracle account data"
  | oracleDecimal p e => s!"Oracle price {p} with exponent {e} doesn't fit in a decimal"

/-- Why a session failed. -/
inductive Cause (ε : Type) where
  /-- An account is missing or does not decode, or an operation is refused. -/
  | auction (error : AuctionError)
  /-- The node answered for another number of accounts than it was asked for. -/
  | miscounted (requested received : Nat)
  /-- The node did not answer. A fault is the node's own, and no error of this library is in it. -/
  | node (fault : ε)
  deriving DecidableEq

/-- A cause with the contexts around it, outermost first. -/
structure Failure (ε : Type) where
  contexts : List Context
  cause : Cause ε
  deriving DecidableEq

namespace Failure

variable {ε : Type}

/-- The error of this library that caused a failure, if one did. A node's fault has none in it,
whatever the node is. -/
def auctionError? (f : Failure ε) : Option AuctionError :=
  match f.cause with
  | .auction e => some e
  | _ => none

/-- The failure in one more context. -/
def within (context : Context) (f : Failure ε) : Failure ε :=
  { f with contexts := context :: f.contexts }

/-- All contexts and the cause, in the words of the node where it is to blame. -/
def message (faultText : ε → String) (f : Failure ε) : String :=
  let cause := match f.cause with
    | .auction e => e.message
    | .miscounted requested received => s!"Requested {requested} accounts but received {received}"
    | .node fault => faultText fault
  ": ".intercalate (f.contexts.map Context.text ++ [cause])

end Failure

/-! ## Nodes and sessions -/

/-- Anything that answers requests. -/
structure Node (σ ε : Type) where
  answer : (q : Request) → EStateM ε σ q.Answer

/-- A computation from the answers of a node. -/
abbrev Session (σ ε : Type) := EStateM (Failure ε) σ

variable {σ ε : Type}

namespace Session

variable {α : Type}

def ofExcept : Except AuctionError α → Session σ ε α
  | .ok a => return a
  | .error e => throw ⟨[], .auction e⟩

/-- The same computation, whose failures tell of one more context. -/
def within (context : Context) (s : Session σ ε α) : Session σ ε α :=
  EStateM.adaptExcept (Failure.within context) s

end Session

namespace Node

/-- Asks one request. -/
def ask (node : Node σ ε) (q : Request) : Session σ ε q.Answer :=
  EStateM.adaptExcept (fun fault => ⟨[], .node fault⟩) (node.answer q)

/-- The same node, with a record of the requests it was asked, oldest first. -/
def recorded (node : Node σ ε) : Node (σ × List Request) ε where
  answer q := fun (s, asked) =>
    match node.answer q s with
    | .ok a s => .ok a (s, asked ++ [q])
    | .error fault s => .error fault (s, asked ++ [q])

end Node

end DomainAuction
