import DomainAuction.Console
import DomainAuction.Deployment
import DomainAuction.Lookup.Batches
import DomainAuction.Rpc.Exchange
import DomainAuction.Rpc.Records
import DomainAuction.Transaction.Draft

/-!
# Client — a node at the other end of a connection

A client answers the requests of the library by calls to a node, and sends drafts as signed
transactions. What went wrong is told in the client's words; what the node said stays with it.
Failures of a transaction are always printed, other remarks only on demand.
-/

namespace DomainAuction.Rpc

/-- What a client does when it sends, and whether it prints remarks. -/
structure SendSettings where
  /-- The most computation that a transaction may ask for. -/
  computeBudget : Option UInt32
  debugLogs : Option Bool
  deriving DecidableEq

/-- No limit on computation, and remarks. -/
def SendSettings.standard : SendSettings := ⟨none, some true⟩

/-- A client of the node at an address of the network. -/
structure Client where
  url : String
  commitment : Commitment
  settings : SendSettings
  console : Console

/-- The client that settles for confirmed states. -/
def Client.ofUrl (url : String) (settings : SendSettings) (console : Console) : Client :=
  ⟨url, .confirmed, settings, console⟩

/-! ## Faults -/

/-- What a client was about to do when a call failed. -/
inductive Attempt where
  | account (address : Address)
  | accounts
  | programAccounts (program : Address)
  | signatures (address : Address)
  | transaction (signature : Signature)
  | rentMinimum
  | blockhash
  | submission
  deriving DecidableEq

def Attempt.message : Attempt → String
  | account a => "Couldn't retrieve account " ++ a.toBase58
  | accounts => "Couldn't retrieve multiple accounts"
  | programAccounts p => "Program account scan of " ++ p.toBase58 ++ " failed"
  | signatures a => "Couldn't retrieve signatures for " ++ a.toBase58
  | transaction s => "Couldn't fetch transaction " ++ s.toBase58
  | rentMinimum => "Couldn't retrieve the rent exempt minimum"
  | blockhash => "Couldn't fetch a recent blockhash"
  | submission => "Failed transaction submission"

/-- Why a client does not answer. -/
inductive Fault where
  | call (attempt : Attempt) (error : CallError)
  | tooManyAccounts (count : Nat)
  | invalidSignature (text : String)
  | unsigned (error : SigningError)
  deriving DecidableEq

/-- What a client says first about a fault. -/
def Fault.message : Fault → String
  | call attempt _ => attempt.message
  | tooManyAccounts n =>
    "Requested " ++ toString n ++ " accounts, at most " ++ toString batchSize
      ++ " fit in one request"
  | invalidSignature text => "Invalid signature " ++ text
  | unsigned e => e.summary

/-- A computation of a client. -/
abbrev Work := EStateM Fault Connection

variable {α : Type}

/-- The calls of an attempt. -/
def Exchange.during (attempt : Attempt) (x : Exchange α) : Work α :=
  EStateM.adaptExcept (.call attempt) x

/-- The outcome of some calls, whatever it is. -/
def Exchange.outcome (x : Exchange α) : Work (Except CallError α) := fun c =>
  match x c with
  | .ok a c => .ok (.ok a) c
  | .error e c => .ok (.error e) c

/-! ## Parameters -/

def Value.ofAddress {n : Nat} (a : Octets n) : Value :=
  .text a.toBase58

/-- A commitment as a parameter. -/
def commitmentOption (c : Commitment) : String × Value :=
  ("commitment", .text c.name)

/-- How the data of accounts are asked for. -/
def accountOptions (c : Commitment) : Value :=
  .record [commitmentOption c, ("dataSlice", .null), ("encoding", .text "base64+zstd"),
    ("minContextSlot", .null)]

def Value.ofWindow (w : Window) : Value :=
  .record [("memcmp", .record [("offset", .ofNat w.offset),
    ("bytes", .list (w.bytes.map fun b => .ofNat b.toNat)), ("encoding", .text "bytes")])]

namespace Client

variable (client : Client)

/-! ## Printing -/

/-- Prints a key and its value. -/
def print (color : Color) (key value : String) : Work Unit :=
  modify fun c => { c with lines := c.lines ++ [client.console.field color .fadedGray key value] }

/-- Prints lines if remarks are wanted. -/
def remark (lines : Work Unit) : Work Unit :=
  if client.settings.debugLogs = some true then lines else pure ()

/-! ## Requests -/

def account (address : Address) (commitment : Commitment) : Work (Option Bytes) :=
  Exchange.during (.account address) <|
    call "getAccountInfo" [.ofAddress address, accountOptions commitment]
      (inContext readMaybeAccount)

def accounts (addresses : List Address) : Work (List (Option Bytes)) :=
  if batchSize < addresses.length then throw (.tooManyAccounts addresses.length)
  else
    Exchange.during .accounts <|
      call "getMultipleAccounts"
        [.list (addresses.map .ofAddress), accountOptions client.commitment]
        (inContext (Value.listOf readMaybeAccount))

def programAccounts (program : Address) (windows : List Window) :
    Work (List (Address × Bytes)) := do
  let options := Value.record [commitmentOption client.commitment, ("dataSlice", .null),
    ("encoding", .null), ("minContextSlot", .null), ("filters", .list (windows.map .ofWindow)),
    ("sortResults", .null), ("withContext", .null)]
  let found ← Exchange.during (.programAccounts program) <|
    call "getProgramAccounts" [.ofAddress program, options] readKeyedAccounts
  client.remark do
    client.print .info "Scanned" program.toBase58
    client.print .info "Filters" (toString windows.length)
    client.print .info "Matches" (toString found.length)
  return found

/-- A signature that a node has listed. -/
def listedSignature (text : String) : Work Signature :=
  match Octets.parseSignature? text with
  | some signature => pure signature
  | none => throw (.invalidSignature text)

def signatures (address : Address) (limit : Nat) : Work (List Signature) := do
  let options := Value.record [("before", .null), ("until", .null),
    commitmentOption client.commitment, ("limit", .ofNat limit), ("minContextSlot", .null)]
  let listed ← Exchange.during (.signatures address) <|
    call "getSignaturesForAddress" [.ofAddress address, options]
      (Value.listOf readListedSignature)
  listed.mapM listedSignature

def transaction (signature : Signature) : Work (Option PastTransaction) := do
  let options := Value.record [("encoding", .text "base64"), commitmentOption client.commitment,
    ("maxSupportedTransactionVersion", .ofNat 0)]
  let reply ← Exchange.during (.transaction signature) <|
    call "getTransaction" [.ofAddress signature, options] (Value.nullable readPastTransaction)
  match reply with
  | none => client.remark (client.print .warning "Transaction not found" signature.toBase58)
  | some none =>
    client.remark (client.print .warning "Undecodable transaction" signature.toBase58)
  | some (some _) => pure ()
  return reply.join

def rentMinimum (size : Nat) : Work UInt64 :=
  Exchange.during .rentMinimum <|
    call "getMinimumBalanceForRentExemption" [.ofNat size] Value.u64?

/-- The node that the client stands for. -/
def node : Node Connection Fault where
  answer
    | .account address commitment => account address commitment
    | .accounts addresses => client.accounts addresses
    | .programAccounts program windows => client.programAccounts program windows
    | .signatures address limit => client.signatures address limit
    | .transaction signature => client.transaction signature
    | .rentMinimum size => rentMinimum size

/-! ## Sending -/

/-- The program that limits the computation of a transaction. -/
def computeBudgetProgram : Address :=
  .ofBase58 "ComputeBudget111111111111111111111111111111" (by decide +kernel)

/-- The instructions that come first when computation is limited: the limit, and the least
price. -/
def budgetInstructions (budget : UInt32) : List Instruction :=
  [⟨computeBudgetProgram, [], 2 :: littleEndian 4 budget.toNat⟩,
   ⟨computeBudgetProgram, [], 3 :: littleEndian 8 1⟩]

def latestBlockhash (commitment : Commitment) : Exchange Digest := do
  let text ← call "getLatestBlockhash" [.record [commitmentOption commitment]]
    (inContext readBlockhash)
  match Octets.parseAddress text with
  | .ok blockhash => return blockhash
  | .error _ => throw (.unreadable "Hash")

/-- Hands a transaction to the node, which answers with its signature. -/
def submit (t : Transaction) (signature : Signature) : Exchange Unit := do
  let options := Value.record [("encoding", .text "base64"), ("maxRetries", .null),
    ("minContextSlot", .null), ("preflightCommitment", .text client.commitment.name),
    ("skipPreflight", .flag false)]
  let text ← call "sendTransaction" [.text (Base64.encode (Wire.transaction t)), options]
    Value.text?
  match Octets.parseSignature text with
  | .error e => throw (.unreadable e.message)
  | .ok received =>
    unless received = signature do throw (.otherSignature received signature)

/-- Waits until a transaction is confirmed or its blockhash has expired. Each round takes two
replies, so there are fewer rounds than replies. -/
def confirm (signature : Signature) (blockhash : Digest) : (rounds : Nat) → Exchange Unit
  | 0 => throw .unconfirmed
  | rounds + 1 => do
    let statuses ← call "getSignatureStatuses" [.list [.ofAddress signature]]
      (inContext (Value.listOf (Value.nullable readStatus)))
    match statuses.head?.join.filter (·.isConfirmed) with
    | some status =>
      match status.outcome with
      | .ok () => return ()
      | .error e => throw (.failed e)
    | none =>
      let valid ← call "isBlockhashValid"
        [.ofAddress blockhash, .record [commitmentOption .processed]]
        (inContext Value.flag?)
      if valid then confirm signature blockhash rounds else throw .unconfirmed

/-- Whether a message starts by renewing a blockhash that is stored on the ledger: then its own one
may have expired long ago. -/
def usesStoredBlockhash (m : Message) : Bool :=
  match m.instructions with
  | [] => false
  | first :: _ =>
    m.accountKeys[first.programIndex.toNat]? = some systemProgram
      && first.data.take 4 = littleEndian 4 4

/-- Hands over a transaction and waits for it. -/
def submitAndConfirm (t : Transaction) (signature : Signature) : Exchange Unit := do
  client.submit t signature
  let blockhash ←
    if usesStoredBlockhash t.message then latestBlockhash .processed
    else pure t.message.blockhash
  confirm signature blockhash ((← get).replies.length + 1)

/-- Signs a draft and sends it. The first signature, which is the payer's, names the
transaction. -/
def send (payer : SigningKey) (draft : Draft) : Work Signature := do
  let blockhash ← Exchange.during .blockhash (latestBlockhash client.commitment)
  let beforehand := (client.settings.computeBudget.map budgetInstructions).getD []
  match draft.sign payer beforehand blockhash with
  | .error e => throw (.unsigned e)
  | .ok t =>
    let signature := t.signatures.headD (.zero 64)
    match ← (client.submitAndConfirm t signature).outcome with
    | .ok () =>
      client.remark do
        client.print .header "Signature" signature.toBase58
        client.print .highlight "Payer" payer.publicKey.toBase58
        client.print .highlight "Instructions" (toString t.message.instructions.length)
        client.print .highlight "Signers" (toString t.signatures.length)
      return signature
    | .error e =>
      client.print .error "Failed transaction" e.message
      client.print .error "Payer" payer.publicKey.toBase58
      throw (.call .submission e)

end Client

end DomainAuction.Rpc
