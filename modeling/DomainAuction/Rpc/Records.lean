import DomainAuction.Node.Request
import DomainAuction.Rpc.Rendering
import DomainAuction.Rpc.TransactionError
import DomainAuction.Text.Base58
import DomainAuction.Text.Base64
import DomainAuction.Text.SemanticVersion
import DomainAuction.Transaction.Wire
import DomainAuction.Compression.Frame

/-!
# Records — accounts, transactions and statuses in replies

A reply may have the right shape and still hold nothing of use, such as data in an encoding that
is not understood. Readers keep the two apart: the outer option says whether the shape is right,
and the inner one whether something could be decoded.
-/

namespace DomainAuction.Rpc

open Value (nullable listOf)

/-! ## Contexts -/

/-- The release of the software that a node runs. -/
def readRelease (v : Value) : Option Unit := do
  if SemanticVersion.isValid (← v.text?) then some () else none

/-- A value together with the slot that it was true in. -/
def inContext {α : Type} (read : Value → Option α) (v : Value) : Option α := do
  let fields ← v.fields? ["context", "value"] 0
  let context ← fields.get? "context" (Value.fields? ["slot", "apiVersion"] 0)
  let _ ← context.get? "slot" Value.u64?
  let _ ← context.get? "apiVersion" (nullable readRelease)
  fields.get? "value" read

/-! ## Accounts -/

/-- Data that a node has taken apart, so that the bytes are lost. -/
def dissectedData : Shape :=
  .record [.needed "program" .text, .needed "parsed" .any, .needed "space" .u64]

/-- The bytes of a text, where the encoding has this name. Two of the encodings are for requests:
no data are in them. -/
def decodeData (text : String) : (encoding : String) → Option (Option Bytes)
  | "base58" => some (Base58.decode? text)
  | "base64" => some (Base64.decode? text)
  | "base64+zstd" => some ((Base64.decode? text).bind Compression.decompress?)
  | "binary" | "jsonParsed" => some none
  | _ => none

/-- The data of an account: a text in base 58, a text with the name of its encoding, or data that
the node has taken apart. -/
def readData (v : Value) : Option (Option Bytes) :=
  match v with
  | .text s => some (Base58.decode? s)
  | .list [.text s, encoding] => do decodeData s (← encoding.name?)
  | v => if dissectedData v then some none else none

/-- The data of an account, if its owner can be read too. -/
def readAccount (v : Value) : Option (Option Bytes) := do
  let fields ← v.fields? ["lamports", "data", "owner", "executable", "rentEpoch", "space"] 0
  let _ ← fields.get? "lamports" Value.u64?
  let data ← fields.get? "data" readData
  let owner ← fields.get? "owner" Value.text?
  let _ ← fields.get? "executable" Value.flag?
  let _ ← fields.get? "rentEpoch" Value.u64?
  let _ ← fields.get? "space" (nullable Value.u64?)
  match Octets.parseAddress owner with
  | .ok _ => some data
  | .error _ => some none

/-- Data that may be missing: there is no account, or its data cannot be decoded. -/
def readMaybeAccount (v : Value) : Option (Option Bytes) :=
  (nullable readAccount v).map Option.join

/-- An account with the text of its address, which is left open. -/
def readKeyedAccount (v : Value) : Option (String × Option Bytes) := do
  let fields ← v.fields? ["pubkey", "account"] 0
  let address ← fields.get? "pubkey" Value.text?
  let data ← fields.get? "account" readAccount
  return (address, data)

/-- The accounts of a program, with or without the slot that they were found in. All addresses and
all data must be readable. -/
def readKeyedAccounts (v : Value) : Option (List (Address × Bytes)) := do
  let accounts ← inContext (listOf readKeyedAccount) v <|> listOf readKeyedAccount v
  accounts.mapM fun (address, data) => return (← (Octets.parseAddress address).toOption, ← data)

/-! ## Transactions -/

/-- How certain a node is of something. -/
def readCommitment (v : Value) : Option Commitment := do
  Commitment.ofName? (← v.name?)

/-- Reads one entry of a list of signatures; whether the text is a signature is left open. -/
def readListedSignature (v : Value) : Option String := do
  let fields ← v.fields?
    ["signature", "slot", "err", "memo", "blockTime", "confirmationStatus"] 0
  let signature ← fields.get? "signature" Value.text?
  let _ ← fields.get? "slot" Value.u64?
  let _ ← fields.get? "err" (nullable TransactionError.read)
  let _ ← fields.get? "memo" (nullable Value.text?)
  let _ ← fields.get? "blockTime" (nullable Value.i64?)
  let _ ← fields.get? "confirmationStatus" (nullable readCommitment)
  return signature

/-- The bytes of a transaction, where the encoding has this name. -/
def decodeSent (text : String) : (encoding : String) → Option (Option Bytes)
  | "base58" => some (Base58.decode? text)
  | "base64" => some (Base64.decode? text)
  | _ => none

/-- A transaction as it was sent, or as the node renders it. -/
def readSent (v : Value) : Option (Option Transaction) :=
  match v with
  | .text s => some ((Base58.decode? s).bind Wire.transaction?)
  | .list [.text s, encoding] =>
    match encoding.name?.bind (decodeSent s) with
    | some bytes => some (bytes.bind Wire.transaction?)
    | none => none
  | v => if Rendering.transaction v then some none else none

/-- How a transaction was executed. -/
structure Execution where
  failed : Bool
  logs : List String
  deriving DecidableEq

def readExecution (v : Value) : Option Execution := do
  let fields ← Shape.fields? (Rendering.execution (.read TransactionError.read)
    (.read (TransactionError.readOutcome Value.hollow?))) v
  let error ← fields.get? "err" (nullable TransactionError.read)
  let logs ← fields.get? "logMessages" (nullable (listOf Value.text?))
  return ⟨error.isSome, logs.getD []⟩

/-- The version of a message: a name for the older format, or a number. -/
def version : Shape :=
  .either [.nameIn Value.name? ["legacy"], .u8]

/-- A transaction of the past. Without a record of its execution it is as good as undecodable. -/
def readPastTransaction (v : Value) : Option (Option PastTransaction) := do
  let fields ← v.namedFields?
  let slot ← fields.get? "slot" Value.u64?
  let transaction ← fields.get? "transaction" readSent
  let execution ← fields.get? "meta" (nullable readExecution)
  let blockTime ← fields.get? "blockTime" (nullable Value.i64?)
  if !(Shape.Field.nullable "version" version).fits fields then none
  match transaction, execution with
  | some t, some e => some (some ⟨slot, blockTime, e.failed, e.logs, t⟩)
  | _, _ => some none

/-! ## Sending -/

/-- Reads the text of a blockhash, which is left open. -/
def readBlockhash (v : Value) : Option String := do
  let fields ← v.fields? ["blockhash", "lastValidBlockHeight"] 0
  let blockhash ← fields.get? "blockhash" Value.text?
  let _ ← fields.get? "lastValidBlockHeight" Value.u64?
  return blockhash

/-- How far a transaction has come. -/
structure Status where
  confirmations : Option UInt64
  outcome : Except TransactionError Unit
  commitment : Option Commitment

/-- Whether a transaction has come far enough. A node that does not say so in words gives the
number of confirmations, or none at all for a transaction that is final. -/
def Status.isConfirmed (s : Status) : Bool :=
  match s.commitment, s.confirmations with
  | some c, _ => c != .processed
  | none, some n => 1 < n
  | none, none => true

def readStatus (v : Value) : Option Status := do
  let fields ← v.fields? ["slot", "confirmations", "status", "err", "confirmationStatus"] 0
  let _ ← fields.get? "slot" Value.u64?
  let confirmations ← fields.get? "confirmations" (nullable Value.u64?)
  let outcome ← fields.get? "status" (TransactionError.readOutcome Value.nothing?)
  let _ ← fields.get? "err" (nullable TransactionError.read)
  let commitment ← fields.get? "confirmationStatus" (nullable readCommitment)
  return ⟨confirmations, outcome, commitment⟩

end DomainAuction.Rpc
