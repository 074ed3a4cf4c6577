import DomainAuction.Rpc.Shape

/-!
# Rendering — transactions in the words of a node

Beside the bytes of a transaction a node can send its own rendering of it, and it tells how the
transaction was executed. Little of this is of use here, but a reply with a part of another shape
is refused as a whole.
-/

namespace DomainAuction.Rpc.Rendering

open Shape
open Shape.Field (needed nullable spare)

/-! ## Instructions -/

def stackHeight : Field := nullable "stackHeight" u32

/-- An instruction whose program and accounts are indexes. -/
def compiledInstruction : Shape :=
  record [needed "programIdIndex" u8, needed "accounts" (list u8), needed "data" text, stackHeight]

/-- An instruction of a program that the node knows. -/
def knownInstruction : Shape :=
  record [needed "program" text, needed "programId" text, needed "parsed" any, stackHeight]

/-- An instruction of another program, with its accounts spelt out. -/
def foreignInstruction : Shape :=
  record [needed "programId" text, needed "accounts" (list text), needed "data" text, stackHeight]

def instruction : Shape :=
  either [compiledInstruction, knownInstruction, foreignInstruction]

/-! ## Messages -/

/-- An account of a transaction and what the transaction may do with it. -/
def accountKey : Shape :=
  record [needed "pubkey" text, needed "writable" flag, needed "signer" flag,
    nullable "source" (nameIn Value.name? ["transaction", "lookupTable"])]

def lookup : Shape :=
  record [needed "accountKey" text, needed "writableIndexes" (list u8),
    needed "readonlyIndexes" (list u8)]

def lookups : Field := spare "addressTableLookups" (list lookup)

def header : Shape :=
  record [needed "numRequiredSignatures" u8, needed "numReadonlySignedAccounts" u8,
    needed "numReadonlyUnsignedAccounts" u8]

/-- A message whose accounts and instructions are explained. -/
def explainedMessage : Shape :=
  record [needed "accountKeys" (list accountKey), needed "recentBlockhash" text,
    needed "instructions" (list instruction), lookups]

/-- A message as it was compiled. -/
def compiledMessage : Shape :=
  record [needed "header" header, needed "accountKeys" (list text), needed "recentBlockhash" text,
    needed "instructions" (list compiledInstruction), lookups]

/-- A transaction without its bytes: its message, or only its accounts. -/
def transaction : Shape :=
  either [
    record [needed "signatures" (list text),
      needed "message" (either [explainedMessage, compiledMessage])],
    record [needed "signatures" (list text), needed "accountKeys" (list accountKey)]]

/-! ## Executions -/

/-- A name in the record of an execution, where it may stand before an empty record. -/
def name (names : List String) : Shape :=
  nameIn (Value.nameBefore? Value.hollow?) names

/-- The instructions that an instruction has called. -/
def innerInstructions : Shape :=
  record [needed "index" u8, needed "instructions" (list instruction)]

def tokenAmount : Shape :=
  record [nullable "uiAmount" number, needed "decimals" u8, needed "amount" text,
    needed "uiAmountString" text]

def tokenBalance : Shape :=
  record [needed "accountIndex" u8, needed "mint" text, needed "uiTokenAmount" tokenAmount,
    spare "owner" text, spare "programId" text]

def reward : Shape :=
  record [needed "pubkey" text, needed "lamports" i64, needed "postBalance" u64,
    nullable "rewardType" (name ["Fee", "Rent", "Staking", "Voting"]), nullable "commission" u8]

def loadedAddresses : Shape :=
  record [needed "writable" (list text), needed "readonly" (list text)]

def returnData : Shape :=
  record [needed "programId" text, needed "data" (pair text (name ["base64"]))]

/-- The fields of the record of an execution, where `error` and `outcome` are the shapes of what
went wrong and of how it ended. -/
def execution (error outcome : Shape) : List Field :=
  [nullable "err" error, needed "status" outcome, needed "fee" u64,
    needed "preBalances" (list u64), needed "postBalances" (list u64),
    spare "innerInstructions" (list innerInstructions), spare "logMessages" (list text),
    spare "preTokenBalances" (list tokenBalance), spare "postTokenBalances" (list tokenBalance),
    spare "rewards" (list reward), spare "loadedAddresses" loadedAddresses,
    spare "returnData" returnData, spare "computeUnitsConsumed" u64, spare "costUnits" u64]

end DomainAuction.Rpc.Rendering
