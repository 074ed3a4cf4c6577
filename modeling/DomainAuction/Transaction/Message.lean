import DomainAuction.Instruction.Basic

/-!
# Message — instructions over a shared list of keys

A message lists all its keys once and refers to them by index. Its header says how many of the
keys sign and how many are only read. The later message format can name further keys through
tables that live on the ledger; the keys written in the message itself come first either way.
-/

namespace DomainAuction

/-- An instruction that names its program and its accounts by index. -/
structure CompiledInstruction where
  programIndex : UInt8
  accounts : Bytes
  data : Bytes
  deriving DecidableEq

/-- How many keys sign, and how many of the signing and of the other keys are only read. -/
structure MessageHeader where
  requiredSignatures : UInt8
  readonlySigned : UInt8
  readonlyUnsigned : UInt8
  deriving DecidableEq

/-- Keys taken from a table on the ledger, by their places in the table. -/
structure TableLookup where
  table : Address
  writable : Bytes
  readonly : Bytes
  deriving DecidableEq

/-- The two message formats. -/
inductive MessageFormat where
  | legacy
  | versioned (lookups : List TableLookup)
  deriving DecidableEq

/-- What a transaction asks for, and what its signers sign. -/
structure Message where
  format : MessageFormat
  header : MessageHeader
  accountKeys : List Address
  blockhash : Digest
  instructions : List CompiledInstruction
  deriving DecidableEq

namespace Message

/-- The keys that must sign. -/
def signerKeys (m : Message) : List Address :=
  m.accountKeys.take m.header.requiredSignatures.toNat

/-- The lookups of the later format. -/
def lookups (m : Message) : List TableLookup :=
  match m.format with
  | .legacy => []
  | .versioned lookups => lookups

/-- How many keys the lookups add. -/
def lookedUpKeys (m : Message) : Nat :=
  (m.lookups.flatMap fun l => l.writable ++ l.readonly).length

/-- How many keys an instruction can refer to. -/
def totalKeys (m : Message) : Nat :=
  m.accountKeys.length + m.lookedUpKeys

/-- Whether the indexes of an instruction are in range. The first key pays, so it is no program,
and programs are never looked up. -/
def allows (m : Message) (i : CompiledInstruction) : Bool :=
  i.programIndex != 0 && i.programIndex.toNat < m.accountKeys.length
    && i.accounts.all fun a => a.toNat < m.totalKeys

/-- Whether the header fits the keys, every lookup takes a key, and all indexes are in range. -/
def isSane (m : Message) : Bool :=
  let signed := m.header.requiredSignatures.toNat
  signed + m.header.readonlyUnsigned.toNat ≤ m.accountKeys.length
    && m.header.readonlySigned.toNat < signed
    && m.lookups.all (fun l => !(l.writable.isEmpty && l.readonly.isEmpty))
    && (m.format = .legacy || m.totalKeys ≤ 256)
    && m.instructions.all m.allows

end Message

/-- A message with its signatures, in the order of the keys that sign. -/
structure Transaction where
  signatures : List Signature
  message : Message
  deriving DecidableEq

/-- Whether the message is sane and has one signature for each signer among its own keys. -/
def Transaction.isSane (t : Transaction) : Bool :=
  t.message.isSane && t.signatures.length = t.message.header.requiredSignatures.toNat
    && t.signatures.length ≤ t.message.accountKeys.length

end DomainAuction
