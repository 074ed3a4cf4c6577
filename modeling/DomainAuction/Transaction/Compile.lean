import DomainAuction.Transaction.Message

/-!
# Compile — from instructions to a message

Every key that an instruction names goes into one table, ordered by address; a key that is named
more than once has all the rights it is given anywhere. The payer comes first, then the signers
that are written, the signers that are only read, and the other keys likewise. The header of a
message counts keys in one byte each, and more keys than it can count make no message.
-/

namespace DomainAuction

namespace KeyTable

/-- Adds a key to a table that is ordered by address, or adds its rights to those it has. -/
def insert (key : AccountMeta) : List AccountMeta → List AccountMeta
  | [] => [key]
  | first :: rest =>
    if key.address = first.address then
      ⟨first.address, first.isSigner || key.isSigner, first.isWritable || key.isWritable⟩ :: rest
    else if key.address.precedes first.address then key :: first :: rest
    else first :: insert key rest

/-- The keys of an instruction: its program, which neither signs nor is written, and its
accounts. -/
def keysOf (i : Instruction) : List AccountMeta :=
  .reads i.programId :: i.accounts

/-- The table of all keys of some instructions. -/
def ofInstructions (instructions : List Instruction) : List AccountMeta :=
  (instructions.flatMap keysOf).foldl (fun table key => insert key table) []

/-- The addresses of a table with the given rights. -/
def select (isSigner isWritable : Bool) (table : List AccountMeta) : List Address :=
  (table.filter fun k => k.isSigner == isSigner && k.isWritable == isWritable).map
    AccountMeta.address

end KeyTable

namespace Message

/-! ## The keys of a message -/

/-- The keys besides the payer, with their rights. -/
def otherKeys (payer : Address) (instructions : List Instruction) : List AccountMeta :=
  (KeyTable.ofInstructions instructions).filter fun k => k.address != payer

/-- The keys that have to sign and are not written. -/
def readSigners (payer : Address) (instructions : List Instruction) : List Address :=
  KeyTable.select true false (otherKeys payer instructions)

/-- The keys that have to sign, the payer first. -/
def requiredSigners (payer : Address) (instructions : List Instruction) : List Address :=
  payer :: KeyTable.select true true (otherKeys payer instructions)
    ++ readSigners payer instructions

/-- The keys that neither sign nor are written. -/
def readKeys (payer : Address) (instructions : List Instruction) : List Address :=
  KeyTable.select false false (otherKeys payer instructions)

/-- All keys, in their order. -/
def keys (payer : Address) (instructions : List Instruction) : List Address :=
  requiredSigners payer instructions
    ++ (KeyTable.select false true (otherKeys payer instructions) ++ readKeys payer instructions)

/-- A number of keys in one byte, if it has room there. -/
def count? (n : Nat) : Option UInt8 :=
  if n < 256 then some (UInt8.ofNat n) else none

/-- The header that counts the keys, if each count has room in its byte. -/
def header? (payer : Address) (instructions : List Instruction) : Option MessageHeader :=
  return {
    requiredSignatures := ← count? (requiredSigners payer instructions).length
    readonlySigned := ← count? (readSigners payer instructions).length
    readonlyUnsigned := ← count? (readKeys payer instructions).length }

/-! ## Compiling -/

/-- The index of a key, of which one byte is kept, or zero for a key that is not listed. -/
def indexOf (keys : List Address) (key : Address) : UInt8 :=
  UInt8.ofNat ((keys.findIdx? (· == key)).getD 0)

/-- An instruction with its keys replaced by their indexes. -/
def compileInstruction (keys : List Address) (i : Instruction) : CompiledInstruction where
  programIndex := indexOf keys i.programId
  accounts := i.accounts.map fun a => indexOf keys a.address
  data := i.data

/-- The message that asks for some instructions, paid by `payer`. There is none if its header cannot
count the keys. -/
def compile (payer : Address) (instructions : List Instruction) (blockhash : Digest) :
    Option Message := do
  let header ← header? payer instructions
  let keys := keys payer instructions
  return {
    format := .legacy
    header
    accountKeys := keys
    blockhash
    instructions := instructions.map (compileInstruction keys) }

end Message

end DomainAuction
