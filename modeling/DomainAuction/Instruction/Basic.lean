import DomainAuction.Bytes.Octets

/-!
# Instruction — what a transaction asks a program to do

An instruction names a program, the accounts that the program may touch and the rights it needs on
them, and data that only the program understands.
-/

namespace DomainAuction

/-- An account as an instruction names it, with the rights that the instruction claims. -/
structure AccountMeta where
  address : Address
  isSigner : Bool
  isWritable : Bool
  deriving DecidableEq

namespace AccountMeta

def reads (a : Address) : AccountMeta := ⟨a, false, false⟩

def writes (a : Address) : AccountMeta := ⟨a, false, true⟩

def readsSigned (a : Address) : AccountMeta := ⟨a, true, false⟩

def writesSigned (a : Address) : AccountMeta := ⟨a, true, true⟩

end AccountMeta

/-- A request to one program. -/
structure Instruction where
  programId : Address
  accounts : List AccountMeta
  data : Bytes
  deriving DecidableEq

end DomainAuction
