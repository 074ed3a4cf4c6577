import DomainAuction.AuctionError

/-!
# Version — the two protocols and their instruction tags

Deployments of the program speak one of two protocols. An instruction starts with a tag byte; the
older protocol has only four of the eight tags, and lays out three of those differently.
-/

namespace DomainAuction

/-- The protocol that a deployment speaks. -/
inductive ProtocolVersion where
  | legacy
  | current
  deriving DecidableEq

/-- What an instruction asks the program to do. -/
inductive Tag where
  | init
  | createAuction
  | claim
  | resell
  | createReverse
  | endAuction
  | register
  | takeBack
  deriving DecidableEq

namespace Tag

def code : Tag → UInt8
  | init => 0
  | createAuction => 1
  | claim => 2
  | resell => 4
  | createReverse => 5
  | endAuction => 8
  | register => 9
  | takeBack => 10

def ofCode? : UInt8 → Option Tag
  | 0 => some init
  | 1 => some createAuction
  | 2 => some claim
  | 4 => some resell
  | 5 => some createReverse
  | 8 => some endAuction
  | 9 => some register
  | 10 => some takeBack
  | _ => none

/-- The tag with a code. -/
def ofCode (code : UInt8) : Except AuctionError Tag :=
  match ofCode? code with
  | some t => .ok t
  | none => .error .invalidInstructionTag

/-- Whether a protocol knows a tag. -/
def existsIn : Tag → ProtocolVersion → Bool
  | _, .current => true
  | init, .legacy | createAuction, .legacy | claim, .legacy | resell, .legacy => true
  | _, .legacy => false

@[simp] theorem ofCode?_code (t : Tag) : ofCode? t.code = some t := by
  cases t <;> rfl

end Tag

end DomainAuction
