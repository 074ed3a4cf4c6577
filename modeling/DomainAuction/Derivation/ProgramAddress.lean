import DomainAuction.Crypto.Edwards25519
import DomainAuction.Crypto.Sha2
import DomainAuction.Text.Utf8

/-!
# ProgramAddress — addresses that only a program can sign for

A program address is the hash of some seeds, a bump byte, the program and a fixed marker. Keys are
points of the curve, so a hash that is no point belongs to nobody; the bump is the largest byte
whose hash is one of those.
-/

namespace DomainAuction

/-- What a program address is derived from. -/
structure Derivation where
  seeds : List Bytes
  program : Address

namespace Derivation

/-- The byte string that is hashed for a bump. -/
def preimage (d : Derivation) (bump : UInt8) : Bytes :=
  d.seeds.flatten ++ bump :: d.program.toList ++ utf8 "ProgramDerivedAddress"

/-- The hash for a bump. -/
def candidate (d : Derivation) (bump : UInt8) : Address :=
  sha256 (d.preimage bump)

/-- The first bump from `bump` downwards whose hash is no point of the curve. Zero is not tried. -/
def search (d : Derivation) : (bump : Nat) → Option (Address × UInt8)
  | 0 => none
  | bump + 1 =>
    let hash := d.candidate (UInt8.ofNat (bump + 1))
    if Edwards25519.isPoint hash then d.search bump else some (hash, UInt8.ofNat (bump + 1))

/-- The program address and its bump, if some bump has one. -/
def find? (d : Derivation) : Option (Address × UInt8) :=
  d.search 255

/-- The program address and its bump. Every other hash is a point, so seeds for which all 255 hashes
are points are out of reach; they stop the program, and the hash for zero only stands in for an
address that they do not have. -/
def find (d : Derivation) : Address × UInt8 :=
  d.find?.getD (d.candidate 0, 0)

end Derivation

end DomainAuction
