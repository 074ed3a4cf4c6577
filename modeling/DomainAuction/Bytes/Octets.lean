import DomainAuction.Bytes.Endian

/-!
# Octets — byte strings of a fixed length

Addresses, digests, secret seeds and signatures are byte strings whose length is part of their
type. They are ordered as big-endian numbers, which for one length is the order of their bytes.
-/

namespace DomainAuction

/-- A byte string of exactly `n` bytes. -/
structure Octets (n : Nat) where
  toList : Bytes
  length_toList : toList.length = n
  deriving DecidableEq

namespace Octets

variable {n : Nat}

theorem ext_toList {a b : Octets n} (h : a.toList = b.toList) : a = b := by
  cases a
  cases b
  cases h
  rfl

/-- The byte string itself when it has the right length. -/
def ofList? (n : Nat) (bytes : Bytes) : Option (Octets n) :=
  if h : bytes.length = n then some ⟨bytes, h⟩ else none

/-- The big-endian bytes of a number, without what does not fit in `n` bytes. -/
def ofNat (n value : Nat) : Octets n :=
  ⟨bigEndian n value, length_bigEndian n value⟩

/-- The bytes as one big-endian number. -/
def toNat (a : Octets n) : Nat :=
  ofBigEndian a.toList

theorem toNat_inj {a b : Octets n} (h : a.toNat = b.toNat) : a = b := by
  apply ext_toList
  have ha := bigEndian_ofBigEndian a.toList
  have hb := bigEndian_ofBigEndian b.toList
  rw [a.length_toList] at ha
  rw [b.length_toList] at hb
  rw [← ha, ← hb]
  exact congrArg (bigEndian n) h

/-- All bytes zero. -/
def zero (n : Nat) : Octets n :=
  ⟨List.replicate n 0, List.length_replicate⟩

/-- Whether one byte string comes before another of the same length. -/
def precedes (a b : Octets n) : Bool :=
  a.toNat < b.toNat

end Octets

/-- The 32 bytes that name an account, a program or a public key. -/
abbrev Address := Octets 32

/-- A 32-byte hash value. -/
abbrev Digest := Octets 32

/-- A 64-byte transaction signature. -/
abbrev Signature := Octets 64

end DomainAuction
