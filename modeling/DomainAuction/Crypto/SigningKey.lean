import DomainAuction.Crypto.Edwards25519
import DomainAuction.Crypto.Sha2

/-!
# SigningKey — deterministic Ed25519 signatures

A key is a secret seed of 32 bytes. Its public key and its signature of a message are functions of
the seed and the message alone.
-/

namespace DomainAuction

open Edwards25519 (Point)

/-- A secret seed, from which the public key and all signatures follow. -/
structure SigningKey where
  seed : Octets 32
  deriving DecidableEq

namespace SigningKey

/-- The number of points that the base point generates. -/
def order : Nat :=
  7237005577332262213973186563042994240857116359379907606001950938285454250989

/-- The weight of the highest bit of every scalar, `2²⁵⁴`. -/
def scalarWeight : Nat :=
  28948022309329048855892746252171976963317496166410141009864396001978282409984

/-- The secret number behind the public key: the first half of the seed's digest, made a multiple
of 8 between `2²⁵⁴` and `2²⁵⁵`. -/
def scalar (key : SigningKey) : Nat :=
  let half := ofLittleEndian ((sha512 key.seed.toList).toList.take 32)
  half % scalarWeight / 8 * 8 + scalarWeight

/-- The public key, which is also the address of the wallet. -/
def publicKey (key : SigningKey) : Address :=
  (Point.base.times 255 key.scalar).compress

/-- A digest of several byte strings as a number below the order. -/
def challenge (parts : List Bytes) : Nat :=
  ofLittleEndian (sha512 parts.flatten).toList % order

/-- The signature of a message. -/
def sign (key : SigningKey) (message : Bytes) : Signature :=
  let nonce := challenge [(sha512 key.seed.toList).toList.drop 32, message]
  let commitment := (Point.base.times 255 nonce).compress
  let answer := nonce + challenge [commitment.toList, key.publicKey.toList, message] * key.scalar
  ⟨commitment.toList ++ littleEndian 32 (answer % order), by
    simp [commitment.length_toList]⟩

/-- The seed followed by the public key, the form in which key files store a key. -/
def pairBytes (key : SigningKey) : Bytes :=
  key.seed.toList ++ key.publicKey.toList

/-- The key whose stored form is given, if the second half is the public key of the first. -/
def ofPairBytes? (bytes : Bytes) : Option SigningKey := do
  let seed ← Octets.ofList? 32 (bytes.take 32)
  let key : SigningKey := ⟨seed⟩
  if key.pairBytes = bytes then some key else none

end SigningKey

end DomainAuction
