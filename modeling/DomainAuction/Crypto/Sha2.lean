import DomainAuction.Bytes.Octets

/-!
# Sha2 — the hash functions SHA-256 and SHA-512

One family of functions over words of `w` bits: the message is padded to whole blocks of sixteen
words, each block is stretched to a schedule of one word a round, and each round mixes one word
into a state of eight. SHA-256 takes the upper halves of the constants of SHA-512 and fewer
rounds. Everything is a total function on lists, so a digest of a concrete message can be
evaluated inside a proof.
-/

namespace DomainAuction

namespace Sha2

/-! ## Constants -/

/-- The first 64 bits of the fractional parts of the cube roots of the first 80 primes. -/
def cubeRoots : List Nat :=
  [0x428a2f98d728ae22, 0x7137449123ef65cd, 0xb5c0fbcfec4d3b2f, 0xe9b5dba58189dbbc,
   0x3956c25bf348b538, 0x59f111f1b605d019, 0x923f82a4af194f9b, 0xab1c5ed5da6d8118,
   0xd807aa98a3030242, 0x12835b0145706fbe, 0x243185be4ee4b28c, 0x550c7dc3d5ffb4e2,
   0x72be5d74f27b896f, 0x80deb1fe3b1696b1, 0x9bdc06a725c71235, 0xc19bf174cf692694,
   0xe49b69c19ef14ad2, 0xefbe4786384f25e3, 0x0fc19dc68b8cd5b5, 0x240ca1cc77ac9c65,
   0x2de92c6f592b0275, 0x4a7484aa6ea6e483, 0x5cb0a9dcbd41fbd4, 0x76f988da831153b5,
   0x983e5152ee66dfab, 0xa831c66d2db43210, 0xb00327c898fb213f, 0xbf597fc7beef0ee4,
   0xc6e00bf33da88fc2, 0xd5a79147930aa725, 0x06ca6351e003826f, 0x142929670a0e6e70,
   0x27b70a8546d22ffc, 0x2e1b21385c26c926, 0x4d2c6dfc5ac42aed, 0x53380d139d95b3df,
   0x650a73548baf63de, 0x766a0abb3c77b2a8, 0x81c2c92e47edaee6, 0x92722c851482353b,
   0xa2bfe8a14cf10364, 0xa81a664bbc423001, 0xc24b8b70d0f89791, 0xc76c51a30654be30,
   0xd192e819d6ef5218, 0xd69906245565a910, 0xf40e35855771202a, 0x106aa07032bbd1b8,
   0x19a4c116b8d2d0c8, 0x1e376c085141ab53, 0x2748774cdf8eeb99, 0x34b0bcb5e19b48a8,
   0x391c0cb3c5c95a63, 0x4ed8aa4ae3418acb, 0x5b9cca4f7763e373, 0x682e6ff3d6b2b8a3,
   0x748f82ee5defb2fc, 0x78a5636f43172f60, 0x84c87814a1f0ab72, 0x8cc702081a6439ec,
   0x90befffa23631e28, 0xa4506cebde82bde9, 0xbef9a3f7b2c67915, 0xc67178f2e372532b,
   0xca273eceea26619c, 0xd186b8c721c0c207, 0xeada7dd6cde0eb1e, 0xf57d4f7fee6ed178,
   0x06f067aa72176fba, 0x0a637dc5a2c898a6, 0x113f9804bef90dae, 0x1b710b35131c471b,
   0x28db77f523047d84, 0x32caab7b40c72493, 0x3c9ebe0a15c9bebc, 0x431d67c49c100d4c,
   0x4cc5d4becb3e42b6, 0x597f299cfc657e2a, 0x5fcb6fab3ad6faec, 0x6c44198c4a475817]

/-- The first 64 bits of the fractional parts of the square roots of the first 8 primes. -/
def squareRoots : List Nat :=
  [0x6a09e667f3bcc908, 0xbb67ae8584caa73b, 0x3c6ef372fe94f82b, 0xa54ff53a5f1d36f1,
   0x510e527fade682d1, 0x9b05688c2b3e6c1f, 0x1f83d9abfb41bd6b, 0x5be0cd19137e2179]

/-- A mixing function: the sum without carries of two rotations and a third one, or of two
rotations and a shift. -/
structure Mixer where
  first : Nat
  second : Nat
  third : Nat
  shifts : Bool

/-- What tells the members of the family apart, besides the width of a word. -/
structure Variant (w : Nat) where
  constants : List (BitVec w)
  start : List (BitVec w)
  /-- Mixes the first word of the state. -/
  upperA : Mixer
  /-- Mixes the fifth word of the state. -/
  upperE : Mixer
  /-- Mixes the schedule word fifteen rounds back. -/
  lowerFar : Mixer
  /-- Mixes the schedule word two rounds back. -/
  lowerNear : Mixer

def variant256 : Variant 32 where
  constants := (cubeRoots.take 64).map fun k => BitVec.ofNat 32 (k >>> 32)
  start := squareRoots.map fun k => BitVec.ofNat 32 (k >>> 32)
  upperA := ⟨2, 13, 22, false⟩
  upperE := ⟨6, 11, 25, false⟩
  lowerFar := ⟨7, 18, 3, true⟩
  lowerNear := ⟨17, 19, 10, true⟩

def variant512 : Variant 64 where
  constants := cubeRoots.map (BitVec.ofNat 64)
  start := squareRoots.map (BitVec.ofNat 64)
  upperA := ⟨28, 34, 39, false⟩
  upperE := ⟨14, 18, 41, false⟩
  lowerFar := ⟨1, 8, 7, true⟩
  lowerNear := ⟨19, 61, 6, true⟩

/-! ## Padding and words -/

/-- The message, one set bit, zeros to the end of a block, and the length in bits. -/
def pad (w : Nat) (message : Bytes) : Bytes :=
  let block := 2 * w
  let used := message.length + 1 + w / 4
  message ++ 0x80 :: List.replicate ((block - used % block) % block) 0
    ++ bigEndian (w / 4) (8 * message.length)

/-- The first `count` big-endian words of a byte string. -/
def words (w : Nat) : Nat → Bytes → List (BitVec w)
  | 0, _ => []
  | count + 1, bytes =>
    BitVec.ofNat w (ofBigEndian (bytes.take (w / 8))) :: words w count (bytes.drop (w / 8))

/-! ## Rounds -/

/-- The eight words that a round changes. -/
structure State (w : Nat) where
  a : BitVec w
  b : BitVec w
  c : BitVec w
  d : BitVec w
  e : BitVec w
  f : BitVec w
  g : BitVec w
  h : BitVec w

def State.ofList {w : Nat} (ws : List (BitVec w)) : State w :=
  ⟨ws.getD 0 0, ws.getD 1 0, ws.getD 2 0, ws.getD 3 0,
   ws.getD 4 0, ws.getD 5 0, ws.getD 6 0, ws.getD 7 0⟩

def State.add {w : Nat} (s t : State w) : State w :=
  ⟨s.a + t.a, s.b + t.b, s.c + t.c, s.d + t.d, s.e + t.e, s.f + t.f, s.g + t.g, s.h + t.h⟩

/-- The words of a state as bytes. -/
def State.bytes {w : Nat} (s : State w) : Bytes :=
  [s.a, s.b, s.c, s.d, s.e, s.f, s.g, s.h].flatMap fun x => bigEndian (w / 8) x.toNat

theorem State.length_bytes {w : Nat} (s : State w) : s.bytes.length = 8 * (w / 8) := by
  simp [State.bytes]
  omega

def Mixer.mix {w : Nat} (m : Mixer) (x : BitVec w) : BitVec w :=
  x.rotateRight m.first ^^^ x.rotateRight m.second ^^^
    (if m.shifts then x >>> m.third else x.rotateRight m.third)

/-- Adds `more` words to a schedule whose newest word comes first. -/
def stretch {w : Nat} (v : Variant w) : (more : Nat) → List (BitVec w) → List (BitVec w)
  | 0, newestFirst => newestFirst.reverse
  | more + 1, ws =>
    stretch v more
      ((v.lowerNear.mix (ws.getD 1 0) + ws.getD 6 0
        + v.lowerFar.mix (ws.getD 14 0) + ws.getD 15 0) :: ws)

/-- One round: `k` is the word of the schedule plus the constant of the round. -/
def State.round {w : Nat} (v : Variant w) (s : State w) (k : BitVec w) : State w :=
  let choice := (s.e &&& s.f) ^^^ (~~~s.e &&& s.g)
  let majority := (s.a &&& s.b) ^^^ (s.a &&& s.c) ^^^ (s.b &&& s.c)
  let t := s.h + v.upperE.mix s.e + choice + k
  ⟨t + v.upperA.mix s.a + majority, s.a, s.b, s.c, s.d + t, s.e, s.f, s.g⟩

/-- Mixes one block of sixteen words into the state. -/
def State.absorb {w : Nat} (v : Variant w) (s : State w) (block : List (BitVec w)) : State w :=
  let schedule := stretch v (v.constants.length - 16) block.reverse
  s.add ((List.zipWith (· + ·) schedule v.constants).foldl (State.round v) s)

/-- Mixes in the next `count` blocks of a padded message. -/
def State.absorbAll {w : Nat} (v : Variant w) : (count : Nat) → State w → Bytes → State w
  | 0, s, _ => s
  | count + 1, s, bytes =>
    absorbAll v count (s.absorb v (words w 16 bytes)) (bytes.drop (2 * w))

/-- The last state of a message. -/
def run {w : Nat} (v : Variant w) (message : Bytes) : State w :=
  let padded := pad w message
  State.absorbAll v (padded.length / (2 * w)) (State.ofList v.start) padded

end Sha2

/-! ## The two functions -/

/-- The SHA-256 digest of a message. -/
def sha256 (message : Bytes) : Digest :=
  ⟨(Sha2.run Sha2.variant256 message).bytes, Sha2.State.length_bytes _⟩

/-- The SHA-512 digest of a message. -/
def sha512 (message : Bytes) : Octets 64 :=
  ⟨(Sha2.run Sha2.variant512 message).bytes, Sha2.State.length_bytes _⟩

end DomainAuction
