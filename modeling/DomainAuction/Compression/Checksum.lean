import DomainAuction.Bytes.Endian

/-!
# Checksum — the 64-bit hash that guards a frame

The hash is XXH64 with seed zero. Four lanes absorb stripes of 32 bytes and are then merged; what
is left of the input is mixed in by words of eight and four bytes and by single bytes. A last step
spreads all bits over the result.
-/

namespace DomainAuction.Compression.Checksum

def prime1 : UInt64 := 11400714785074694791
def prime2 : UInt64 := 14029467366897019727
def prime3 : UInt64 := 1609587929392839161
def prime4 : UInt64 := 9650029242287828579
def prime5 : UInt64 := 2870177450012600261

/-- The word turned left by a number of bits between 1 and 63. -/
def turnLeft (x k : UInt64) : UInt64 :=
  x <<< k ||| x >>> (64 - k)

/-- The word that a byte string spells. -/
def word (bytes : Bytes) : UInt64 :=
  .ofNat (ofLittleEndian bytes)

/-! ## Stripes -/

/-- A lane that has absorbed one more word. -/
def absorb (lane input : UInt64) : UInt64 :=
  turnLeft (lane + input * prime2) 31 * prime1

/-- The states of the four lanes. -/
structure Lanes where
  first : UInt64
  second : UInt64
  third : UInt64
  fourth : UInt64

def Lanes.initial : Lanes :=
  ⟨prime1 + prime2, prime2, 0, 0 - prime1⟩

/-- The lanes after the first `count` stripes of the input. -/
def Lanes.absorbStripes : (count : Nat) → Bytes → Lanes → Lanes
  | 0, _, lanes => lanes
  | count + 1, input, lanes =>
    absorbStripes count (input.drop 32)
      { first := absorb lanes.first (word (input.take 8))
        second := absorb lanes.second (word ((input.drop 8).take 8))
        third := absorb lanes.third (word ((input.drop 16).take 8))
        fourth := absorb lanes.fourth (word ((input.drop 24).take 8)) }

/-- A hash with one lane merged into it. -/
def merge (hash lane : UInt64) : UInt64 :=
  (hash ^^^ absorb 0 lane) * prime1 + prime4

def Lanes.merged (lanes : Lanes) : UInt64 :=
  let sum := turnLeft lanes.first 1 + turnLeft lanes.second 7 + turnLeft lanes.third 12
    + turnLeft lanes.fourth 18
  [lanes.first, lanes.second, lanes.third, lanes.fourth].foldl merge sum

/-! ## What is left -/

def mixByte (hash : UInt64) (b : UInt8) : UInt64 :=
  turnLeft (hash ^^^ b.toUInt64 * prime5) 11 * prime1

def mixHalf (hash : UInt64) (half : Bytes) : UInt64 :=
  turnLeft (hash ^^^ word half * prime1) 23 * prime2 + prime3

def mixWord (hash : UInt64) (bytes : Bytes) : UInt64 :=
  turnLeft (hash ^^^ absorb 0 (word bytes)) 27 * prime1 + prime4

/-- Mixes in fewer than eight bytes. -/
def mixShort (hash : UInt64) (rest : Bytes) : UInt64 :=
  if rest.length < 4 then rest.foldl mixByte hash
  else (rest.drop 4).foldl mixByte (mixHalf hash (rest.take 4))

/-- Mixes in `words` words and then fewer than eight bytes. -/
def mixRest : (words : Nat) → Bytes → UInt64 → UInt64
  | 0, rest, hash => mixShort hash rest
  | words + 1, rest, hash => mixRest words (rest.drop 8) (mixWord hash (rest.take 8))

/-- The last step. -/
def spread (hash : UInt64) : UInt64 :=
  let hash := (hash ^^^ hash >>> 33) * prime2
  let hash := (hash ^^^ hash >>> 29) * prime3
  hash ^^^ hash >>> 32

end DomainAuction.Compression.Checksum

namespace DomainAuction.Compression

/-- The hash of a byte string. -/
def checksum (input : Bytes) : UInt64 :=
  let stripes := input.length / 32
  let start := if stripes = 0 then Checksum.prime5
    else (Checksum.Lanes.absorbStripes stripes input .initial).merged
  let rest := input.drop (32 * stripes)
  Checksum.spread
    (Checksum.mixRest (rest.length / 8) rest (start + .ofNat input.length))

end DomainAuction.Compression
