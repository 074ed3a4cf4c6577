import DomainAuction.Bytes.Octets

/-!
# Edwards25519 — the curve that addresses and keys live on

The curve `-x² + y² = 1 + d·x²·y²` over the integers modulo `2²⁵⁵ - 19`. A compressed point is the
number `y` in 255 bits, with the lowest bit of `x` above it. Numbers are plain naturals kept below
the prime, and powers are taken by squaring with a bound on the length of the exponent, so that
everything is total and can be evaluated inside a proof.
-/

namespace DomainAuction.Edwards25519

/-! ## The field -/

/-- The weight of the bit above a coordinate, `2²⁵⁵`. -/
def signWeight : Nat :=
  57896044618658097711785492504343953926634992332820282019728792003956564819968

/-- The size of the field. -/
def prime : Nat := signWeight - 19

/-- The difference of two field elements. -/
def sub (a b : Nat) : Nat :=
  (a + (prime - b % prime)) % prime

/-- The power of a field element; `bits` is at least the length of the exponent. -/
def power (a : Nat) : (bits exponent : Nat) → Nat
  | 0, _ => 1
  | bits + 1, exponent =>
    let root := power a bits (exponent / 2)
    let square := root * root % prime
    if exponent % 2 = 1 then square * a % prime else square

/-- The inverse of a field element other than zero. -/
def inverse (a : Nat) : Nat :=
  power a 255 (prime - 2)

/-- Whether a field element is zero or the square of another, by Euler's criterion. -/
def isSquare (a : Nat) : Bool :=
  power a 255 ((prime - 1) / 2) ≤ 1

/-! ## Points -/

/-- The coefficient `d` of the curve, `-121665 / 121666`. -/
def coefficient : Nat :=
  37095705934669439343138083508754565189542113879843219016388785533085940283555

/-- Whether 32 bytes are a compressed point. The sign bit is ignored, and `y` may be written as
any number below `2²⁵⁵`. -/
def isPoint (bytes : Octets 32) : Bool :=
  let y := ofLittleEndian bytes.toList % signWeight % prime
  let square := y * y % prime
  isSquare (sub square 1 * ((coefficient * square + 1) % prime) % prime)

/-- A point of the curve in extended coordinates: `x = X/Z`, `y = Y/Z` and `x·y = T/Z`. -/
structure Point where
  x : Nat
  y : Nat
  z : Nat
  t : Nat

/-- The neutral point. -/
def Point.neutral : Point := ⟨0, 1, 1, 0⟩

/-- The base point, with `y = 4/5` and `x` even. -/
def Point.base : Point :=
  let x := 15112221349535400772501151409588531511454012693041857206046113283949847762202
  let y := 46316835694926478169428394003475163141307993866256225615783033603165251855960
  ⟨x, y, 1, x * y % prime⟩

/-- The sum of two points, with one formula for all pairs. -/
def Point.add (p q : Point) : Point :=
  let a := sub p.y p.x * sub q.y q.x % prime
  let b := (p.y + p.x) * (q.y + q.x) % prime
  let c := 2 * coefficient * p.t % prime * q.t % prime
  let d := 2 * p.z * q.z % prime
  let e := sub b a
  let f := sub d c
  let g := d + c
  let h := b + a
  ⟨e * f % prime, g * h % prime, f * g % prime, e * h % prime⟩

/-- The sum of `k` copies of a point; `bits` is at least the length of `k`. -/
def Point.times (p : Point) : (bits k : Nat) → Point
  | 0, _ => neutral
  | bits + 1, k =>
    let half := p.times bits (k / 2)
    let twice := half.add half
    if k % 2 = 1 then twice.add p else twice

/-- The compressed form of a point. -/
def Point.compress (p : Point) : Octets 32 :=
  let scale := inverse p.z
  let x := p.x * scale % prime
  let y := p.y * scale % prime
  ⟨littleEndian 32 (y + x % 2 * signWeight), length_littleEndian _ _⟩

end DomainAuction.Edwards25519
