/-!
# Radix — numbers in positional notation

Digits are kept least significant first. `digits` takes a bound on their count, so that it
recurses on the bound.
-/

namespace DomainAuction

/-- The digits of a number in a base, least significant first and without leading zeros; at most
`count` of them. -/
def digits (base : Nat) : (count n : Nat) → List Nat
  | 0, _ => []
  | count + 1, n => if n = 0 then [] else n % base :: digits base count (n / base)

/-- The number with the given digits, least significant first. -/
def ofDigits (base : Nat) : List Nat → Nat
  | [] => 0
  | d :: ds => d + base * ofDigits base ds

end DomainAuction
