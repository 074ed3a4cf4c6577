/-!
# Numeral — whole numbers as they are written

A numeral is a row of decimal digits, without a sign, a point or an exponent, and without leading
zeros: zero itself has one digit.
-/

namespace DomainAuction.Numeral

/-- The value of a row of digits. -/
def value (cs : List Char) : Nat :=
  cs.foldl (fun n c => n * 10 + (c.toNat - 48)) 0

/-- The number that a numeral spells. -/
def decode? (cs : List Char) : Option Nat :=
  if cs.isEmpty || !cs.all Char.isDigit || (cs.head? == some '0' && cs.length != 1) then none
  else some (value cs)

end DomainAuction.Numeral
