import DomainAuction.Bytes.Endian
import DomainAuction.Text.Numeral
import DomainAuction.Text.Pieces

/-!
# ByteList — byte strings as lists of numbers

Bytes may be written as decimal numbers between square brackets, with commas between them and
blanks around them. A number has no sign, no point, no exponent and no leading zeros.
-/

namespace DomainAuction.ByteList

/-- The four blanks that may surround numbers. -/
def isBlank (c : Char) : Bool :=
  c == ' ' || c == '\t' || c == '\n' || c == '\r'

/-- A piece without the blanks around it. -/
def trim (piece : List Char) : List Char :=
  ((piece.dropWhile isBlank).reverse.dropWhile isBlank).reverse

/-- The byte that a numeral spells. -/
def byte? (cs : List Char) : Option UInt8 :=
  match Numeral.decode? cs with
  | some n => if n < 256 then some (UInt8.ofNat n) else none
  | none => none

/-- The bytes between the brackets. -/
def items? (cs : List Char) : Option Bytes :=
  if cs.all isBlank then some [] else (pieces ',' cs).mapM fun piece => byte? (trim piece)

/-- The byte string that a text spells. -/
def decode? (cs : List Char) : Option Bytes :=
  match cs with
  | '[' :: rest => if rest.getLast? = some ']' then items? rest.dropLast else none
  | _ => none

end DomainAuction.ByteList
