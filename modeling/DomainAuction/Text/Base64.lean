import DomainAuction.Bytes.Endian

/-!
# Base64 — byte strings in groups of four characters

Three bytes make four characters of six bits. A last group of one or two bytes is filled up with
`=`. Reading accepts exactly the written forms: padding must be there, and the bits that a last
group leaves unused must be zero.
-/

namespace DomainAuction.Base64

/-- The 64 digits, in the order of their values. -/
def alphabet : List Char :=
  ['A', 'B', 'C', 'D', 'E', 'F', 'G', 'H', 'I', 'J', 'K', 'L', 'M', 'N', 'O', 'P', 'Q', 'R', 'S',
   'T', 'U', 'V', 'W', 'X', 'Y', 'Z', 'a', 'b', 'c', 'd', 'e', 'f', 'g', 'h', 'i', 'j', 'k', 'l',
   'm', 'n', 'o', 'p', 'q', 'r', 's', 't', 'u', 'v', 'w', 'x', 'y', 'z', '0', '1', '2', '3', '4',
   '5', '6', '7', '8', '9', '+', '/']

/-- The character of six bits. -/
def digitChar (d : Nat) : Char :=
  alphabet.getD (d % 64) 'A'

/-- The six bits of a character of the alphabet. -/
def digitValue? (c : Char) : Option Nat :=
  alphabet.findIdx? (· == c)

/-- The characters of a byte string. -/
def encodeChars : Bytes → List Char
  | [] => []
  | [a] =>
    let n := a.toNat * 16
    [digitChar (n / 64), digitChar n, '=', '=']
  | [a, b] =>
    let n := (a.toNat * 256 + b.toNat) * 4
    [digitChar (n / 4096), digitChar (n / 64), digitChar n, '=']
  | a :: b :: c :: rest =>
    let n := (a.toNat * 256 + b.toNat) * 256 + c.toNat
    digitChar (n / 262144) :: digitChar (n / 4096) :: digitChar (n / 64) :: digitChar n
      :: encodeChars rest

/-- The written form of a byte string. -/
def encode (bytes : Bytes) : String :=
  String.ofList (encodeChars bytes)

/-- The byte string that characters spell. -/
def decodeChars? : List Char → Option Bytes
  | [] => some []
  | [a, b, '=', '='] => do
    let n := (← digitValue? a) * 64 + (← digitValue? b)
    if n % 16 = 0 then some [UInt8.ofNat (n / 16)] else none
  | [a, b, c, '='] => do
    let n := ((← digitValue? a) * 64 + (← digitValue? b)) * 64 + (← digitValue? c)
    if n % 4 = 0 then some [UInt8.ofNat (n / 1024), UInt8.ofNat (n / 4)] else none
  | a :: b :: c :: d :: rest => do
    let n := (((← digitValue? a) * 64 + (← digitValue? b)) * 64 + (← digitValue? c)) * 64
      + (← digitValue? d)
    let bytes ← decodeChars? rest
    pure (UInt8.ofNat (n / 65536) :: UInt8.ofNat (n / 256) :: UInt8.ofNat n :: bytes)
  | _ => none

/-- The byte string that a text spells. -/
def decode? (text : String) : Option Bytes :=
  decodeChars? text.toList

end DomainAuction.Base64
