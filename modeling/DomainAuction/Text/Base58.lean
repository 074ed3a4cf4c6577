import DomainAuction.Bytes.Octets
import DomainAuction.Text.Radix

/-!
# Base58 — byte strings in 58 letters and digits

A byte string is written as one big-endian number in base 58, and each leading zero byte as one
leading `1`. Reading refuses any other character. An address is the written form of exactly
32 bytes, so at most 44 characters, and a signature that of 64 bytes, so at most 88.
-/

namespace DomainAuction

namespace Base58

/-- The 58 digits, in the order of their values: no zero, capital O, capital I or small L. -/
def alphabet : List Char :=
  ['1', '2', '3', '4', '5', '6', '7', '8', '9', 'A', 'B', 'C', 'D', 'E', 'F', 'G', 'H', 'J', 'K',
   'L', 'M', 'N', 'P', 'Q', 'R', 'S', 'T', 'U', 'V', 'W', 'X', 'Y', 'Z', 'a', 'b', 'c', 'd', 'e',
   'f', 'g', 'h', 'i', 'j', 'k', 'm', 'n', 'o', 'p', 'q', 'r', 's', 't', 'u', 'v', 'w', 'x', 'y',
   'z']

/-- The character of a digit. -/
def digitChar (d : Nat) : Char :=
  alphabet.getD d '1'

/-- The value of a character of the alphabet. -/
def digitValue? (c : Char) : Option Nat :=
  alphabet.findIdx? (· == c)

/-- The written form of a byte string. Each byte needs fewer than two digits. -/
def encode (bytes : Bytes) : String :=
  let zeros := bytes.takeWhile (· == 0)
  let number := digits 58 (2 * bytes.length) (ofBigEndian bytes)
  String.ofList (zeros.map (fun _ => '1') ++ number.reverse.map digitChar)

/-- The byte string that a text spells. Each digit needs at most one byte. -/
def decode? (text : String) : Option Bytes := do
  let values ← text.toList.mapM digitValue?
  let zeros := values.takeWhile (· == 0)
  let number := digits 256 values.length (ofDigits 58 values.reverse)
  pure (zeros.map (fun _ => 0) ++ number.reverse.map UInt8.ofNat)

end Base58

/-- Why a text is no address. -/
inductive AddressError where
  | wrongSize
  | notBase58
  deriving DecidableEq

def AddressError.message : AddressError → String
  | wrongSize => "String is the wrong size"
  | notBase58 => "Invalid Base58 string"

/-- The written form of an address, or of any other byte string of fixed length. -/
def Octets.toBase58 {n : Nat} (a : Octets n) : String :=
  Base58.encode a.toList

/-- The address that a text spells. A text too long for any address is refused before its
characters are looked at. -/
def Octets.parseAddress (text : String) : Except AddressError Address :=
  if text.utf8ByteSize > 44 then .error .wrongSize
  else match Base58.decode? text with
    | none => .error .notBase58
    | some bytes =>
      match Octets.ofList? 32 bytes with
      | none => .error .wrongSize
      | some a => .ok a

/-- The address that a text is known to spell. -/
def Octets.ofBase58 (text : String) (valid : (parseAddress text).toOption.isSome = true) :
    Address :=
  (parseAddress text).toOption.get valid

/-- Why a text is no signature. -/
inductive SignatureError where
  | wrongSize
  | notBase58
  deriving DecidableEq

def SignatureError.message : SignatureError → String
  | wrongSize => "string decoded to wrong size for signature"
  | notBase58 => "failed to decode string to signature"

/-- The signature that a text spells. A text too long for any signature is refused before its
characters are looked at. -/
def Octets.parseSignature (text : String) : Except SignatureError Signature :=
  if text.utf8ByteSize > 88 then .error .wrongSize
  else match Base58.decode? text with
    | none => .error .notBase58
    | some bytes =>
      match Octets.ofList? 64 bytes with
      | none => .error .wrongSize
      | some a => .ok a

/-- The signature that a text spells, if there is one. -/
def Octets.parseSignature? (text : String) : Option Signature :=
  (parseSignature text).toOption

end DomainAuction
