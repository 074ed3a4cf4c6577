import DomainAuction.Bytes.Parser
import DomainAuction.Transaction.Message

/-!
# Wire — transactions as bytes

Lists are written behind their length in one to three bytes of seven bits. Longer lists than these
have room for cannot be written, and a length that has a shorter form is refused. A message of the
later format starts with a byte whose high bit is set; in the older format this byte counts
signatures.
-/

namespace DomainAuction.Wire

/-! ## Writing -/

namespace Writer

/-- A length below `2¹⁶`, seven bits a byte, least significant first. -/
def compact (n : Nat) : Option Bytes :=
  if n < 128 then some [UInt8.ofNat n]
  else if n < 16384 then some [UInt8.ofNat (n % 128 + 128), UInt8.ofNat (n / 128)]
  else if n < 65536 then
    some [UInt8.ofNat (n % 128 + 128), UInt8.ofNat (n / 128 % 128 + 128), UInt8.ofNat (n / 16384)]
  else none

def bytes (b : Bytes) : Option Bytes :=
  return (← compact b.length) ++ b

def list {α : Type} (write : α → Option Bytes) (xs : List α) : Option Bytes :=
  return (← compact xs.length) ++ (← xs.mapM write).flatten

def octets {n : Nat} (a : Octets n) : Option Bytes :=
  some a.toList

def instruction (i : CompiledInstruction) : Option Bytes :=
  return i.programIndex :: (← bytes i.accounts) ++ (← bytes i.data)

def lookup (l : TableLookup) : Option Bytes :=
  return l.table.toList ++ (← bytes l.writable) ++ (← bytes l.readonly)

def header (h : MessageHeader) : Bytes :=
  [h.requiredSignatures, h.readonlySigned, h.readonlyUnsigned]

/-- The fields that both formats share. -/
def messageBody (m : Message) : Option Bytes :=
  return header m.header ++ (← list octets m.accountKeys) ++ m.blockhash.toList
    ++ (← list instruction m.instructions)

/-- The bytes that signers sign. -/
def message (m : Message) : Option Bytes :=
  match m.format with
  | .legacy => messageBody m
  | .versioned lookups => return 0x80 :: (← messageBody m) ++ (← list lookup lookups)

def transaction (t : Transaction) : Option Bytes :=
  return (← list octets t.signatures) ++ (← message t.message)

end Writer

/-- The bytes of a transaction that can be written, such as every one that was signed. -/
def transaction (t : Transaction) : Bytes :=
  (Writer.transaction t).getD []

/-! ## Reading -/

namespace Parser

open DomainAuction.Parser (byte octets times)

/-- A length in its shortest form. -/
def compact : Parser Nat := do
  let a ← byte
  if a < 128 then return a.toNat
  let b ← byte
  if b = 0 then failure
  if b < 128 then return a.toNat - 128 + b.toNat * 128
  let c ← byte
  if c = 0 ∨ c > 3 then failure
  return a.toNat - 128 + (b.toNat - 128) * 128 + c.toNat * 16384

def list {α : Type} (p : Parser α) : Parser (List α) := do
  times p (← compact)

def instruction : Parser CompiledInstruction :=
  return { programIndex := ← byte, accounts := ← list byte, data := ← list byte }

def lookup : Parser TableLookup :=
  return { table := ← octets 32, writable := ← list byte, readonly := ← list byte }

/-- The rest of a message whose first count has been read. -/
def messageBody (requiredSignatures : UInt8) : Parser Message :=
  return {
    format := .legacy
    header :=
      { requiredSignatures, readonlySigned := ← byte, readonlyUnsigned := ← byte }
    accountKeys := ← list (octets 32)
    blockhash := ← octets 32
    instructions := ← list instruction }

def message : Parser Message := do
  let first ← byte
  if first < 128 then messageBody first
  else if first = 128 then
    let m ← messageBody (← byte)
    return { m with format := .versioned (← list lookup) }
  else failure

def transaction : Parser Transaction :=
  return { signatures := ← list (octets 64), message := ← message }

end Parser

/-- The transaction at the front of a byte string, if it is sane. -/
def transaction? (input : Bytes) : Option Transaction :=
  match Parser.transaction input with
  | some (t, _) => if t.isSane then some t else none
  | none => none

end DomainAuction.Wire
