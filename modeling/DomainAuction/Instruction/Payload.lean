import DomainAuction.Instruction.Version
import DomainAuction.Packing.Layout

/-!
# Payload — the data of an instruction

A payload is a tag byte followed by the fields of the instruction. Decoding takes the layouts of
one protocol and must use up the whole byte string. Three tags have a layout of their own in the
older protocol; the others belong to one protocol only, but for `init`, which both share.
-/

namespace DomainAuction

/-- The data of an instruction. Prices are in units of the quote currency, `space` in bytes. -/
inductive Payload where
  | init (stateNonce : UInt8)
  | createAuction (name : String)
  | legacyCreateAuction (hashedName : Digest)
  | claim (hashedName : Digest) (space : UInt32)
  | legacyClaim (hashedName : Digest) (lamports : UInt64) (space : UInt32)
  | resell (name : String) (minimumPrice endAuctionAt : UInt64) (maxPrice : Option UInt64)
  | legacyResell (name : String) (minimumPrice : UInt64)
  | createReverse (name : String)
  | endAuction (name : String)
  | register (name : String) (space : UInt32)
  | takeBack
  deriving DecidableEq

namespace Payload

def tag : Payload → Tag
  | init .. => .init
  | createAuction .. | legacyCreateAuction .. => .createAuction
  | claim .. | legacyClaim .. => .claim
  | resell .. | legacyResell .. => .resell
  | createReverse .. => .createReverse
  | endAuction .. => .endAuction
  | register .. => .register
  | takeBack => .takeBack

/-- Whether a protocol has the layout of a payload. -/
def supportedIn : Payload → ProtocolVersion → Bool
  | init .., _ => true
  | legacyCreateAuction .., v | legacyClaim .., v | legacyResell .., v => v == .legacy
  | _, v => v == .current

/-! ## Layouts of the fields -/

open Layout (u8 u32 u64 text optionalU64 octets measured)

def claimLayout : Layout (Digest × UInt32) :=
  (octets 32).both u32

/-- The older program reads the hash as a byte string behind its length. -/
def legacyClaimLayout : Layout (Digest × UInt64 × UInt32) :=
  (measured 32).both (u64.both u32)

def resellLayout : Layout (String × UInt64 × UInt64 × Option UInt64) :=
  text.both (u64.both (u64.both optionalU64))

def legacyResellLayout : Layout (String × UInt64) :=
  text.both u64

def registerLayout : Layout (String × UInt32) :=
  text.both u32

/-! ## Encoding and decoding -/

/-- The fields of a payload, without its tag. -/
def body : Payload → Bytes
  | init nonce => u8.write nonce
  | createAuction name => text.write name
  | legacyCreateAuction hash => (octets 32).write hash
  | claim hash space => claimLayout.write (hash, space)
  | legacyClaim hash lamports space => legacyClaimLayout.write (hash, lamports, space)
  | resell name minimum endAt maximum => resellLayout.write (name, minimum, endAt, maximum)
  | legacyResell name minimum => legacyResellLayout.write (name, minimum)
  | createReverse name => text.write name
  | endAuction name => text.write name
  | register name space => registerLayout.write (name, space)
  | takeBack => []

/-- The bytes of a payload. -/
def encode (p : Payload) : Bytes :=
  p.tag.code :: p.body

/-- Reads the fields behind a tag in the layout of one protocol. -/
def readBody : Tag → ProtocolVersion → Reader Payload
  | .init, _ => init <$> u8.read
  | .createAuction, .legacy => legacyCreateAuction <$> (octets 32).read
  | .createAuction, .current => createAuction <$> text.read
  | .claim, .legacy =>
    (fun (hash, lamports, space) => legacyClaim hash lamports space) <$> legacyClaimLayout.read
  | .claim, .current => (fun (hash, space) => claim hash space) <$> claimLayout.read
  | .resell, .legacy => (fun (name, minimum) => legacyResell name minimum) <$> legacyResellLayout.read
  | .resell, .current =>
    (fun (name, minimum, endAt, maximum) => resell name minimum endAt maximum) <$> resellLayout.read
  | .createReverse, _ => createReverse <$> text.read
  | .endAuction, _ => endAuction <$> text.read
  | .register, _ => (fun (name, space) => register name space) <$> registerLayout.read
  | .takeBack, _ => pure takeBack

/-- The payload that a whole byte string spells in one protocol. A tag that the protocol does not
know is refused before the fields are read. -/
def decode (input : Bytes) (version : ProtocolVersion) : Except AuctionError Payload :=
  match input with
  | [] => .error .insufficientByteLength
  | code :: fields =>
    match Tag.ofCode? code with
    | none => .error .invalidInstructionTag
    | some t =>
      if t.existsIn version then
        Reader.value (do let p ← readBody t version; Reader.finish; return p) fields
      else .error .invalidInstructionTag

end Payload

end DomainAuction
