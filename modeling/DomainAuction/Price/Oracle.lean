import DomainAuction.AuctionError
import DomainAuction.Bytes.Endian
import DomainAuction.Price.Decimal

/-!
# Oracle — prices from the accounts of a price oracle

A price account starts with a magic number, a version and an account type, and holds the current
price, its confidence and its exponent at fixed places. The account is checked from the front, and
the first check that fails is the error.
-/

namespace DomainAuction

/-- Why a byte string is no price account. -/
inductive OracleError where
  | insufficientByteLength
  | invalidMagic
  | unsupportedVersion
  | notAPriceAccount
  | exponentOutOfRange
  deriving DecidableEq

/-- The same cause among those of the whole library. -/
def OracleError.toAuctionError : OracleError → AuctionError
  | insufficientByteLength => .insufficientByteLength
  | invalidMagic => .invalidOracleAccount
  | unsupportedVersion => .invalidOracleVersion
  | notAPriceAccount => .invalidOracleAccountType
  | exponentOutOfRange => .invalidOracleExponent

/-- What the oracle says about its own price. -/
inductive PriceStatus where
  | unknown
  | trading
  | halted
  | auction
  | ignored
  deriving DecidableEq

def PriceStatus.ofCode : Nat → PriceStatus
  | 1 => .trading
  | 2 => .halted
  | 3 => .auction
  | 4 => .ignored
  | _ => .unknown

/-- A price; the real price is `price * 10 ^ exponent`. -/
structure OraclePrice where
  exponent : Int
  price : Int64
  confidence : UInt64
  status : PriceStatus
  publishSlot : UInt64
  deriving DecidableEq

namespace OraclePrice

/-- The bytes that a price account has at least. -/
def minimumSize : Nat := 240

/-- The largest exponent that is accepted, in either direction. -/
def maxExponent : Int := 28

/-- The little-endian number of `width` bytes at an offset. -/
def numberAt (data : Bytes) (offset width : Nat) : Nat :=
  ofLittleEndian ((data.drop offset).take width)

/-- The exponent of a price account, a signed number of 32 bits. -/
def exponentOf (data : Bytes) : Int :=
  (Int32.ofInt (numberAt data 20 4)).toInt

/-- Reads the price off a price account. -/
def decode (data : Bytes) : Except OracleError OraclePrice := do
  if data.length < minimumSize then throw .insufficientByteLength
  unless numberAt data 0 4 = 0xa1b2c3d4 do throw .invalidMagic
  unless numberAt data 4 4 = 2 do throw .unsupportedVersion
  unless numberAt data 8 4 = 3 do throw .notAPriceAccount
  unless -maxExponent ≤ exponentOf data ∧ exponentOf data ≤ maxExponent do
    throw .exponentOutOfRange
  return {
    exponent := exponentOf data
    price := .ofInt (numberAt data 208 8)
    confidence := .ofNat (numberAt data 216 8)
    status := .ofCode (numberAt data 224 4)
    publishSlot := .ofNat (numberAt data 232 8) }

def isTrading (p : OraclePrice) : Bool :=
  p.status == .trading

/-- The real price, unless it does not fit. -/
def toDecimal (p : OraclePrice) : Option Decimal :=
  (Decimal.ofInt64 p.price).timesPowerOfTen p.exponent

/-- The confidence on the scale of the price, unless it does not fit. -/
def confidenceToDecimal (p : OraclePrice) : Option Decimal :=
  (Decimal.ofUInt64 p.confidence).timesPowerOfTen p.exponent

end OraclePrice

end DomainAuction
