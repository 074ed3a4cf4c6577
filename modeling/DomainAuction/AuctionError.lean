/-!
# AuctionError — what can go wrong with auction data

The sixteen causes that the library itself gives names to, in the order of their codes. Each has a
kind and a description; the wording lives here and nowhere else.
-/

namespace DomainAuction

/-- A cause with a name of its own. -/
inductive AuctionError where
  | missingParentNameOwner
  | unsupportedProtocolVersion
  | invalidInstructionTag
  | insufficientByteLength
  | invalidStringLength
  | invalidUtf8
  | invalidOptionTag
  | invalidAuctionStatus
  | trailingBytes
  | invalidOracleAccount
  | invalidOracleVersion
  | invalidOracleAccountType
  | invalidOracleExponent
  | accountNotFound
  | auctionNotFound
  | resellingStateNotFound
  deriving DecidableEq

/-- What a caller can do about an error: change the request, distrust the data, or wait for the
account to appear. -/
inductive ErrorKind where
  | configuration
  | deserialization
  | notFound
  deriving DecidableEq

namespace AuctionError

/-- All causes; the position of a cause is its code. -/
def all : List AuctionError :=
  [missingParentNameOwner, unsupportedProtocolVersion, invalidInstructionTag,
   insufficientByteLength, invalidStringLength, invalidUtf8, invalidOptionTag,
   invalidAuctionStatus, trailingBytes, invalidOracleAccount, invalidOracleVersion,
   invalidOracleAccountType, invalidOracleExponent, accountNotFound, auctionNotFound,
   resellingStateNotFound]

/-- The cause with a code. -/
def ofCode? (code : UInt8) : Option AuctionError :=
  all[code.toNat]?

def kind : AuctionError → ErrorKind
  | missingParentNameOwner | unsupportedProtocolVersion => .configuration
  | accountNotFound | auctionNotFound | resellingStateNotFound => .notFound
  | _ => .deserialization

def name : AuctionError → String
  | missingParentNameOwner => "MissingParentNameOwner"
  | unsupportedProtocolVersion => "UnsupportedProtocolVersion"
  | invalidInstructionTag => "InvalidInstructionTag"
  | insufficientByteLength => "InsufficientByteLength"
  | invalidStringLength => "InvalidStringLength"
  | invalidUtf8 => "InvalidUtf8"
  | invalidOptionTag => "InvalidOptionTag"
  | invalidAuctionStatus => "InvalidAuctionStatus"
  | trailingBytes => "TrailingBytes"
  | invalidOracleAccount => "InvalidOracleAccount"
  | invalidOracleVersion => "InvalidOracleVersion"
  | invalidOracleAccountType => "InvalidOracleAccountType"
  | invalidOracleExponent => "InvalidOracleExponent"
  | accountNotFound => "AccountNotFound"
  | auctionNotFound => "AuctionNotFound"
  | resellingStateNotFound => "ResellingStateNotFound"

def description : AuctionError → String
  | missingParentNameOwner => "Missing parent name owner"
  | unsupportedProtocolVersion => "Operation doesn't exist in the configured protocol version"
  | invalidInstructionTag => "Invalid instruction tag"
  | insufficientByteLength => "Not enough bytes passed"
  | invalidStringLength => "String length prefix exceeds remaining bytes"
  | invalidUtf8 => "String bytes aren't valid UTF-8"
  | invalidOptionTag => "Option presence byte must be 0 or 1"
  | invalidAuctionStatus => "Invalid name auction status"
  | trailingBytes => "Unexpected bytes after the end of the record"
  | invalidOracleAccount => "Account isn't a price oracle account"
  | invalidOracleVersion => "Unsupported price oracle version"
  | invalidOracleAccountType => "Oracle account isn't a price account"
  | invalidOracleExponent => "Oracle price exponent is out of range"
  | accountNotFound => "Account not found"
  | auctionNotFound => "No name auction found"
  | resellingStateNotFound => "Could not retrieve reselling state"

/-- The name and the description of a cause. -/
def message (e : AuctionError) : String :=
  e.name ++ ": " ++ e.description

end AuctionError

end DomainAuction
