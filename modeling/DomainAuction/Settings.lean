import DomainAuction.Crypto.SigningKey
import DomainAuction.Deployment
import DomainAuction.Text.Base58
import DomainAuction.Text.Blank
import DomainAuction.Text.ByteList

/-!
# Settings — what the environment says

Three environment variables choose the node, the program and the key that pays. A variable that is
unset or is no valid text counts as missing; only the key has no default.
-/

namespace DomainAuction

/-! ## Keys as text -/

/-- Why a text is no key. -/
inductive KeyTextError where
  | notByteList
  | notBase58
  | notKeyPair
  deriving DecidableEq

def KeyTextError.message : KeyTextError → String
  | notByteList => "Invalid JSON keypair"
  | notBase58 => "Invalid base58 keypair"
  | notKeyPair => "Invalid keypair bytes"

/-- The bytes that a key file spells: a list of numbers if it starts with a bracket, else
base 58. -/
def keyFileBytes (text : List Char) : Except KeyTextError Bytes :=
  if text.head? = some '[' then
    match ByteList.decode? text with
    | some bytes => .ok bytes
    | none => .error .notByteList
  else
    match Base58.decode? (String.ofList text) with
    | some bytes => .ok bytes
    | none => .error .notBase58

/-- The key in a key file, whatever blanks surround it. -/
def SigningKey.parse (text : String) : Except KeyTextError SigningKey := do
  match SigningKey.ofPairBytes? (← keyFileBytes (trimBlank text)) with
  | some key => return key
  | none => throw .notKeyPair

/-! ## Environment variables -/

/-- Why the environment cannot be used. -/
inductive SettingsError where
  | program (e : AddressError)
  | payerMissing
  | payer (e : KeyTextError)
  deriving DecidableEq

def SettingsError.message : SettingsError → String
  | program e => "NAME_AUCTION_PROGRAM_ID is not a valid address: " ++ e.message
  | payerMissing => "Environment variable NAME_AUCTION_PAYER_SECRET_KEY must be set"
  | payer e => e.message

namespace Settings

/-- The text of a variable. -/
def textOf (value : Option Bytes) : Option String :=
  value.bind ofUtf8?

/-- Where the node is found if nothing else is said. -/
def defaultNodeUrl : String :=
  "https://api.mainnet-beta.solana.com"

/-- Where the node is found. -/
def nodeUrl (value : Option Bytes) : String :=
  (textOf value).getD defaultNodeUrl

/-- The main deployment, with another program if the environment names one. -/
def deployment (value : Option Bytes) : Except SettingsError Deployment :=
  match textOf value with
  | none => .ok .mainnet
  | some text =>
    match Octets.parseAddress (String.ofList (trimBlank text)) with
    | .ok program => .ok (Deployment.mainnet.withProgram program)
    | .error e => .error (.program e)

/-- The key that pays. -/
def payer (value : Option Bytes) : Except SettingsError SigningKey :=
  match textOf value with
  | none => .error .payerMissing
  | some text => (SigningKey.parse text).mapError .payer

/-- The key that pays, as it was when it was first asked for. -/
def payerOnce (value : Option Bytes) :
    StateM (Option (Except SettingsError SigningKey)) (Except SettingsError SigningKey) := do
  let outcome := (← get).getD (payer value)
  set (some outcome)
  return outcome

end Settings

end DomainAuction
