import DomainAuction.Crypto.SigningKey
import DomainAuction.Transaction.Compile
import DomainAuction.Transaction.Wire

/-!
# Draft — instructions together with the keys made for them

A draft holds the instructions of a transaction and the new keys that have to sign it besides its
payer. Signing succeeds exactly when the message keeps to the limits of its format and the keys at
hand are the keys that it asks for. A key too many is noticed before a list too long, and that before
a key too few.
-/

namespace DomainAuction

/-- Instructions and the new keys that must sign them. -/
structure Draft where
  signers : List SigningKey
  instructions : List Instruction

/-- What the format of a message has no room for. -/
inductive Excess where
  | keys
  | lengths
  deriving DecidableEq

def Excess.text : Excess → String
  | keys => "overflow when compiling message keys"
  | lengths => "length larger than u16"

/-- Why a draft is not signed. -/
inductive SigningError where
  | unexpectedSigner
  | missingSigner
  /-- The format has no room. This error is not returned: it stops the program. -/
  | beyond (excess : Excess)
  deriving DecidableEq

namespace SigningError

def reason : SigningError → String
  | unexpectedSigner => "keypair-pubkey mismatch"
  | missingSigner => "not enough signers"
  | beyond excess => excess.text

/-- What errors that are returned say first. -/
def summary : SigningError → String
  | beyond excess => excess.text
  | _ => "Primed transaction is missing a required signer"

def message : SigningError → String
  | beyond excess => excess.text
  | e => e.summary ++ ": " ++ e.reason

end SigningError

namespace Draft

def empty : Draft := ⟨[], []⟩

def ofInstruction (i : Instruction) : Draft := ⟨[], [i]⟩

/-- The keys and instructions of one draft, and then those of another. -/
def append (a b : Draft) : Draft :=
  ⟨a.signers ++ b.signers, a.instructions ++ b.instructions⟩

/-- The message of a draft behind some other instructions, if a header can count its keys. -/
def message (draft : Draft) (payer : Address) (beforehand : List Instruction)
    (blockhash : Digest) : Option Message :=
  Message.compile payer (beforehand ++ draft.instructions) blockhash

/-- The transaction of a draft behind some other instructions, signed by its payer and its own
keys. -/
def sign (draft : Draft) (payer : SigningKey) (beforehand : List Instruction)
    (blockhash : Digest) : Except SigningError Transaction := do
  let keys := (payer :: draft.signers).map fun k => (k.publicKey, k)
  let some m := draft.message payer.publicKey beforehand blockhash | throw (.beyond .keys)
  unless keys.all fun k => m.signerKeys.contains k.1 do throw .unexpectedSigner
  let some bytes := Wire.Writer.message m | throw (.beyond .lengths)
  let some signers := m.signerKeys.mapM fun a => keys.lookup a | throw .missingSigner
  return ⟨signers.map (·.sign bytes), m⟩

end Draft

end DomainAuction
