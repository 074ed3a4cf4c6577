import DomainAuction.Instruction.Payload
import DomainAuction.Transaction.Message

/-!
# Payloads — the instructions of one program in a message

A message can hold instructions of several programs. Those of one program are found by the key
that their index names, and keep their place among all instructions of the message.
-/

namespace DomainAuction

/-- The payload of a compiled instruction, if it is for the program and decodes. -/
def Message.payloadOf (m : Message) (program : Address) (version : ProtocolVersion)
    (i : CompiledInstruction) : Option Payload :=
  if m.accountKeys[i.programIndex.toNat]? = some program then
    (Payload.decode i.data version).toOption
  else none

/-- The payloads for a program, with the place of each among the instructions. -/
def Message.payloads (m : Message) (program : Address) (version : ProtocolVersion) :
    List (Nat × Payload) :=
  m.instructions.zipIdx.filterMap fun (i, place) =>
    (m.payloadOf program version i).map fun p => (place, p)

end DomainAuction
