import GameGateway.Packet.Record

/-!
# The packets inside a packet

A container packet holds records that are packets, possibly containers again. `Packet.leaves` lists
what a receiver acts on, in order: containers are opened, packets it does not know or that are cut
short are left out, and a damaged container keeps its records before the damage.
-/

namespace GameGateway.Packet

/-- Reads a packet with a sequence number. -/
def parseSequenced (channel : Channel) : Decoder Packet := do
  let sequence ← Decoder.fixed UInt16 .big
  let payload ← Decoder.takeAll
  return .sequenced channel sequence payload

/-- Reads a packet other than a container, behind its opcode. -/
def parseBody? (opcode : UInt16) (body : Bytes) : Option Packet :=
  if opcode = Opcode.disconnect then
    some (.disconnect (((Decoder.fixed UInt32 .big).value? body).getD 0))
  else if opcode = Opcode.ping then some .ping
  else if opcode = Opcode.data then (parseSequenced .data).value? body
  else if opcode = Opcode.fragment then (parseSequenced .fragment).value? body
  else if opcode = Opcode.acknowledge then
    ((Decoder.fixed UInt16 .big).value? body).map .acknowledge
  else if opcode = Opcode.outOfOrder then
    ((Decoder.fixed UInt16 .big).value? body).map .outOfOrder
  else none

/-- The packets that a receiver acts on, in order. -/
def leaves (bytes : Bytes) : List Packet :=
  match bytes with
  | high :: low :: body =>
    let opcode := Fixed.decode UInt16 .big [high, low]
    if opcode = Opcode.multiPacket then
      (Record.all body).1.attach.flatMap fun ⟨inner, h⟩ =>
        have : inner.length < body.length := Record.length_lt_of_mem_all h
        leaves inner
    else (parseBody? opcode body).toList
  | _ => []
termination_by bytes.length
decreasing_by simp only [List.length_cons]; omega

end GameGateway.Packet
