import GameGateway.Decoder

/-!
# Packets

A packet opens with a big-endian opcode. Sequenced packets carry a payload on one of two channels, whole
payloads or fragments of an oversized message, and are acknowledged by sequence number.

## Implementation notes

Only what a receiver acts on is parsed. `Packet` therefore has no constructor for a container of other
packets: `Packet.leaves` in `GameGateway.Packet.Leaf` reads through containers of any depth.
-/

namespace GameGateway

namespace Opcode

def sessionRequest : UInt16 := 0x0001
def sessionResponse : UInt16 := 0x0002
def multiPacket : UInt16 := 0x0003
def disconnect : UInt16 := 0x0005
def ping : UInt16 := 0x0006
def data : UInt16 := 0x0009
def fragment : UInt16 := 0x000D
def outOfOrder : UInt16 := 0x0011
def acknowledge : UInt16 := 0x0015

/-- Opens a payload that bundles several messages. -/
def multiMessage : UInt16 := 0x0019

/-- The wire form of an opcode. -/
def bytes (opcode : UInt16) : Bytes := Fixed.encode .big opcode

end Opcode

/-- The channel of a sequenced packet. -/
inductive Channel where
  /-- The payload is one message or a bundle of messages. -/
  | data
  /-- The payload is a piece of an oversized message. -/
  | fragment
  deriving DecidableEq, Repr

/-- The opcode of a channel's packets. -/
def Channel.opcode : Channel → UInt16
  | data => Opcode.data
  | fragment => Opcode.fragment

/-- Why a session is shut down, as told to the peer. -/
inductive DisconnectReason where
  | none
  | timeout
  | otherSideTerminated
  | application
  | unacknowledgedTimeout
  | newConnectionAttempt
  | protocolViolation
  deriving DecidableEq, Repr

/-- The number of a reason on the wire. -/
def DisconnectReason.code : DisconnectReason → UInt16
  | none => 0
  | timeout => 2
  | otherSideTerminated => 3
  | application => 6
  | unacknowledgedTimeout => 8
  | newConnectionAttempt => 9
  | protocolViolation => 11

/-- A packet that a session acts on. -/
inductive Packet where
  | disconnect (connectionId : UInt32)
  | ping
  | sequenced (channel : Channel) (sequence : UInt16) (payload : Bytes)
  | acknowledge (sequence : UInt16)
  | outOfOrder (sequence : UInt16)
  deriving DecidableEq, Repr

namespace Packet

/-- Bytes before the payload of a sequenced packet. -/
def headerLength : Nat := 4

/-- The header of a sequenced packet. -/
def header (channel : Channel) (sequence : UInt16) : Bytes :=
  Opcode.bytes channel.opcode ++ Fixed.encode .big sequence

/-- A packet that names a sequence number and nothing else. -/
def notice (opcode sequence : UInt16) : Bytes := Opcode.bytes opcode ++ Fixed.encode .big sequence

/-- The packet that shuts a connection down. -/
def farewell (connectionId : UInt32) (reason : DisconnectReason) : Bytes :=
  Opcode.bytes Opcode.disconnect ++ Fixed.encode .big connectionId ++ Fixed.encode .big reason.code

/-- The answer to a ping, itself a ping. -/
def pong : Bytes := Opcode.bytes Opcode.ping

@[simp] theorem length_header (channel : Channel) (sequence : UInt16) :
    (header channel sequence).length = headerLength := by
  simp [header, Opcode.bytes, headerLength, Fixed.width]

end Packet

end GameGateway
