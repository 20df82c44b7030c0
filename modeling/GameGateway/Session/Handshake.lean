import GameGateway.Packet.Filter
import GameGateway.Packet.Basic

/-!
# The handshake

A client opens a connection with a request that names it and the largest datagram it takes. The server
answers with the filter parameters that hold from then on.
-/

namespace GameGateway

/-- A request to open a connection. -/
structure SessionRequest where
  connectionId : UInt32
  maxUdpSize : UInt32
  deriving DecidableEq, Repr

namespace SessionRequest

/-- Reads a request behind its opcode; the footer length that the client names is passed over. -/
def decodeBody : Decoder SessionRequest := do
  let _ ← Decoder.fixed UInt32 .big
  let connectionId ← Decoder.fixed UInt32 .big
  let maxUdpSize ← Decoder.fixed UInt32 .big
  return { connectionId, maxUdpSize }

/-- Whether a datagram opens with the opcode of a request. -/
def opens (datagram : Bytes) : Bool := datagram.take 2 == Opcode.bytes Opcode.sessionRequest

/-- Reads a complete request. -/
def parse? (datagram : Bytes) : Option SessionRequest :=
  if opens datagram then decodeBody.value? (datagram.drop 2) else none

/-- The answer to a request: the connection, the filter parameters, the size of the seed and the largest
datagram. -/
def response (connectionId : UInt32) (filter : FilterParams) (maxUdpSize : UInt32) : Bytes :=
  Opcode.bytes Opcode.sessionResponse ++ Fixed.encode .big connectionId ++
    Fixed.encode .big filter.crcSeed ++
    [filter.crcLength, if filter.compression then 1 else 0, 4] ++ Fixed.encode .big maxUdpSize

end SessionRequest

end GameGateway
