import GameGateway.Bytes

/-!
# The echo service

Latency displays send a datagram and get it back, as far as the receive buffer holds it.
-/

namespace GameGateway.Ping

/-- The size of the receive buffer. -/
def bufferSize : Nat := 512

/-- The answer to a datagram. -/
def echo (datagram : Bytes) : Bytes := datagram.take bufferSize

end GameGateway.Ping
