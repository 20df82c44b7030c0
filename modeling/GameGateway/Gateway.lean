import GameGateway.Config
import GameGateway.Deflate.Zlib
import GameGateway.Service
import GameGateway.Service.Ping

/-!
# The gateway

The connection service and the echo service together, as a program runs them: the clock and the random
source come with every arrival, and the datagrams to send come back.
-/

namespace GameGateway

/-- What arrives at a gateway. -/
inductive Arrival where
  /-- A datagram at the connection service. -/
  | datagram (sender : Endpoint) (bytes : Bytes)
  /-- A datagram at the echo service. -/
  | ping (sender : Endpoint) (bytes : Bytes)
  deriving DecidableEq, Repr

/-- A gateway at work. -/
structure Gateway where
  galaxyStatus : UInt8
  server : Server Realm

namespace Gateway

/-- The gateway of a configuration, before anything arrived. -/
def ofConfig (config : ServerConfig) : Gateway :=
  let server := Server.create config.protocol config.maxSessions.toNat [] { accounts := config.devAccounts }
  { galaxyStatus := config.galaxyStatus, server := { server with status := .running } }

/-- A datagram as it is sent. -/
def wire (datagram : Datagram) : Endpoint × Bytes :=
  (datagram.endpoint, datagram.outbound.wire Deflate.zlib)

/-- One maintenance pass. -/
def tick (now : Nat) (gateway : Gateway) : List (Endpoint × Bytes) × Gateway :=
  let (sent, server) := (gateway.server.tick Service.onRemoved now).flushOutbox
  (sent.map wire, { gateway with server })

/-- What is sent when something arrives; the seed serves a session that is opened. -/
def receive (now : Nat) (seed : UInt32) (gateway : Gateway) :
    Arrival → List (Endpoint × Bytes) × Gateway
  | .ping sender bytes => ([(sender, Ping.echo bytes)], gateway)
  | .datagram sender bytes =>
    let app := Service.application gateway.galaxyStatus
    let server := { gateway.server with seeds := [seed] }
    let (sent, server) := (server.handleDatagram app Deflate.zlib now sender bytes).flushOutbox
    (sent.map wire, { gateway with server })

/-- What is sent when the gateway stops. -/
def stop (gateway : Gateway) : List (Endpoint × Bytes) :=
  match gateway.server.shutdown? Service.onRemoved with
  | some (sent, _) => sent.map wire
  | none => []

end Gateway

end GameGateway
