import GameGateway.Config.Protocol
import GameGateway.Endpoint
import GameGateway.Message
import GameGateway.Packet.Leaf
import GameGateway.Session.Handshake
import GameGateway.Session.Receiver
import GameGateway.Session.Sender

/-!
# Sessions

A session is one peer's connection: handshake, order of sequenced packets, acknowledgement, resends and
shutdown. It is a value; every operation takes it and the time, and answers the next value together with
the datagrams to send.

## Implementation notes

A datagram to send is kept as a packet and the filter that it goes through, because the filter in force
may change between two packets and because nothing in a session depends on the filtered bytes.

Times are whole milliseconds, the unit of the bounds in the configuration, although the clock that is read is
finer. A call reads it once: what a report of a gap makes the session send again is stamped with the time of
the datagram that brought the report.

Whether a session shuts down is recorded twice. The calls of a session go by its phase; those who keep many
sessions go by the flag `closing`, which they can read while a call is under way.
-/

namespace GameGateway

/-- How far the life of a session has come. -/
inductive Phase where
  | uninitialized
  | handshaking
  | connected
  | disconnecting
  | closed
  deriving DecidableEq, Repr, Inhabited

/-- A datagram to send. -/
structure Outbound where
  filter : FilterParams
  packet : Bytes
  deriving DecidableEq, Repr

/-- The bytes of a datagram. -/
def Outbound.wire (codec : Codec) (out : Outbound) : Bytes := Filter.encode codec out.filter out.packet

/-- One peer's connection. -/
structure Session where
  endpoint : Endpoint
  config : ProtocolConfig
  phase : Phase := .uninitialized
  connectionId : UInt32 := 0
  filter : FilterParams := .passThrough
  /-- Largest datagram that either side sends. -/
  maxUdpSize : UInt32
  /-- The player whose connection this is, 0 before the login. -/
  playerId : UInt64 := 0
  accountId : UInt32 := 0
  sender : Sender := {}
  receiver : Receiver := {}
  /-- When a genuine datagram came last. -/
  lastActivity : Nat
  /-- Raised when the session starts to shut down, and never lowered. -/
  closing : Bool := false
  /-- Whether the removal of this session has begun. -/
  removing : Bool := false
  deriving DecidableEq, Repr

namespace Session

/-- A session at the time of its first datagram. -/
def create (endpoint : Endpoint) (config : ProtocolConfig) (now : Nat) : Session :=
  { endpoint, config, maxUdpSize := config.maxUdpSize, lastActivity := now }

/-- Whether the session has started to shut down, as its calls see it. -/
def isOver (s : Session) : Bool := s.phase == .disconnecting || s.phase == .closed

/-- Whether the session has started to shut down, as others see it. -/
def isClosed (s : Session) : Bool := s.closing

/-- A packet that goes through the filter in force. -/
def outbound (s : Session) (packet : Bytes) : Outbound := ⟨s.filter, packet⟩

/-! ## Opening and shutting down -/

/-- Starts to shut down: what waits or is in flight is dropped. -/
def disconnect (s : Session) : Session :=
  { s with phase := .disconnecting, closing := true, sender := s.sender.clear }

/-- Binds the session to a player after the login; refused when it is shutting down. -/
def connect (accountId : UInt32) (playerId : UInt64) (s : Session) : Session × Bool :=
  if s.isOver then (s, false) else ({ s with phase := .connected, accountId, playerId }, true)

/-- Shuts down and tells the peer why; refused when it is shutting down already. -/
def close (reason : DisconnectReason) (s : Session) : Session × List Outbound × Bool :=
  if s.isOver then (s, [], false)
  else (s.disconnect, [s.outbound (Packet.farewell s.connectionId reason)], true)

/-- The last state of a session, once it is in no table. -/
def finish (s : Session) : Session :=
  { s.disconnect with
    phase := .closed
    receiver := { s.receiver with held := [], assembly := none } }

/-! ## Sending -/

/-- Queues a message for the next flush; refused when the session is shutting down. -/
def queue (message : Bytes) (s : Session) : Session × Bool :=
  if s.isOver then (s, false) else ({ s with sender := s.sender.queue message }, true)

/-- Queues a typed message. -/
def send (kind : Message.Kind) (body : kind.Body) (s : Session) : Session × Bool :=
  s.queue (Message.encode kind body)

/-- Bytes of payload that a sequenced packet can carry. -/
def budget (s : Session) : Nat := s.maxUdpSize.toNat - (Packet.headerLength + s.filter.overhead)

/-- The outcome of a maintenance pass. -/
inductive Health where
  | alive
  | timedOut
  | resendExhausted
  | disconnecting
  | closed
  deriving DecidableEq, Repr

/-- What a maintenance pass does. -/
structure Tick where
  session : Session
  sent : List Outbound := []
  health : Health := .alive

/-- Whether the peer has been silent for too long. -/
def isTimedOut (now : Nat) (s : Session) : Bool := s.config.timeoutMs < now - s.lastActivity

/-- Looks the packets in flight through for those that are due. -/
def lookThrough (now : Nat) (s : Session) : Sender.Resend :=
  Sender.resend s.config.resendDelayMs.toNat now s.config.maxResends s.sender.unacked

/-- The sender behind a look through the packets in flight. -/
def looked (now : Nat) (s : Session) : Sender :=
  { s.sender with unacked := (s.lookThrough now).packets }

/-- Flushes the queue behind a look through the packets in flight. Answers the packets that it framed. -/
def flushed (now : Nat) (s : Session) : Sender × List Bytes :=
  (s.looked now).flush s.budget s.config.windowSize.toNat now

/-- Maintenance: gives up on a silent peer, sends again what is due, then flushes the queue. -/
def update (now : Nat) (s : Session) : Tick :=
  if s.phase = .closed then { session := s, health := .closed }
  else if s.phase = .disconnecting then { session := s, health := .disconnecting }
  else if s.isTimedOut now then { session := s, health := .timedOut }
  else
    let again := s.lookThrough now
    if again.exhausted then
      { session := { s with sender := s.looked now }, health := .resendExhausted }
    else
      let flushed := s.flushed now
      { session := { s with sender := flushed.1 }
        sent := (again.due ++ flushed.2).map s.outbound }

/-! ## Receiving -/

/-- What a datagram, or a packet in it, does. -/
structure Reaction where
  session : Session
  sent : List Outbound := []
  /-- The messages that became deliverable. -/
  result : Except Violation (List Bytes) := .ok []
  /-- Whether the expected sequence number moved on. -/
  advanced : Bool := false

/-- Whether a request is answered with fresh filter parameters. A repeated request for the same
connection keeps them, so that the client can still check earlier packets. -/
def negotiates (request : SessionRequest) (s : Session) : Bool :=
  s.connectionId != request.connectionId || s.filter == .passThrough

/-- Whether a datagram makes the session draw a seed. -/
def drawsSeed (datagram : Bytes) (s : Session) : Bool :=
  !s.isOver &&
    match SessionRequest.parse? datagram with
    | some request => s.negotiates request
    | none => false

/-- The session after fresh filter parameters were agreed on. -/
def negotiate (seed : UInt32) (request : SessionRequest) (s : Session) : Session :=
  { s with
    connectionId := request.connectionId
    filter :=
      { crcSeed := seed
        crcLength := s.config.crcLength
        compression := s.config.compression
        compressionThreshold := s.config.compressionThreshold }
    maxUdpSize := max (min request.maxUdpSize s.config.maxUdpSize) minUdpSize }

/-- Answers a request to open the connection. The answer passes unfiltered. -/
def greet (now : Nat) (seed : UInt32) (request : SessionRequest) (s : Session) : Reaction :=
  let opened := if s.negotiates request then s.negotiate seed request else s
  { session := { opened with lastActivity := now }
    sent := [⟨.passThrough,
      SessionRequest.response request.connectionId opened.filter opened.maxUdpSize⟩] }

/-- Acts on one packet. -/
def react (now : Nat) (s : Session) : Packet → Reaction
  | .disconnect connectionId =>
    { session := if connectionId = s.connectionId then s.disconnect else s }
  | .ping => { session := s, sent := [s.outbound Packet.pong] }
  | .sequenced channel sequence payload =>
    let arrival := s.receiver.arrive s.config.windowSize sequence ⟨channel, payload⟩
    { session := { s with receiver := arrival.receiver }
      sent := arrival.notice.toList.map fun (opcode, sequence) =>
        s.outbound (Packet.notice opcode sequence)
      result := arrival.result
      advanced := arrival.advanced }
  | .acknowledge sequence => { session := { s with sender := s.sender.acknowledge sequence } }
  | .outOfOrder sequence =>
    let again := s.sender.outOfOrder sequence now
    { session := { s with sender := again.1 }, sent := again.2.map s.outbound }

/-- Acts on packets in order, up to the first violation. -/
def reactAll (now : Nat) (s : Session) : List Packet → Reaction
  | [] => { session := s }
  | packet :: packets =>
    let first := s.react now packet
    match first.result with
    | .error _ => first
    | .ok messages =>
      let rest := first.session.reactAll now packets
      { session := rest.session
        sent := first.sent ++ rest.sent
        result := rest.result.map (messages ++ ·)
        advanced := first.advanced || rest.advanced }

/-- The acknowledgement of everything before the expected number. -/
def acknowledgement (s : Session) : Outbound :=
  s.outbound (Packet.notice Opcode.acknowledge (s.receiver.next - 1))

/-- Acts on a packet from the peer: all packets in it, then one acknowledgement if the expected number
moved on. -/
def receive (now : Nat) (packet : Bytes) (s : Session) : Reaction :=
  let all := { s with lastActivity := now }.reactAll now (Packet.leaves packet)
  match all.result with
  | .error _ => all
  | .ok _ =>
    if all.advanced then { all with sent := all.sent ++ [all.session.acknowledgement] } else all

/-- A session that has got a datagram is past its first phase. -/
def awake (s : Session) : Session :=
  if s.phase = .uninitialized then { s with phase := .handshaking } else s

/-- Takes a datagram. A request is read as it is, all else goes through the filter; what the filter
refuses is dropped. `seed` is what the random source gives if the datagram draws a seed. -/
def handle (codec : Codec) (now : Nat) (seed : UInt32) (datagram : Bytes) (s : Session) : Reaction :=
  if s.isOver ∨ datagram.length < 2 then { session := s }
  else
    let s := s.awake
    if SessionRequest.opens datagram then
      match SessionRequest.parse? datagram with
      | some request => s.greet now seed request
      | none => { session := s }
    else
      match Filter.decode codec s.filter datagram with
      | .ok packet => s.receive now packet
      | .error _ => { session := s }

/-- Takes a datagram; a seed comes from the front of those the random source will give, and is 0 when
there are none. Answers the seeds that are left. -/
def handleDrawing (codec : Codec) (now : Nat) (seeds : List UInt32) (datagram : Bytes) (s : Session) :
    Reaction × List UInt32 :=
  (s.handle codec now (seeds.headD 0) datagram,
    if s.drawsSeed datagram then seeds.tail else seeds)

/-- Whether a datagram opens another connection than the one this session has agreed on. -/
def isSupersededBy (datagram : Bytes) (s : Session) : Bool :=
  match SessionRequest.parse? datagram with
  | some request => s.filter != .passThrough && s.connectionId != request.connectionId
  | none => false

/-! ## Display -/

/-- The name of a phase. -/
def phaseName : Phase → String
  | .uninitialized => "Uninitialized"
  | .handshaking => "Handshaking"
  | .connected => "Connected"
  | .disconnecting => "Disconnecting"
  | .closed => "Closed"

/-- A session in one line. -/
def describe (s : Session) : String :=
  "Session \x7b endpoint: " ++ s.endpoint.text ++ ", state: " ++ phaseName s.phase ++
    ", player_id: " ++ toString s.playerId.toNat ++ " \x7d"

end Session

end GameGateway
