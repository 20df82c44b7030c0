import GameGateway.Server.Table
import GameGateway.Session

/-!
# The server

The server keeps every session it created, the table of those that are live, what is to be sent, and the
state of the application on top of it. It is a value: datagrams, the clock and the random source are
arguments.

## Implementation notes

A session that has left the table can still be named by those who hold its number, so it is kept. The
random source is the list of the seeds it will give. Datagrams collect in an outbox, which the writer
empties for as long as the server is not stopped.
-/

namespace GameGateway

/-- A datagram and where it goes. -/
structure Datagram where
  endpoint : Endpoint
  outbound : Outbound
  deriving DecidableEq, Repr

/-- What a server refuses to do. -/
inductive ServerError where
  | maxSessionsExceeded (limit : Nat)
  | alreadyRunning
  deriving DecidableEq, Repr

/-- The text of a server error. -/
def ServerError.message : ServerError → String
  | maxSessionsExceeded limit => "Maximum sessions exceeded (limit: " ++ toString limit ++ ")"
  | alreadyRunning => "Server is already running"

/-- Whether the server serves. It can do so once. -/
inductive Status where
  | idle
  | running
  | stopped
  deriving DecidableEq, Repr

/-- A server with an application state of type `α`. -/
structure Server (α : Type) where
  config : ProtocolConfig
  /-- All sessions ever created, by number. -/
  sessions : List Session := []
  table : Table
  /-- What the random source will give. -/
  seeds : List UInt32 := []
  /-- What is to be sent, oldest first. -/
  outbox : List Datagram := []
  status : Status := .idle
  /-- The state of the application. -/
  app : α

namespace Server

variable {α : Type}

/-- What an application is told when a session is removed. -/
structure Notice where
  id : SessionId
  /-- The session at the call: it shuts down, and is not closed yet. -/
  session : Session
  /-- The table at the call: the session has not been taken out yet. -/
  table : Table
  deriving DecidableEq, Repr

/-- What an application does when it is told that a session is removed. -/
abbrev Listener (α : Type) := Notice → α → α

/-- A server without sessions. -/
def create (config : ProtocolConfig) (maxSessions : Nat) (seeds : List UInt32) (app : α) : Server α :=
  { config, table := { limit := maxSessions }, seeds, app }

/-- The session of a number. -/
def session? (s : Server α) (id : SessionId) : Option Session := s.sessions[id]?

/-- The session at an endpoint. -/
def sessionAt? (s : Server α) (endpoint : Endpoint) : Option Session :=
  (s.table.get? endpoint).bind s.session?

/-- Puts a session in the place of its number. -/
def put (s : Server α) (id : SessionId) (session : Session) : Server α :=
  { s with sessions := s.sessions.set id session }

/-- Queues datagrams to an endpoint. -/
def post (s : Server α) (endpoint : Endpoint) (sent : List Outbound) : Server α :=
  { s with outbox := s.outbox ++ sent.map (Datagram.mk endpoint) }

/-- The session at an endpoint, created if there is none and the table has room. -/
def openSession (s : Server α) (endpoint : Endpoint) (now : Nat) :
    Except ServerError (SessionId × Server α) :=
  match s.table.get? endpoint with
  | some id => .ok (id, s)
  | none =>
    if s.table.isFull then .error (.maxSessionsExceeded s.table.limit)
    else
      let id := s.sessions.length
      .ok (id, { s with
        sessions := s.sessions ++ [Session.create endpoint s.config now]
        table := s.table.insert endpoint id })

/-- Whether a session is the one that a player plays on. -/
def isPlayedBy (s : Server α) (player : UInt64) (id : SessionId) : Bool :=
  match s.session? id with
  | some session => session.playerId == player && !session.isClosed
  | none => false

/-- A live session of a player; 0 is no player. -/
def findPlayer? (s : Server α) (player : UInt64) : Option SessionId :=
  if player = 0 then none else s.table.ids.find? (s.isPlayedBy player)

/-- Shuts a session down without removing it. -/
def shut (s : Server α) (id : SessionId) (reason : DisconnectReason) : Server α × Bool :=
  match s.session? id with
  | some session =>
    let (closing, sent, done) := session.close reason
    ((s.put id closing).post session.endpoint sent, done)
  | none => (s, false)

/-- Removes a session: shuts it down, tells the application, takes it out of the table and marks it
closed. Only the first removal of a session does anything; answers whether the table held it. -/
def remove (onRemoved : Listener α) (s : Server α) (id : SessionId) : Server α × Bool :=
  match s.session? id with
  | some session =>
    if session.removing then (s, false)
    else
      let (closing, sent, _) := { session with removing := true }.close .application
      let told := { s with app := onRemoved ⟨id, closing, s.table⟩ s.app }
      let (table, removed) := told.table.remove session.endpoint id
      (({ told with table }.put id closing.finish).post session.endpoint sent, removed)
  | none => (s, false)

/-- Shuts a session down for a reason and removes it. -/
def closeSession (onRemoved : Listener α) (s : Server α) (id : SessionId)
    (reason : DisconnectReason) : Server α × Bool :=
  (s.shut id reason).1.remove onRemoved id

/-- Shuts down and removes every live session. -/
def closeAll (onRemoved : Listener α) (s : Server α) : Server α :=
  s.table.ids.foldl (fun s id => (s.closeSession onRemoved id .application).1) s

/-! ## Maintenance -/

/-- Maintenance of one session; one that is given up or shutting down is removed. -/
def tickSession (onRemoved : Listener α) (now : Nat) (s : Server α) (id : SessionId) : Server α :=
  match s.session? id with
  | some session =>
    let tick := session.update now
    let s := (s.put id tick.session).post session.endpoint tick.sent
    match tick.health with
    | .alive => s
    | .timedOut => (s.closeSession onRemoved id .timeout).1
    | .resendExhausted => (s.closeSession onRemoved id .unacknowledgedTimeout).1
    | .disconnecting | .closed => (s.remove onRemoved id).1
  | none => s

/-- Maintenance of the given sessions. -/
def tickAll (onRemoved : Listener α) (now : Nat) (ids : List SessionId) (s : Server α) :
    Server α :=
  ids.foldl (tickSession onRemoved now) s

/-- One maintenance pass over the live sessions. -/
def tick (onRemoved : Listener α) (now : Nat) (s : Server α) : Server α :=
  tickAll onRemoved now s.table.ids s

/-! ## Serving -/

/-- Starts to serve. -/
def start (s : Server α) : Except ServerError (Server α) :=
  if s.status = .idle then .ok { s with status := .running } else .error .alreadyRunning

/-- What the writer sends, with the server after it. -/
def flushOutbox (s : Server α) : List Datagram × Server α :=
  (if s.status = .stopped then [] else s.outbox, { s with outbox := [] })

/-- Stops to serve: every session is closed, and what is to be sent is sent. There is nothing to stop in
a server that does not serve. -/
def shutdown? (onRemoved : Listener α) (s : Server α) : Option (List Datagram × Server α) :=
  if s.status = .running then
    let (sent, s) := (s.closeAll onRemoved).flushOutbox
    some (sent, { s with status := .stopped })
  else none

end Server

end GameGateway
