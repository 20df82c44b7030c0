import GameGateway.Server

/-!
# Dispatch of messages

A registry gives each opcode at most one handler. A message is dispatched by its header; a datagram's
messages are dispatched in order, and a bad one does not keep the next from its handler.
-/

namespace GameGateway

/-- Why a message did not reach a handler, or a handler was not registered. -/
inductive DispatchError where
  | unidentified (opcode : UInt32)
  | handlerAlreadyDefined (opcode : UInt32)
  | malformedHeader (cause : ReadError)
  | malformedBody (opcode : UInt32) (cause : ReadError)
  | sessionClosed (endpoint : Endpoint)
  deriving DecidableEq, Repr

/-- An opcode as `0x` and eight hexadecimal digits. -/
def opcodeText (opcode : UInt32) : String :=
  let digits := Nat.toDigits 16 opcode.toNat
  "0x" ++ String.ofList (List.replicate (8 - digits.length) '0' ++ digits)

/-- The text of a dispatch error. -/
def DispatchError.message : DispatchError → String
  | unidentified opcode => "Unidentified message received: opcode=" ++ opcodeText opcode
  | handlerAlreadyDefined opcode => "Handler already defined for opcode " ++ opcodeText opcode
  | malformedHeader cause => "Malformed message header: " ++ cause.message
  | malformedBody opcode cause =>
    "Failed to deserialize opcode " ++ opcodeText opcode ++ ": " ++ cause.message
  | sessionClosed endpoint => "Session " ++ endpoint.text ++ " is closed"

/-- What is done with the body of a message that came on a session. -/
abbrev Handler (α : Type) := SessionId → Bytes → Server α → Except DispatchError (Server α)

/-- A handler that reads the body as one of a kind first; bytes behind the body are ignored. -/
def Handler.typed {α : Type} (kind : Message.Kind)
    (run : SessionId → kind.Body → Server α → Server α) : Handler α := fun id bytes s =>
  match kind.decodeBody.value bytes with
  | .ok body => .ok (run id body s)
  | .error cause => .error (.malformedBody kind.opcode cause)

/-- The handlers by opcode. -/
abbrev Registry (α : Type) := List (UInt32 × Handler α)

namespace Registry

variable {α : Type}

/-- Registers a handler; the first one of an opcode stays. -/
def register (registry : Registry α) (opcode : UInt32) (handler : Handler α) :
    Except DispatchError (Registry α) :=
  match registry.lookup opcode with
  | some _ => .error (.handlerAlreadyDefined opcode)
  | none => .ok (registry ++ [(opcode, handler)])

/-- Registers a handler for a kind of message. -/
def registerKind (registry : Registry α) (kind : Message.Kind)
    (run : SessionId → kind.Body → Server α → Server α) : Except DispatchError (Registry α) :=
  registry.register kind.opcode (Handler.typed kind run)

/-- Whether an opcode has a handler. -/
def hasHandler (registry : Registry α) (opcode : UInt32) : Bool := (registry.lookup opcode).isSome

/-- Hands a body to the handler of an opcode, unless the session is shutting down. -/
def dispatch (registry : Registry α) (id : SessionId) (opcode : UInt32) (body : Bytes)
    (s : Server α) : Except DispatchError (Server α) :=
  match registry.lookup opcode with
  | none => .error (.unidentified opcode)
  | some handler =>
    match s.session? id with
    | some session =>
      if session.isClosed then .error (.sessionClosed session.endpoint) else handler id body s
    | none => .ok s

/-- Dispatches a message by its header. -/
def dispatchMessage (registry : Registry α) (id : SessionId) (message : Bytes) (s : Server α) :
    Except DispatchError (Server α) :=
  match Message.decodeHeader.run message with
  | (.ok (_, opcode), body) => registry.dispatch id opcode body s
  | (.error cause, _) => .error (.malformedHeader cause)

/-- Dispatches messages in order, up to the first that finds the session shutting down. -/
def dispatchAll (registry : Registry α) (id : SessionId) : List Bytes → Server α → Server α
  | [], s => s
  | message :: messages, s =>
    match registry.dispatchMessage id message s with
    | .ok s => registry.dispatchAll id messages s
    | .error (.sessionClosed _) => s
    | .error _ => registry.dispatchAll id messages s

end Registry

/-- What an application adds to a server. -/
structure Application (α : Type) where
  handlers : Registry α
  /-- Told of each session that is removed, while it is still in the table. -/
  onRemoved : Server.Listener α

namespace Server

variable {α : Type}

/-- The server without a session that a datagram supersedes: its client has started anew. -/
def supersede (onRemoved : Listener α) (s : Server α) (endpoint : Endpoint) (bytes : Bytes) :
    Server α :=
  match s.table.get? endpoint with
  | some id =>
    match s.session? id with
    | some session => if session.isSupersededBy bytes then (s.remove onRemoved id).1 else s
    | none => s
  | none => s

/-- Lets a session take a datagram. A violation closes it; the messages that became deliverable are
dispatched, and a session that is then shutting down is removed. -/
def receive (app : Application α) (codec : Codec) (now : Nat) (id : SessionId) (bytes : Bytes)
    (s : Server α) : Server α :=
  match s.session? id with
  | some session =>
    let (reaction, seeds) := session.handleDrawing codec now s.seeds bytes
    let s := ({ s with seeds }.put id reaction.session).post session.endpoint reaction.sent
    match reaction.result with
    | .error _ => (s.closeSession app.onRemoved id .protocolViolation).1
    | .ok messages =>
      let s := app.handlers.dispatchAll id messages s
      if (s.session? id).any Session.isClosed then (s.remove app.onRemoved id).1 else s
  | none => s

/-- Takes a datagram from an endpoint. One from an unknown endpoint opens a session if there is room. -/
def handleDatagram (app : Application α) (codec : Codec) (now : Nat) (endpoint : Endpoint)
    (bytes : Bytes) (s : Server α) : Server α :=
  let s := s.supersede app.onRemoved endpoint bytes
  match s.openSession endpoint now with
  | .ok (id, s) => s.receive app codec now id bytes
  | .error _ => s

end Server

end GameGateway
