import GameGateway.Server.Dispatch
import GameGateway.Service.Realm

/-!
# The connection service

Clients log in with the session key they got from the login server. A known key binds the session to its
player and evicts the session the player had before; an unknown one gets no answer and is left to the
idle timeout.
-/

namespace GameGateway.Service

/-- Cleans up behind a session that is removed. The game ends only if it is still on that session's
connection, so that a late removal leaves the game of the player's next session alone. -/
def onRemoved (notice : Server.Notice) (realm : Realm) : Realm :=
  if notice.session.playerId = 0 then realm
  else
    let ended := (realm.endGame notice.session.playerId notice.session.connectionId).1
    (ended.record (.playerRemoved notice.session.playerId)).record (.persisted notice.session.playerId)

/-- Closes the session that a player had before. -/
def evict (id : SessionId) (player : UInt64) (s : Server Realm) : Server Realm :=
  match s.findPlayer? player with
  | some other =>
    if other = id then s else (s.closeSession onRemoved other .newConnectionAttempt).1
  | none => s

/-- What an account may do. -/
def permissions (galaxyStatus : UInt8) (realm : Realm) (account : UInt32) : ClientPermissions :=
  { galaxyAvailable := galaxyStatus
    availableCharacterSlots := UInt8.ofNat (min (realm.maxCharacters account).toNat 255)
    unlimitedCharacters := 0 }

/-- Binds a session to the player of an account and answers with the permissions. -/
def bindPlayer (galaxyStatus : UInt8) (id : SessionId) (account : UInt32) (player : UInt64)
    (s : Server Realm) : Server Realm :=
  match s.session? id with
  | some session =>
    let s := { s with app := s.app.startGame player session.connectionId }
    let (connected, done) := session.connect account player
    if done then
      s.put id (connected.send .clientPermissions (permissions galaxyStatus s.app account)).1
    else s
  | none => s

/-- Handles a login. -/
def login (galaxyStatus : UInt8) (id : SessionId) (message : ClientId) (s : Server Realm) :
    Server Realm :=
  match s.app.authorize? message.sessionKey with
  | some (account, player) => bindPlayer galaxyStatus id account player (evict id player s)
  | none => s

/-- Handles the sign that the scene is loaded: says it back and tells the simulation. It is ignored
before the login. -/
def sceneReady (id : SessionId) (s : Server Realm) : Server Realm :=
  match s.session? id with
  | some session =>
    if session.playerId = 0 then s
    else
      let s := s.put id (session.send .sceneReady ()).1
      { s with app := s.app.record (.objectReady session.playerId) }
  | none => s

/-- Registers the handlers of the service. A sign of life needs none but to be known: the session has
noted it already. -/
def register (galaxyStatus : UInt8) (registry : Registry Realm) :
    Except DispatchError (Registry Realm) := do
  let registry ← registry.registerKind .clientId (login galaxyStatus)
  let registry ← registry.registerKind .sceneReady fun id _ => sceneReady id
  registry.registerKind .heartBeat fun _ _ s => s

/-- The handlers of the service. -/
def handlers (galaxyStatus : UInt8) : Registry Realm :=
  [(Message.Kind.clientId.opcode, Handler.typed .clientId (login galaxyStatus)),
    (Message.Kind.sceneReady.opcode, Handler.typed .sceneReady fun id _ => sceneReady id),
    (Message.Kind.heartBeat.opcode, Handler.typed .heartBeat fun _ _ s => s)]

theorem register_nil (galaxyStatus : UInt8) : register galaxyStatus [] = .ok (handlers galaxyStatus) :=
  rfl

/-- The service as an application. -/
def application (galaxyStatus : UInt8) : Application Realm :=
  { handlers := handlers galaxyStatus, onRemoved }

end GameGateway.Service
