import GameGateway.Config.Protocol

/-!
# Server configuration

What a server is started with, and the checks that it has to pass. The checks are made in a fixed order;
the first fault counts.
-/

namespace GameGateway

/-- A login that is accepted without a login server. -/
structure DevAccount where
  sessionKey : String
  accountId : UInt32
  playerId : UInt64
  maxCharacters : UInt32 := 2
  deriving DecidableEq, Repr

/-- The configuration of a server. -/
structure ServerConfig where
  listenAddress : String
  listenPort : UInt16 := 44463
  /-- The port of the echo service. -/
  pingPort : UInt16 := 44462
  maxSessions : UInt64 := 1024
  /-- Told to clients that log in; 1 means available. -/
  galaxyStatus : UInt8 := 1
  protocol : ProtocolConfig := {}
  devAccounts : List DevAccount := []
  deriving DecidableEq, Repr

namespace ServerConfig

/-- A configuration that a server does not start with. -/
inductive Fault where
  | noListenAddress
  | noSessions
  | portsEqual
  | emptySessionKey (accountId : UInt32)
  | protocol (fault : ProtocolConfig.Fault)
  deriving DecidableEq, Repr

/-- The text of a fault. -/
def Fault.message : Fault → String
  | noListenAddress => "listen_address cannot be empty"
  | noSessions => "max_sessions cannot be 0"
  | portsEqual => "listen_port and ping_port must differ"
  | emptySessionKey accountId =>
    "dev account " ++ toString accountId.toNat ++ " has an empty session_key"
  | protocol fault => "Invalid protocol section: " ++ fault.message

/-- The first fault, if there is one. Ports may be equal if the system chooses them. -/
def fault? (config : ServerConfig) : Option Fault :=
  if config.listenAddress.isEmpty then some .noListenAddress
  else if config.maxSessions = 0 then some .noSessions
  else if config.listenPort ≠ 0 ∧ config.listenPort = config.pingPort then some .portsEqual
  else
    match config.devAccounts.find? fun account => account.sessionKey.isEmpty with
    | some account => some (.emptySessionKey account.accountId)
    | none => config.protocol.fault?.map .protocol

end ServerConfig

end GameGateway
