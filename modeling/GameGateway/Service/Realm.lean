import GameGateway.Config

/-!
# The realm

What the connection service knows and tells: the accounts that may log in, which player is in game on
which connection, and the latest events of the simulation.
-/

namespace GameGateway

/-- Something the simulation was told. -/
inductive SimulationEvent where
  | objectReady (id : UInt64)
  | playerRemoved (id : UInt64)
  | persisted (id : UInt64)
  deriving DecidableEq, Repr

/-- The object or player that an event is about. -/
def SimulationEvent.id : SimulationEvent → UInt64
  | objectReady id | playerRemoved id | persisted id => id

/-- Accounts, game sessions and events. -/
structure Realm where
  accounts : List DevAccount
  /-- The connection of each player in game. -/
  games : List (UInt64 × UInt32) := []
  /-- The latest events, oldest first. -/
  events : List SimulationEvent := []
  deriving DecidableEq, Repr

namespace Realm

/-- How many events are kept. -/
def maxEvents : Nat := 256

/-- The account of a session key. Of several accounts with one key the last counts. -/
def accountId? (r : Realm) (sessionKey : String) : Option UInt32 :=
  (r.accounts.reverse.find? fun account => account.sessionKey == sessionKey).map (·.accountId)

/-- The account of a number. Of several accounts with one number the last counts. -/
def account? (r : Realm) (accountId : UInt32) : Option DevAccount :=
  r.accounts.reverse.find? fun account => account.accountId == accountId

/-- The player of an account; 0 is no player. -/
def playerId? (r : Realm) (accountId : UInt32) : Option UInt64 :=
  ((r.account? accountId).map (·.playerId)).filter fun player => player != 0

/-- How many characters an account may have; an unknown one may have none. -/
def maxCharacters (r : Realm) (accountId : UInt32) : UInt32 :=
  ((r.account? accountId).map (·.maxCharacters)).getD 0

/-- Account and player that a session key stands for. -/
def authorize? (r : Realm) (sessionKey : String) : Option (UInt32 × UInt64) := do
  let account ← r.accountId? sessionKey
  let player ← r.playerId? account
  return (account, player)

/-- The connection on which a player is in game. -/
def game? (r : Realm) (player : UInt64) : Option UInt32 := r.games.lookup player

/-- The game sessions without the one of a player. -/
def withoutGame (player : UInt64) (games : List (UInt64 × UInt32)) : List (UInt64 × UInt32) :=
  games.filter fun game => game.1 != player

/-- Puts a player in game on a connection, in the place of an earlier one. -/
def startGame (r : Realm) (player : UInt64) (connectionId : UInt32) : Realm :=
  { r with games := (player, connectionId) :: withoutGame player r.games }

/-- Ends the game of a player if it is still on the given connection. -/
def endGame (r : Realm) (player : UInt64) (connectionId : UInt32) : Realm × Bool :=
  if r.game? player = some connectionId then
    ({ r with games := withoutGame player r.games }, true)
  else (r, false)

/-- Keeps an event; the oldest goes when there are too many. -/
def record (r : Realm) (event : SimulationEvent) : Realm :=
  let events := r.events ++ [event]
  { r with events := events.drop (events.length - maxEvents) }

/-- The events ordered by what they are about, and by time within that. -/
def eventsById (r : Realm) : List SimulationEvent :=
  r.events.mergeSort fun a b => a.id ≤ b.id

end Realm

end GameGateway
