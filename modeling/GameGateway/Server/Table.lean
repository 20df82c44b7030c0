import GameGateway.Endpoint

/-!
# The table of live sessions

Each endpoint has at most one live session, named by its number. Entries keep the order of their
insertion; nothing but the outcome of a search among several matches depends on it.
-/

namespace GameGateway

/-- Sessions are numbered in the order of their creation. -/
abbrev SessionId := Nat

/-- The live sessions by endpoint. -/
structure Table where
  /-- How many sessions may be live. -/
  limit : Nat
  entries : List (Endpoint × SessionId) := []
  deriving DecidableEq, Repr

namespace Table

/-- The session at an endpoint. -/
def get? (t : Table) (endpoint : Endpoint) : Option SessionId := t.entries.lookup endpoint

/-- How many sessions are live. -/
def size (t : Table) : Nat := t.entries.length

/-- Whether no session can be added. -/
def isFull (t : Table) : Bool := t.limit ≤ t.size

/-- The live sessions. -/
def ids (t : Table) : List SessionId := t.entries.map (·.2)

/-- Adds a session at an endpoint that has none. -/
def insert (t : Table) (endpoint : Endpoint) (id : SessionId) : Table :=
  { t with entries := t.entries ++ [(endpoint, id)] }

/-- Takes the entry of an endpoint out. -/
def erase (t : Table) (endpoint : Endpoint) : Table :=
  { t with entries := t.entries.filter fun entry => entry.1 != endpoint }

/-- Takes a session out if it is the one at its endpoint; a newer one there stays. -/
def remove (t : Table) (endpoint : Endpoint) (id : SessionId) : Table × Bool :=
  if t.get? endpoint = some id then (t.erase endpoint, true) else (t, false)

end Table

end GameGateway
