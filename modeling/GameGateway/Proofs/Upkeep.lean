import GameGateway.Proofs.Occupancy

/-!
# Maintenance in any order

A maintenance pass comes to the same whatever order it takes the sessions in: the same table, the same sessions, the
same games, and to each endpoint the same datagrams in the same order. Behind it every listed session is open and has
been heard within the timeout. `Service.tickAll_order_irrelevant` says this of every state that a service reaches.

## Implementation notes

The maintenance of a session has effects on four things, and `Server.settle` makes all of them at once from what the
session alone decides, its `Session.Outcome`. Two such steps commute for sessions at different endpoints; only the
outbox and the events tell the order, and `Server.Alike` leaves these open as far as they do.
-/

namespace GameGateway

/-! ## Removals from the table -/

namespace Table

variable {t : Table} {endpoint other : Endpoint} {id j : SessionId}

theorem get?_erase_of_ne (h : endpoint ≠ other) (t : Table) : (t.erase other).get? endpoint = t.get? endpoint := by
  rw [get?, erase, lookup_filter_key, if_neg h, get?]

theorem erase_comm (endpoint other : Endpoint) (t : Table) :
    (t.erase endpoint).erase other = (t.erase other).erase endpoint := by
  simp only [erase, List.filter_filter, Bool.and_comm]

/-- Removals at different endpoints commute. -/
theorem remove_comm (h : endpoint ≠ other) (t : Table) (id j : SessionId) :
    ((t.remove endpoint id).1.remove other j).1 = ((t.remove other j).1.remove endpoint id).1 := by
  by_cases hid : t.get? endpoint = some id
  · by_cases hj : t.get? other = some j
    · simp [remove, hid, hj, get?_erase_of_ne h, get?_erase_of_ne h.symm, erase_comm]
    · simp [remove, hid, hj, get?_erase_of_ne h.symm]
  · by_cases hj : t.get? other = some j
    · simp [remove, hid, hj, get?_erase_of_ne h]
    · simp [remove, hid, hj]

end Table

/-! ## Games that end -/

namespace Service

variable {x y : Session} {games : List (UInt64 × UInt32)}

/-- The player of a session is in game on its connection. -/
def Plays (x : Session) (games : List (UInt64 × UInt32)) : Prop :=
  x.playerId ≠ 0 ∧ games.lookup x.playerId = some x.connectionId

instance (x : Session) (games : List (UInt64 × UInt32)) : Decidable (Plays x games) :=
  inferInstanceAs (Decidable (_ ∧ _))

/-- The games behind the removal of a session. -/
def ended (x : Session) (games : List (UInt64 × UInt32)) : List (UInt64 × UInt32) :=
  if Plays x games then Realm.withoutGame x.playerId games else games

theorem onRemoved_eq (n : Server.Notice) (r : Realm) :
    onRemoved n r = { r with games := ended n.session r.games, events := (onRemoved n r).events } := by
  unfold onRemoved ended Plays
  by_cases hplayer : n.session.playerId = 0
  · simp [hplayer]
  · by_cases hgame : r.games.lookup n.session.playerId = some n.session.connectionId
    · simp [hplayer, hgame, Realm.endGame, Realm.game?, Realm.record]
    · simp [hplayer, hgame, Realm.endGame, Realm.game?, Realm.record]

/-- A game goes on behind the removal of another session unless it was that session's. -/
theorem plays_ended : Plays x (ended y games) ↔ Plays x games ∧ ¬ (x.playerId = y.playerId ∧ Plays y games) := by
  unfold ended
  split
  · rename_i hy
    by_cases hplayer : x.playerId = y.playerId
    · simp [Plays, Realm.lookup_withoutGame, hplayer, hy.1, hy.2]
    · simp [Plays, Realm.lookup_withoutGame, hplayer]
  · rename_i hy
    simp [hy]

theorem ended_eq_filter (x : Session) (games : List (UInt64 × UInt32)) :
    ended x games = games.filter fun game => !decide (Plays x games ∧ game.1 = x.playerId) := by
  unfold ended
  split
  · rename_i hplays
    refine List.filter_congr fun game _ => ?_
    simp [hplays, bne, Bool.beq_eq_decide_eq]
  · rename_i hplays
    refine (List.filter_eq_self.2 fun game _ => ?_).symm
    simp [hplays]

/-- The removals of two sessions end the same games in either order. -/
theorem ended_comm (x y : Session) (games : List (UInt64 × UInt32)) :
    ended x (ended y games) = ended y (ended x games) := by
  rw [ended_eq_filter x (ended y games), ended_eq_filter y (ended x games)]
  simp only [plays_ended]
  rw [ended_eq_filter y games, ended_eq_filter x games, List.filter_filter, List.filter_filter]
  apply List.filter_congr
  intro game _
  -- a game that both would end is ended by the first of them
  by_cases hplayer : x.playerId = y.playerId
  · simp only [hplayer, Plays]
    grind
  · simp only [hplayer, Ne.symm hplayer, false_and, not_false_eq_true, and_true, Bool.and_comm]

end Service

/-! ## What maintenance decides -/

namespace Session

open Server

/-- What becomes of a session, what it sends, and the session that the application is told of if it is removed. -/
structure Outcome where
  session : Session
  sent : List Outbound := []
  told : Option Session := none

/-- An outcome with something sent before. -/
def Outcome.behind (sent : List Outbound) (o : Outcome) : Outcome := { o with sent := sent ++ o.sent }

/-- The removal of a session. -/
def removal (x : Session) : Outcome :=
  if x.removing then { session := x }
  else
    { session := (leaving x).finish
      sent := ({ x with removing := true }.close .application).2.1
      told := some (leaving x) }

/-- The removal of a session that is shut down for a reason. -/
def dismissal (reason : DisconnectReason) (x : Session) : Outcome :=
  (x.close reason).1.removal.behind (x.close reason).2.1

/-- The maintenance of a session. -/
def upkeep (now : Nat) (x : Session) : Outcome :=
  let tick := x.update now
  match tick.health with
  | .alive => { session := tick.session, sent := tick.sent }
  | .timedOut => (tick.session.dismissal .timeout).behind tick.sent
  | .resendExhausted => (tick.session.dismissal .unacknowledgedTimeout).behind tick.sent
  | .disconnecting | .closed => tick.session.removal.behind tick.sent

theorem endpoint_removal (x : Session) : x.removal.session.endpoint = x.endpoint := by
  unfold removal
  split
  · rfl
  · exact (remains_removed x).endpoint

theorem removing_removal (x : Session) : x.removal.session.removing = true := by
  unfold removal
  split
  · rename_i hremoving
    exact hremoving
  · exact (remains_removed x).removing

/-- Maintenance leaves a session that is alive, or it ends in a removal. -/
theorem upkeep_cases (now : Nat) (x : Session) :
    ((x.update now).health = .alive ∧ (x.upkeep now).session = (x.update now).session) ∨
      ∃ y : Session, y.endpoint = x.endpoint ∧ (x.upkeep now).session = y.removal.session := by
  have htick : (x.update now).session.endpoint = x.endpoint := (x.remains_update now).endpoint
  have hclose (reason : DisconnectReason) : ((x.update now).session.close reason).1.endpoint = x.endpoint :=
    (remains_close reason _).endpoint.trans htick
  simp only [upkeep]
  cases (x.update now).health with
  | alive => exact Or.inl ⟨rfl, rfl⟩
  | timedOut => exact Or.inr ⟨_, hclose .timeout, rfl⟩
  | resendExhausted => exact Or.inr ⟨_, hclose .unacknowledgedTimeout, rfl⟩
  | disconnecting => exact Or.inr ⟨_, htick, rfl⟩
  | closed => exact Or.inr ⟨_, htick, rfl⟩

theorem endpoint_upkeep (now : Nat) (x : Session) : (x.upkeep now).session.endpoint = x.endpoint := by
  rcases x.upkeep_cases now with ⟨-, hsession⟩ | ⟨y, hendpoint, hsession⟩
  · rw [hsession]
    exact (x.remains_update now).endpoint
  · rw [hsession, endpoint_removal, hendpoint]

/-- The removal of a session has begun, or it is neither shutting down nor silent for too long. -/
def Lively (now : Nat) (x : Session) : Prop :=
  x.removing = true ∨ x.isOver = false ∧ x.isTimedOut now = false

theorem lively_update {now : Nat} {x : Session} (h : (x.update now).health = .alive) :
    (x.update now).session.Lively now := by
  obtain ⟨sender, hsession⟩ := x.update_session now
  rw [hsession]
  unfold update at h
  split at h
  · cases h
  · rename_i hclosed
    split at h
    · cases h
    · rename_i hleaving
      split at h
      · cases h
      · rename_i htimely
        right
        constructor
        · simp [isOver, hclosed, hleaving]
        · exact Bool.eq_false_iff.2 htimely

theorem lively_upkeep (now : Nat) (x : Session) : (x.upkeep now).session.Lively now := by
  rcases x.upkeep_cases now with ⟨halive, hsession⟩ | ⟨y, -, hsession⟩
  · rw [hsession]
    exact lively_update halive
  · rw [hsession]
    exact Or.inl y.removing_removal

end Session

namespace Server

section

variable {α : Type} {s : Server α} {id j : SessionId} {x y : Session} {onRemoved : Listener α}

/-- The server behind the outcome of a session at an endpoint. -/
def settle (onRemoved : Listener α) (id : SessionId) (endpoint : Endpoint) (o : Session.Outcome) (s : Server α) :
    Server α :=
  { s with
    sessions := s.sessions.set id o.session
    table := o.told.elim s.table fun _ => (s.table.remove endpoint id).1
    outbox := s.outbox ++ o.sent.map (Datagram.mk endpoint)
    app := o.told.elim s.app fun told => onRemoved ⟨id, told, s.table⟩ s.app }

theorem session?_settle_of_ne (h : j ≠ id) (endpoint : Endpoint) (o : Session.Outcome) (s : Server α) :
    (s.settle onRemoved id endpoint o).session? j = s.session? j := by
  simp [session?, settle, List.getElem?_set_ne h.symm]

theorem session?_settle (hid : s.session? id = some x) (endpoint : Endpoint) (o : Session.Outcome) :
    (s.settle onRemoved id endpoint o).session? id = some o.session := by
  have hlt : id < s.sessions.length := (List.getElem?_eq_some_iff.1 hid).1
  simp [session?, settle, hlt]

theorem settle_behind (id : SessionId) (y : Session) (endpoint : Endpoint) (sent : List Outbound) (o : Session.Outcome)
    (s : Server α) :
    ((s.put id y).post endpoint sent).settle onRemoved id endpoint o =
      s.settle onRemoved id endpoint (o.behind sent) := by
  simp [settle, put, post, Session.Outcome.behind]

theorem remove_eq_settle (hid : s.session? id = some x) :
    (s.remove onRemoved id).1 = s.settle onRemoved id x.endpoint x.removal := by
  cases hremoving : x.removing with
  | true =>
    have hput : s.sessions.set id x = s.sessions := congrArg Server.sessions (put_self hid)
    simp [Server.remove, hid, settle, Session.removal, hremoving, hput]
  | false => simp [Server.remove, hid, settle, Session.removal, hremoving, put, post, leaving]

theorem closeSession_eq_settle (hid : s.session? id = some x) (reason : DisconnectReason) :
    (s.closeSession onRemoved id reason).1 = s.settle onRemoved id x.endpoint (x.dismissal reason) := by
  have hshut : (s.shut id reason).1 = (s.put id (x.close reason).1).post x.endpoint (x.close reason).2.1 := by
    simp [shut, hid]
  have hendpoint : (x.close reason).1.endpoint = x.endpoint := (x.remains_close reason).endpoint
  have hself : (s.shut id reason).1.session? id = some (x.close reason).1 := by
    rw [hshut]
    exact session?_put hid _
  calc (s.closeSession onRemoved id reason).1
    _ = (s.shut id reason).1.settle onRemoved id x.endpoint (x.close reason).1.removal := by
      rw [closeSession, remove_eq_settle hself, hendpoint]
    _ = s.settle onRemoved id x.endpoint (x.dismissal reason) := by
      rw [hshut]
      apply settle_behind

/-- The maintenance of a session is its outcome. -/
theorem tickSession_eq_settle (now : Nat) (hid : s.session? id = some x) :
    s.tickSession onRemoved now id = s.settle onRemoved id x.endpoint (x.upkeep now) := by
  have hendpoint : (x.update now).session.endpoint = x.endpoint := (x.remains_update now).endpoint
  have hself : ((s.put id (x.update now).session).post x.endpoint (x.update now).sent).session? id =
      some (x.update now).session := session?_put hid _
  unfold Session.upkeep
  simp only [tickSession, hid]
  cases (x.update now).health with
  | alive => rfl
  | timedOut =>
    simp only
    rw [closeSession_eq_settle hself, hendpoint, settle_behind]
  | resendExhausted =>
    simp only
    rw [closeSession_eq_settle hself, hendpoint, settle_behind]
  | disconnecting =>
    simp only
    rw [remove_eq_settle hself, hendpoint, settle_behind]
  | closed =>
    simp only
    rw [remove_eq_settle hself, hendpoint, settle_behind]

theorem tickSession_of_none (onRemoved : Listener α) (now : Nat) (hid : s.session? id = none) :
    s.tickSession onRemoved now id = s := by
  simp [tickSession, hid]

theorem session?_tickSession_of_ne (onRemoved : Listener α) (now : Nat) (h : j ≠ id) (s : Server α) :
    (s.tickSession onRemoved now id).session? j = s.session? j := by
  cases hid : s.session? id with
  | none => rw [tickSession_of_none onRemoved now hid]
  | some x => rw [tickSession_eq_settle now hid, session?_settle_of_ne h]

/-- A session that is found behind the maintenance of one is what became of that one, or it is another. -/
theorem of_session?_tickSession {now : Nat} (hy : (s.tickSession onRemoved now id).session? j = some y) :
    (j = id ∧ ∃ x, s.session? id = some x ∧ y = (x.upkeep now).session) ∨ j ≠ id ∧ s.session? j = some y := by
  by_cases hj : j = id
  · subst hj
    cases hid : s.session? j with
    | none =>
      rw [tickSession_of_none onRemoved now hid, hid] at hy
      cases hy
    | some x =>
      rw [tickSession_eq_settle now hid, session?_settle hid] at hy
      exact Or.inl ⟨rfl, x, rfl, (Option.some.inj hy).symm⟩
  · rw [session?_tickSession_of_ne onRemoved now hj] at hy
    exact Or.inr ⟨hj, hy⟩

/-! ## A whole pass -/

theorem session?_tickAll_of_not_mem (onRemoved : Listener α) (now : Nat) {ids : List SessionId} (hid : id ∉ ids)
    (s : Server α) : (s.tickAll onRemoved now ids).session? id = s.session? id := by
  induction ids generalizing s with
  | nil => rfl
  | cons i ids ih =>
    calc (s.tickAll onRemoved now (i :: ids)).session? id
      _ = (s.tickSession onRemoved now i).session? id := ih (List.not_mem_of_not_mem_cons hid) _
      _ = s.session? id := session?_tickSession_of_ne onRemoved now (List.ne_of_not_mem_cons hid) s

/-- A session that is lively stays so, whatever else is maintained. -/
theorem lively_tickAll {now : Nat} {ids : List SessionId} (hlively : ∀ x, s.session? id = some x → x.Lively now)
    (hx : (s.tickAll onRemoved now ids).session? id = some x) : x.Lively now := by
  induction ids generalizing s with
  | nil => exact hlively x hx
  | cons i ids ih =>
    refine ih (fun y hy => ?_) hx
    rcases of_session?_tickSession hy with ⟨-, z, -, rfl⟩ | ⟨-, hbefore⟩
    · exact z.lively_upkeep now
    · exact hlively y hbefore

theorem lively_of_mem {now : Nat} {ids : List SessionId} (hid : id ∈ ids)
    (hx : (s.tickAll onRemoved now ids).session? id = some x) : x.Lively now := by
  induction ids generalizing s with
  | nil => cases hid
  | cons i ids ih =>
    rcases List.mem_cons.1 hid with rfl | hrest
    · refine lively_tickAll (s := s.tickSession onRemoved now id) (fun y hy => ?_) hx
      rcases of_session?_tickSession hy with ⟨-, z, -, rfl⟩ | ⟨hne, -⟩
      · exact z.lively_upkeep now
      · exact absurd rfl hne
    · exact ih hrest hx

theorem Roster.session_of_mem (h : Roster s) (hid : id ∈ s.table.ids) : ∃ x, s.session? id = some x := by
  obtain ⟨⟨endpoint, i⟩, hentry, rfl⟩ := List.mem_map.1 hid
  obtain ⟨x, hx, -, -⟩ := (h.mem_iff endpoint i).1 hentry
  exact ⟨x, hx⟩

/-- Behind a pass over all listed sessions none that is listed is shutting down or has been silent for too long. -/
theorem Roster.tickAll_listed (h : Roster s) {now : Nat} {ids : List SessionId} (hids : s.table.ids ⊆ ids)
    (hafter : Roster (s.tickAll onRemoved now ids)) (hid : id ∈ (s.tickAll onRemoved now ids).table.ids) :
    ∃ x, (s.tickAll onRemoved now ids).session? id = some x ∧ x.isOver = false ∧ x.isTimedOut now = false := by
  obtain ⟨x, hx⟩ := hafter.session_of_mem hid
  have hremoving : x.removing = false := (hafter.mem_ids_iff hx).1 hid
  refine ⟨x, hx, ?_⟩
  by_cases hmaintained : id ∈ ids
  · rcases lively_of_mem hmaintained hx with hbegun | hlively
    · rw [hremoving] at hbegun
      cases hbegun
    · exact hlively
  · -- a session that the pass leaves out was not listed
    have hbefore : s.session? id = some x :=
      (session?_tickAll_of_not_mem onRemoved now hmaintained s).symm.trans hx
    exact absurd (hids ((h.mem_ids_iff hbefore).2 hremoving)) hmaintained

theorem outbox_tickAll (onRemoved : Listener α) (now : Nat) (ids : List SessionId) (s : Server α) :
    ∃ sent, (s.tickAll onRemoved now ids).outbox = s.outbox ++ sent := by
  induction ids generalizing s with
  | nil => exact ⟨[], (List.append_nil _).symm⟩
  | cons i ids ih =>
    obtain ⟨rest, hrest⟩ := ih (s.tickSession onRemoved now i)
    obtain ⟨first, hfirst⟩ : ∃ first, (s.tickSession onRemoved now i).outbox = s.outbox ++ first := by
      cases hi : s.session? i with
      | none =>
        rw [tickSession_of_none onRemoved now hi]
        exact ⟨[], (List.append_nil _).symm⟩
      | some x =>
        rw [tickSession_eq_settle now hi]
        exact ⟨_, rfl⟩
    refine ⟨first ++ rest, ?_⟩
    rw [← List.append_assoc, ← hfirst]
    exact hrest

/-- What every operation preserves a pass preserves. -/
theorem tickAll_invariant {app : Application α} {codec : Codec} (script : Script app codec) {P : Server α → Prop}
    (hs : P s) (hop : ∀ s op, P s → P (s.operate app.onRemoved codec op)) (now : Nat) (ids : List SessionId) :
    P (s.tickAll app.onRemoved now ids) := by
  induction ids generalizing s with
  | nil => exact hs
  | cons id ids ih =>
    refine ih (s := s.tickSession app.onRemoved now id) ?_
    rw [← perform_maintaining]
    exact perform_invariant hs (fun s a hs => act_invariant script hs hop a) _

end

/-! ## Sessions at different endpoints -/

section

open Service

variable {s s' s'' : Server Realm} {id j : SessionId} {x y : Session} {endpoint other : Endpoint}

/-- All of a server, its sessions, its table and its games too, but what was sent and the events. -/
def unlogged (s : Server Realm) : Server Realm := { s with outbox := [], app := { s.app with events := [] } }

/-- What was sent to an endpoint. -/
def sentTo (endpoint : Endpoint) (s : Server Realm) : List Datagram := s.outbox.filter (·.endpoint == endpoint)

/-- Two servers differ in the events at most, and in how the datagrams to different endpoints are interleaved. -/
structure Alike (s s' : Server Realm) : Prop where
  unlogged : s.unlogged = s'.unlogged
  sentTo : ∀ endpoint, s.sentTo endpoint = s'.sentTo endpoint

theorem Alike.refl (s : Server Realm) : Alike s s := ⟨rfl, fun _ => rfl⟩

theorem Alike.trans (h : Alike s s') (h' : Alike s' s'') : Alike s s'' where
  unlogged := h.unlogged.trans h'.unlogged
  sentTo := fun endpoint => (h.sentTo endpoint).trans (h'.sentTo endpoint)

theorem unlogged_settle (id : SessionId) (endpoint : Endpoint) (o : Session.Outcome) (s : Server Realm) :
    (s.settle onRemoved id endpoint o).unlogged =
      { s.unlogged with
        sessions := s.unlogged.sessions.set id o.session
        table := o.told.elim s.unlogged.table fun _ => (s.unlogged.table.remove endpoint id).1
        app := { s.unlogged.app with
          games := o.told.elim s.unlogged.app.games fun told => ended told s.unlogged.app.games } } := by
  cases htold : o.told with
  | none => simp [settle, unlogged, htold]
  | some told =>
    simp only [settle, unlogged, htold, Option.elim_some]
    rw [onRemoved_eq]

theorem sentTo_settle (id : SessionId) (endpoint other : Endpoint) (o : Session.Outcome) (s : Server Realm) :
    (s.settle onRemoved id endpoint o).sentTo other =
      s.sentTo other ++ if endpoint = other then o.sent.map (Datagram.mk endpoint) else [] := by
  rw [sentTo, settle, List.filter_append]
  congr 1
  split
  · rename_i heq
    simp [List.filter_eq_self, heq]
  · rename_i hne
    simp [List.filter_eq_nil_iff, hne]

theorem Alike.settle (h : Alike s s') (id : SessionId) (endpoint : Endpoint) (o : Session.Outcome) :
    Alike (s.settle onRemoved id endpoint o) (s'.settle onRemoved id endpoint o) where
  unlogged := by rw [unlogged_settle, unlogged_settle, h.unlogged]
  sentTo := by
    intro other
    rw [sentTo_settle, sentTo_settle, h.sentTo]

/-- The outcomes of two sessions at different endpoints can be taken in either order. -/
theorem alike_settle_settle (hid : id ≠ j) (hne : endpoint ≠ other) (o o' : Session.Outcome) (s : Server Realm) :
    Alike ((s.settle onRemoved id endpoint o).settle onRemoved j other o')
      ((s.settle onRemoved j other o').settle onRemoved id endpoint o) where
  unlogged := by
    simp only [unlogged_settle, List.set_comm _ _ hid]
    cases o.told with
    | none => rfl
    | some told =>
      cases o'.told with
      | none => rfl
      | some told' => simp only [Option.elim_some, Table.remove_comm hne, ended_comm told told']
  sentTo := by
    intro e
    simp only [sentTo_settle, List.append_assoc]
    by_cases hendpoint : endpoint = e
    · have hother : other ≠ e := fun heq => hne (hendpoint.trans heq.symm)
      simp [hendpoint, hother]
    · simp [hendpoint]

theorem Alike.session? (h : Alike s s') (id : SessionId) : s.session? id = s'.session? id :=
  congrArg (fun server => server.sessions[id]?) h.unlogged

theorem Alike.tickSession (h : Alike s s') (now : Nat) (id : SessionId) :
    Alike (s.tickSession onRemoved now id) (s'.tickSession onRemoved now id) := by
  have hsame := h.session? id
  cases hid : s'.session? id with
  | none =>
    rw [tickSession_of_none onRemoved now hid, tickSession_of_none onRemoved now (hsame.trans hid)]
    exact h
  | some x =>
    rw [tickSession_eq_settle now hid, tickSession_eq_settle now (hsame.trans hid)]
    exact h.settle id x.endpoint (x.upkeep now)

theorem Alike.tickAll (h : Alike s s') (now : Nat) (ids : List SessionId) :
    Alike (s.tickAll onRemoved now ids) (s'.tickAll onRemoved now ids) := by
  induction ids generalizing s s' with
  | nil => exact h
  | cons id ids ih => exact ih (h.tickSession now id)

/-- The given sessions are at different endpoints. -/
def Spread (ids : List SessionId) (s : Server Realm) : Prop :=
  ∀ i ∈ ids, ∀ j ∈ ids, i ≠ j → ∀ x y, s.session? i = some x → s.session? j = some y → x.endpoint ≠ y.endpoint

theorem Roster.spread (h : Roster s) : Spread s.table.ids s := by
  intro i hi j hj hne x y hx hy hendpoint
  have hgetx := h.get?_endpoint hx ((h.mem_ids_iff hx).1 hi)
  have hgety := h.get?_endpoint hy ((h.mem_ids_iff hy).1 hj)
  rw [hendpoint, hgety] at hgetx
  exact hne (Option.some.inj hgetx).symm

theorem Spread.subset {ids ids' : List SessionId} (h : Spread ids s) (hsubset : ids' ⊆ ids) : Spread ids' s :=
  fun i hi j hj => h i (hsubset hi) j (hsubset hj)

/-- Maintenance moves no session. -/
theorem Spread.tickSession {ids : List SessionId} (h : Spread ids s) (now : Nat) (id : SessionId) :
    Spread ids (s.tickSession onRemoved now id) := by
  have hbefore : ∀ i y, (s.tickSession onRemoved now id).session? i = some y →
      ∃ x, s.session? i = some x ∧ y.endpoint = x.endpoint := by
    intro i y hy
    rcases of_session?_tickSession hy with ⟨rfl, x, hx, rfl⟩ | ⟨-, hx⟩
    · exact ⟨x, hx, x.endpoint_upkeep now⟩
    · exact ⟨y, hx, rfl⟩
  intro i hi j hj hne x y hx hy
  obtain ⟨x', hx', hendpoint⟩ := hbefore i x hx
  obtain ⟨y', hy', hendpoint'⟩ := hbefore j y hy
  rw [hendpoint, hendpoint']
  exact h i hi j hj hne x' y' hx' hy'

/-- Two sessions at different endpoints can be maintained in either order. -/
theorem alike_tickSession_tickSession (now : Nat) (hid : id ≠ j)
    (hne : ∀ x y, s.session? id = some x → s.session? j = some y → x.endpoint ≠ y.endpoint) :
    Alike ((s.tickSession onRemoved now id).tickSession onRemoved now j)
      ((s.tickSession onRemoved now j).tickSession onRemoved now id) := by
  have hself := session?_tickSession_of_ne onRemoved now hid s
  have hother := session?_tickSession_of_ne onRemoved now hid.symm s
  cases hx : s.session? id with
  | none =>
    rw [tickSession_of_none onRemoved now hx, tickSession_of_none onRemoved now (hself.trans hx)]
    exact Alike.refl _
  | some x =>
    cases hy : s.session? j with
    | none =>
      rw [tickSession_of_none onRemoved now hy, tickSession_of_none onRemoved now (hother.trans hy)]
      exact Alike.refl _
    | some y =>
      rw [tickSession_eq_settle now (hother.trans hy), tickSession_eq_settle now (hself.trans hx),
        tickSession_eq_settle now hx, tickSession_eq_settle now hy]
      exact alike_settle_settle hid (hne x y hx hy) (x.upkeep now) (y.upkeep now) s

/-- A pass over sessions at different endpoints comes to the same in every order. -/
theorem alike_tickAll_of_perm (now : Nat) {ids ids' : List SessionId} (hperm : ids.Perm ids') (h : Spread ids s) :
    Alike (s.tickAll onRemoved now ids) (s.tickAll onRemoved now ids') := by
  induction hperm generalizing s with
  | nil => exact Alike.refl s
  | cons id _ ih => exact ih ((h.subset (List.subset_cons_self _ _)).tickSession now id)
  | swap id j ids =>
    refine Alike.tickAll ?_ now ids
    by_cases heq : j = id
    · subst heq
      exact Alike.refl _
    · exact alike_tickSession_tickSession now heq (h j (by simp) id (by simp) heq)
  | trans hfirst _ ih ih' => exact (ih h).trans (ih' (h.subset hfirst.symm.subset))

end

/-! ## The timeout in force -/

section

variable {α : Type} {s s' : Server α} {id : SessionId} {x x' : Session} {config : ProtocolConfig}
  {onRemoved : Listener α} {codec : Codec}

/-- A server and all its sessions have the given configuration. -/
structure Configured (config : ProtocolConfig) (s : Server α) : Prop where
  server : s.config = config
  session : ∀ id x, s.session? id = some x → x.config = config

theorem Configured.congr (h : Configured config s) (hserver : s'.config = s.config)
    (hsessions : s'.sessions = s.sessions) : Configured config s' where
  server := hserver.trans h.server
  session := by
    simp only [session?, hsessions]
    exact h.session

theorem Configured.put (h : Configured config s) (hid : s.session? id = some x) (hx : x'.config = x.config) :
    Configured config (s.put id x') where
  server := h.server
  session := by
    intro j y hy
    rcases of_session?_put hid hy with ⟨-, rfl⟩ | ⟨-, hj⟩
    · exact hx.trans (h.session id x hid)
    · exact h.session j y hj

theorem Configured.change (h : Configured config s) {call : Session → Session}
    (hcall : ∀ x : Session, (call x).config = x.config) (id : SessionId) : Configured config (s.change id call) := by
  unfold Server.change
  cases hid : s.session? id with
  | none => exact h
  | some x => exact h.put hid (hcall x)

theorem Configured.remove (h : Configured config s) (onRemoved : Listener α) (id : SessionId) :
    Configured config (s.remove onRemoved id).1 := by
  rcases remove_cases onRemoved s id with ⟨heq, -⟩ | ⟨x, sent, hid, -, -, heq⟩
  · rw [heq]
    exact h
  · have hfinal : (leaving x).finish.config = x.config :=
      (leaving x).keeps_finish.config.trans (Session.keeps_close .application _).config
    rw [heq]
    exact (h.put hid hfinal).congr rfl rfl

/-- No operation configures a session anew. -/
theorem Configured.operate (h : Configured config s) (op : Op α) : Configured config (s.operate onRemoved codec op) := by
  cases op with
  | enter endpoint now =>
    rcases enters_or_rests onRemoved codec endpoint now s with henters | heq
    · rw [henters.eq]
      refine ⟨h.server, fun j y hy => ?_⟩
      rcases of_getElem?_concat hy with hold | ⟨-, rfl⟩
      · exact h.session j y hold
      · exact h.server
    · rwa [heq]
  | accept id now bytes =>
    simp only [Server.operate, accept]
    cases hid : s.session? id with
    | none => exact h
    | some x => exact (h.put hid (x.keeps_handle codec now _ bytes).config).congr rfl rfl
  | maintain id now =>
    simp only [Server.operate, Server.maintain]
    cases hid : s.session? id with
    | none => exact h
    | some x =>
      obtain ⟨sender, hupdate⟩ := x.update_session now
      have hconfig : (x.update now).session.config = x.config := by rw [hupdate]
      exact (h.put hid hconfig).congr rfl rfl
  | shut id reason =>
    simp only [Server.operate, shut]
    cases hid : s.session? id with
    | none => exact h
    | some x => exact (h.put hid (x.keeps_close reason).config).congr rfl rfl
  | connect id account player => exact h.change (fun x => (x.keeps_connect account player).config) id
  | queue id message =>
    refine h.change (fun x => ?_) id
    unfold Session.queue
    split <;> rfl
  | remove id => exact h.remove onRemoved id
  | tell change => exact h.congr rfl rfl
  | rehash entries =>
    have hserver : (s.rehash entries).config = s.config := by
      unfold rehash
      split <;> rfl
    exact h.congr hserver (rests_rehash entries s).sessions

end

end Server

namespace Service

open Server

theorem configured_calls (config : ProtocolConfig) (limit : Nat) (seeds : List UInt32) (accounts : List DevAccount)
    (galaxyStatus : UInt8) (codec : Codec) (calls : List Call) :
    Configured config ((started config limit seeds accounts).calls (application galaxyStatus) codec calls) := by
  refine calls_invariant ?_ (fun s a hs => ?_) calls
  · exact ⟨rfl, fun id x hx => by simp [started, create, session?] at hx⟩
  · exact act_invariant (script galaxyStatus codec) hs (fun s op hs => hs.operate op) a

/-- A maintenance pass does not depend on the order in which the sessions are listed. Two passes over one state of a
service differ in the events at most, and in how the datagrams to different endpoints are interleaved. Behind a pass no
listed session is shutting down, and none has been silent for longer than the timeout. -/
theorem tickAll_order_irrelevant (config : ProtocolConfig) (limit : Nat) (seeds : List UInt32)
    (accounts : List DevAccount) (galaxyStatus : UInt8) (codec : Codec) (calls : List Call) (now : Nat)
    (ids ids' : List SessionId) :
    let s := (started config limit seeds accounts).calls (application galaxyStatus) codec calls
    ids.Perm s.table.ids → ids'.Perm s.table.ids →
    let t := s.tickAll onRemoved now ids
    let t' := s.tickAll onRemoved now ids'
    t.unlogged = t'.unlogged ∧
    (∃ sent sent', t.outbox = s.outbox ++ sent ∧ t'.outbox = s.outbox ++ sent' ∧
      ∀ endpoint, sent.filter (·.endpoint == endpoint) = sent'.filter (·.endpoint == endpoint)) ∧
    ∀ id ∈ t.table.ids, ∃ x, t.session? id = some x ∧ x.isClosed = false ∧ now - x.lastActivity ≤ config.timeoutMs := by
  intro s hids hids' t t'
  have horderly : Orderly s := orderly_calls config limit seeds accounts galaxyStatus codec calls
  have hconfigured : Configured config s := configured_calls config limit seeds accounts galaxyStatus codec calls
  have halike : Alike t t' :=
    alike_tickAll_of_perm now (hids.trans hids'.symm) (horderly.toRoster.spread.subset hids.subset)
  refine ⟨?_, ?_, fun id hlisted => ?_⟩
  · exact halike.unlogged
  · obtain ⟨sent, hsent⟩ := outbox_tickAll onRemoved now ids s
    obtain ⟨sent', hsent'⟩ := outbox_tickAll onRemoved now ids' s
    refine ⟨sent, sent', hsent, hsent', fun endpoint => ?_⟩
    have hsame : t.outbox.filter (·.endpoint == endpoint) = t'.outbox.filter (·.endpoint == endpoint) :=
      halike.sentTo endpoint
    rw [hsent, hsent', List.filter_append, List.filter_append] at hsame
    exact List.append_cancel_left hsame
  · have horderly' : Orderly t :=
      tickAll_invariant (script galaxyStatus codec) horderly (fun s op hs => hs.operate op) now ids
    have hconfigured' : Configured config t :=
      tickAll_invariant (script galaxyStatus codec) hconfigured (fun s op hs => hs.operate op) now ids
    obtain ⟨x, hx, hopen, htimely⟩ :=
      horderly.toRoster.tickAll_listed hids.symm.subset horderly'.toRoster hlisted
    refine ⟨x, hx, (horderly'.isOver_eq hx).symm.trans hopen, ?_⟩
    rw [← hconfigured'.session id x hx]
    simpa [Session.isTimedOut] using htimely

/-- Two players are in game, and one of them is shut down past the server; a third session has no player. After a long
silence all of them are given up, and the reversed pass tells the simulation of the players in another order. -/
theorem tickAll_order_irrelevant_reversed :
    let login (key : String) : Bytes := Packet.header .data 0 ++ Message.encode .clientId { sessionKey := key }
    let codec : Codec := ⟨fun _ => none, fun _ _ => none⟩
    let calls : List Call := [.event (.datagram 0 ⟨.v4 10 0 0 1, 5000⟩ (login "a")),
      .event (.datagram 0 ⟨.v4 10 0 0 2, 5000⟩ (login "b")), .create ⟨.v4 10 0 0 3, 5000⟩ 0,
      .event (.shut 1 .application)]
    let s := (started { crcLength := 0, compression := false } 4 [] [⟨"a", 1, 500, 2⟩, ⟨"b", 2, 501, 2⟩]).calls
      (application 1) codec calls
    let t := s.tickAll onRemoved 90000 [0, 1, 2]
    let t' := s.tickAll onRemoved 90000 [2, 1, 0]
    [0, 1, 2].Perm s.table.ids ∧ [2, 1, 0].Perm s.table.ids ∧ s.app.games.length = 2 ∧ t.table.ids = [] ∧
      t.app.events ≠ t'.app.events ∧ t.unlogged = t'.unlogged := by
  intro login codec calls s t t'
  have hids : s.table.ids = [0, 1, 2] := by decide +kernel
  have hperm : [0, 1, 2].Perm s.table.ids := by
    rw [hids]
  have hperm' : [2, 1, 0].Perm s.table.ids := by
    rw [hids]
    decide
  obtain ⟨hunlogged, -⟩ := tickAll_order_irrelevant { crcLength := 0, compression := false } 4 []
    [⟨"a", 1, 500, 2⟩, ⟨"b", 2, 501, 2⟩] 1 codec calls 90000 [0, 1, 2] [2, 1, 0] hperm hperm'
  refine ⟨hperm, hperm', ?_, ?_, ?_, hunlogged⟩
  · decide +kernel
  · decide +kernel
  · decide +kernel

end Service

end GameGateway
