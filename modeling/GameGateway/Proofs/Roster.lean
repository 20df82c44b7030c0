import GameGateway.Proofs.Acts
import GameGateway.Proofs.Identity
import GameGateway.Service

/-!
# The table and the sessions

The table lists exactly the sessions whose removal has not begun, each at its own endpoint, and no endpoint
twice; a session whose removal has begun is shut down, and no session has a flag that its phase does not bear
out. `Server.Roster` says this, and every act of the connection service preserves it.

## Implementation notes

Each function of the server has one lemma that says all it can do. An act with which one session works on its
own, a datagram, a maintenance pass or a shutdown, has the common shape `Server.Works`.
-/

namespace GameGateway

namespace Table

variable {t : Table} {endpoint : Endpoint} {id : SessionId}

theorem ne_of_get?_none (h : t.get? endpoint = none) {entry : Endpoint × SessionId}
    (hentry : entry ∈ t.entries) : entry.1 ≠ endpoint := by
  intro heq
  have hne := List.lookup_eq_none_iff.1 h entry hentry
  simp [heq] at hne

/-- In a table that lists no endpoint twice an entry is found. -/
theorem get?_of_mem (hnodup : (t.entries.map Prod.fst).Nodup) (h : (endpoint, id) ∈ t.entries) :
    t.get? endpoint = some id := by
  obtain ⟨before, after, hentries⟩ := List.append_of_mem h
  rw [hentries, List.map_append, List.map_cons] at hnodup
  apply List.lookup_eq_some_iff.2
  refine ⟨before, after, hentries, fun entry hentry => ?_⟩
  have hne := (List.nodup_append.1 hnodup).2.2 entry.1 (List.mem_map_of_mem hentry) endpoint
    List.mem_cons_self
  simpa using hne.symm

theorem mem_of_get? (h : t.get? endpoint = some id) : (endpoint, id) ∈ t.entries := by
  obtain ⟨before, after, hentries, -⟩ := List.lookup_eq_some_iff.1 h
  simp [hentries]

end Table

namespace Server

variable {α : Type} {s s' : Server α} {id j : SessionId} {x x' y : Session}

/-! ## Looking sessions up -/

theorem session?_withApp (s : Server α) (app : α) (id : SessionId) :
    { s with app }.session? id = s.session? id := rfl

theorem session?_put (hid : s.session? id = some x) (x' : Session) :
    (s.put id x').session? id = some x' := by
  have hlt : id < s.sessions.length := (List.getElem?_eq_some_iff.1 hid).1
  simp [session?, put, hlt]

theorem session?_put_of_ne (h : j ≠ id) (s : Server α) (x' : Session) :
    (s.put id x').session? j = s.session? j := by
  simp [session?, put, List.getElem?_set_ne h.symm]

theorem put_self (hid : s.session? id = some x) : s.put id x = s := by
  obtain ⟨hlt, rfl⟩ := List.getElem?_eq_some_iff.1 hid
  simp [put]

/-- Where a session is found after another was put in place. -/
theorem of_session?_put (hid : s.session? id = some x) (hj : (s.put id x').session? j = some y) :
    j = id ∧ y = x' ∨ j ≠ id ∧ s.session? j = some y := by
  by_cases h : j = id
  · subst h
    rw [session?_put hid] at hj
    exact Or.inl ⟨rfl, (Option.some.inj hj).symm⟩
  · rw [session?_put_of_ne h] at hj
    exact Or.inr ⟨h, hj⟩

/-! ## What the functions of the server do -/

/-- A session works on its own: it is the same player's afterwards and may send, nothing on a channel if it had
nothing to send. -/
def Works (id : SessionId) (s s' : Server α) : Prop :=
  s' = s ∨ ∃ x x' seeds sent, s.session? id = some x ∧ x.Remains x' ∧
    (x.sender = {} → x'.Quiet sent) ∧ s' = ({ s with seeds }.put id x').post x.endpoint sent

theorem works_accept (codec : Codec) (id : SessionId) (now : Nat) (bytes : Bytes) (s : Server α) :
    Works id s (s.accept codec id now bytes) := by
  unfold accept
  cases hid : s.session? id with
  | none => exact Or.inl rfl
  | some x =>
    right
    exact ⟨x, _, _, _, hid, x.remains_handle codec now _ bytes,
      x.quiet_handle codec now _ bytes, rfl⟩

theorem works_maintain (id : SessionId) (now : Nat) (s : Server α) :
    Works id s (s.maintain id now) := by
  unfold maintain
  cases hid : s.session? id with
  | none => exact Or.inl rfl
  | some x =>
    right
    exact ⟨x, _, s.seeds, _, hid, x.remains_update now, x.quiet_update now, rfl⟩

theorem works_shut (id : SessionId) (reason : DisconnectReason) (s : Server α) :
    Works id s (s.shut id reason).1 := by
  unfold shut
  cases hid : s.session? id with
  | none => exact Or.inl rfl
  | some x =>
    right
    exact ⟨x, _, s.seeds, _, hid, x.remains_close reason, x.quiet_close reason, rfl⟩

/-- A session on its way out of the table: its removal has begun and it is shut down. -/
def leaving (x : Session) : Session := ({ x with removing := true }.close .application).1

theorem remains_leaving (x : Session) : Session.Remains { x with removing := true } (leaving x) :=
  Session.remains_close .application _

/-- What a removal leaves of a session. -/
theorem remains_removed (x : Session) : Session.Remains { x with removing := true } (leaving x).finish :=
  (remains_leaving x).trans (leaving x).remains_finish

theorem Works.session?_of_ne (h : Works id s s') (hj : j ≠ id) : s'.session? j = s.session? j := by
  rcases h with rfl | ⟨x, x', seeds, sent, -, -, -, rfl⟩
  · rfl
  · exact session?_put_of_ne hj _ _

theorem Works.app (h : Works id s s') : s'.app = s.app := by
  rcases h with rfl | ⟨x, x', seeds, sent, -, -, -, rfl⟩
  · rfl
  · rfl

/-- A session is removed once; then it leaves the table, and the application is told. -/
theorem remove_cases (onRemoved : Listener α) (s : Server α) (id : SessionId) :
    ((s.remove onRemoved id).1 = s ∧ ∀ x, s.session? id = some x → x.removing = true) ∨
    ∃ x sent, s.session? id = some x ∧ x.removing = false ∧ (x.sender = {} → (leaving x).Quiet sent) ∧
      (s.remove onRemoved id).1 =
        ({ s with
            table := (s.table.remove x.endpoint id).1
            app := onRemoved ⟨id, leaving x, s.table⟩ s.app }.put id (leaving x).finish).post x.endpoint sent := by
  unfold remove
  cases hid : s.session? id with
  | none => exact Or.inl ⟨rfl, by simp⟩
  | some x =>
    dsimp only
    cases hremoving : x.removing with
    | true =>
      refine Or.inl ⟨rfl, fun y hy => ?_⟩
      rw [← Option.some.inj hy]
      exact hremoving
    | false =>
      right
      exact ⟨x, _, rfl, hremoving, fun h => Session.quiet_close (s := { x with removing := true })
        .application h, rfl⟩

theorem session?_remove_of_ne (onRemoved : Listener α) (hj : j ≠ id) (s : Server α) :
    (s.remove onRemoved id).1.session? j = s.session? j := by
  rcases remove_cases onRemoved s id with ⟨heq, -⟩ | ⟨x, sent, -, -, -, heq⟩
  · rw [heq]
  · rw [heq]
    exact session?_put_of_ne hj _ _

/-- A session that is found after a removal was there before, or it is the last state of the one that was removed. -/
theorem of_session?_remove {onRemoved : Listener α} (hy : (s.remove onRemoved id).1.session? j = some y) :
    (s.session? j = some y ∧ (j = id → y.removing = true)) ∨
    ∃ x, j = id ∧ s.session? id = some x ∧ x.removing = false ∧ y = (leaving x).finish := by
  rcases remove_cases onRemoved s id with ⟨heq, hbegun⟩ | ⟨x, sent, hid, hremoving, -, heq⟩
  · left
    rw [heq] at hy
    refine ⟨hy, ?_⟩
    rintro rfl
    exact hbegun y hy
  · rw [heq] at hy
    rcases of_session?_put hid hy with ⟨hj, hfinal⟩ | ⟨hj, hold⟩
    · exact Or.inr ⟨x, hj, hid, hremoving, hfinal⟩
    · exact Or.inl ⟨hold, fun heq => absurd heq hj⟩

/-- The removal of a session has begun when it is asked for. -/
theorem removing_remove {onRemoved : Listener α} (hy : (s.remove onRemoved id).1.session? id = some y) :
    y.removing = true := by
  rcases of_session?_remove hy with ⟨-, hbegun⟩ | ⟨x, -, -, -, rfl⟩
  · exact hbegun rfl
  · exact (remains_removed x).removing

theorem session?_closeSession_of_ne (onRemoved : Listener α) (hj : j ≠ id)
    (reason : DisconnectReason) (s : Server α) :
    (s.closeSession onRemoved id reason).1.session? j = s.session? j :=
  (session?_remove_of_ne onRemoved hj _).trans ((works_shut id reason s).session?_of_ne hj)

/-- A session opens at an endpoint that has none if there is room. -/
theorem openSession_cases (s : Server α) (endpoint : Endpoint) (now : Nat) :
    (∃ e, s.openSession endpoint now = .error e) ∨
    (∃ id, s.table.get? endpoint = some id ∧ s.openSession endpoint now = .ok (id, s)) ∨
    (s.table.get? endpoint = none ∧ s.openSession endpoint now = .ok (s.sessions.length,
      { s with
        sessions := s.sessions ++ [Session.create endpoint s.config now]
        table := s.table.insert endpoint s.sessions.length })) := by
  unfold openSession
  cases hget : s.table.get? endpoint with
  | some id => exact Or.inr (Or.inl ⟨id, rfl, rfl⟩)
  | none =>
    dsimp only
    split
    · exact Or.inl ⟨_, rfl⟩
    · exact Or.inr (Or.inr ⟨rfl, rfl⟩)

/-- A session that was opened was there, or it is a new one. -/
theorem of_openSession {endpoint : Endpoint} {now : Nat} (hopen : s.openSession endpoint now = .ok (id, s')) :
    (s.table.get? endpoint = some id ∧ s' = s) ∨
    s.table.get? endpoint = none ∧ id = s.sessions.length ∧ s' = { s with
      sessions := s.sessions ++ [Session.create endpoint s.config now]
      table := s.table.insert endpoint s.sessions.length } := by
  rcases openSession_cases s endpoint now with ⟨e, heq⟩ | ⟨other, hget, heq⟩ | ⟨hget, heq⟩
  · rw [heq] at hopen
    cases hopen
  · rw [heq] at hopen
    obtain ⟨rfl, rfl⟩ := Prod.mk.inj (Except.ok.inj hopen)
    exact Or.inl ⟨hget, rfl⟩
  · rw [heq] at hopen
    obtain ⟨rfl, rfl⟩ := Prod.mk.inj (Except.ok.inj hopen)
    exact Or.inr ⟨hget, rfl, rfl⟩

/-! ## The roster -/

/-- The table lists exactly the sessions whose removal has not begun. -/
structure Roster (s : Server α) : Prop where
  endpoints : (s.table.entries.map Prod.fst).Nodup
  mem_iff : ∀ endpoint id, (endpoint, id) ∈ s.table.entries ↔
    ∃ x, s.session? id = some x ∧ x.endpoint = endpoint ∧ x.removing = false
  removed : ∀ id x, s.session? id = some x → x.removing = true → x.isOver = true
  flagged : ∀ id x, s.session? id = some x → x.Flagged

theorem roster_create (config : ProtocolConfig) (limit : Nat) (seeds : List UInt32) (app : α) :
    Roster (create config limit seeds app) where
  endpoints := List.nodup_nil
  mem_iff := fun endpoint id => by simp [create, session?]
  removed := fun id x h => by simp [create, session?] at h
  flagged := fun id x h => by simp [create, session?] at h

/-- The roster is a matter of the sessions and the table. -/
theorem Roster.congr (h : Roster s) (hsessions : s'.sessions = s.sessions)
    (htable : s'.table.entries = s.table.entries) : Roster s' where
  endpoints := by
    rw [htable]
    exact h.endpoints
  mem_iff := by
    simp only [htable, session?, hsessions]
    exact h.mem_iff
  removed := by
    simp only [session?, hsessions]
    exact h.removed
  flagged := by
    simp only [session?, hsessions]
    exact h.flagged

theorem Roster.withApp (h : Roster s) (app : α) : Roster { s with app } := h.congr rfl rfl

theorem Roster.put (h : Roster s) (hid : s.session? id = some x) (hendpoint : x'.endpoint = x.endpoint)
    (hremoving : x'.removing = x.removing) (hclosed : x.isOver = true → x'.isOver = true)
    (hflagged : x.Flagged → x'.Flagged) : Roster (s.put id x') where
  endpoints := h.endpoints
  mem_iff := by
    intro endpoint j
    rw [show (s.put id x').table = s.table from rfl, h.mem_iff]
    by_cases hj : j = id
    · subst hj
      rw [session?_put hid, hid]
      simp [hendpoint, hremoving]
    · rw [session?_put_of_ne hj]
  removed := by
    intro j y hy hyremoving
    rcases of_session?_put hid hy with ⟨rfl, rfl⟩ | ⟨-, hj⟩
    · rw [hremoving] at hyremoving
      exact hclosed (h.removed j x hid hyremoving)
    · exact h.removed j y hj hyremoving
  flagged := by
    intro j y hy
    rcases of_session?_put hid hy with ⟨rfl, rfl⟩ | ⟨-, hj⟩
    · exact hflagged (h.flagged j x hid)
    · exact h.flagged j y hj

theorem Roster.works (h : Roster s) (hw : Works id s s') : Roster s' := by
  rcases hw with rfl | ⟨x, x', seeds, sent, hid, hx, -, rfl⟩
  · exact h
  · exact (h.put hid hx.endpoint hx.removing hx.isOver hx.flagged).congr rfl rfl

theorem Roster.get?_endpoint (h : Roster s) (hid : s.session? id = some x)
    (hremoving : x.removing = false) : s.table.get? x.endpoint = some id :=
  Table.get?_of_mem h.endpoints ((h.mem_iff x.endpoint id).2 ⟨x, hid, rfl, hremoving⟩)

theorem Roster.mem_ids_iff (h : Roster s) (hid : s.session? id = some x) :
    id ∈ s.table.ids ↔ x.removing = false := by
  constructor
  · intro hmem
    obtain ⟨⟨endpoint, j⟩, hentry, rfl⟩ := List.mem_map.1 hmem
    obtain ⟨y, hy, -, hremoving⟩ := (h.mem_iff endpoint j).1 hentry
    obtain rfl := Option.some.inj (hid.symm.trans hy)
    exact hremoving
  · intro hremoving
    exact List.mem_map_of_mem ((h.mem_iff x.endpoint id).2 ⟨x, hid, rfl, hremoving⟩)

theorem Roster.not_mem_ids (h : Roster s) (hid : s.session? id = some x) (hremoving : x.removing = true) :
    id ∉ s.table.ids := by
  intro hmem
  rw [(h.mem_ids_iff hid).1 hmem] at hremoving
  cases hremoving

theorem Roster.removing_of_not_mem (h : Roster s) (hid : s.session? id = some x) (hmem : id ∉ s.table.ids) :
    x.removing = true := by
  cases hremoving : x.removing with
  | true => rfl
  | false => exact absurd ((h.mem_ids_iff hid).2 hremoving) hmem

/-- Whether a session shuts down is the same by its flag and by its phase. -/
theorem Roster.isOver_eq (h : Roster s) (hid : s.session? id = some x) : x.isOver = x.isClosed :=
  (h.flagged id x hid).symm

/-- The removal of a session that is not shutting down has not begun. -/
theorem Roster.not_removing (h : Roster s) (hid : s.session? id = some x) (hopen : x.isClosed = false) :
    x.removing = false := by
  cases hremoving : x.removing with
  | false => rfl
  | true =>
    rw [← h.isOver_eq hid, h.removed id x hid hremoving] at hopen
    cases hopen

theorem Roster.remove (h : Roster s) (onRemoved : Listener α) (id : SessionId) :
    Roster (s.remove onRemoved id).1 := by
  rcases remove_cases onRemoved s id with ⟨heq, -⟩ | ⟨x, sent, hid, hremoving, -, heq⟩
  · rw [heq]
    exact h
  have hget := h.get?_endpoint hid hremoving
  have hremains := remains_removed x
  have hentries : ((s.remove onRemoved id).1).table.entries =
      s.table.entries.filter fun entry => entry.1 != x.endpoint := by
    rw [heq]
    simp [Server.put, post, Table.remove, hget, Table.erase]
  have hself : (s.remove onRemoved id).1.session? id = some (leaving x).finish := by
    rw [heq]
    exact session?_put (by exact hid) _
  constructor
  · rw [hentries]
    exact (List.filter_sublist.map Prod.fst).nodup h.endpoints
  · intro endpoint j
    rw [hentries, List.mem_filter, h.mem_iff]
    by_cases hj : j = id
    · -- the session itself is gone from its endpoint, and is marked
      subst hj
      rw [hself, hid]
      simp only [Option.some.injEq, exists_eq_left', hremains.removing, Bool.true_eq_false, and_false,
        iff_false, not_and]
      rintro ⟨rfl, -⟩
      simp
    · rw [session?_remove_of_ne onRemoved hj s]
      refine and_iff_left_of_imp fun ⟨y, hy, hendpoint, hyremoving⟩ => ?_
      have hgety := h.get?_endpoint hy hyremoving
      rw [hendpoint] at hgety
      have hne : endpoint ≠ x.endpoint := by
        rintro rfl
        exact hj (Option.some.inj (hgety.symm.trans hget))
      simpa using hne
  · intro j y hy hyremoving
    by_cases hj : j = id
    · subst hj
      rw [hself] at hy
      rw [← Option.some.inj hy]
      rfl
    · rw [session?_remove_of_ne onRemoved hj s] at hy
      exact h.removed j y hy hyremoving
  · intro j y hy
    rcases of_session?_remove hy with ⟨hold, -⟩ | ⟨x', -, -, -, rfl⟩
    · exact h.flagged j y hold
    · rfl

theorem Roster.openSession (h : Roster s) (endpoint : Endpoint) (now : Nat) {opened : Server α}
    (hopen : s.openSession endpoint now = .ok (id, opened)) : Roster opened := by
  rcases of_openSession hopen with ⟨-, rfl⟩ | ⟨hget, rfl, rfl⟩
  · exact h
  constructor
  · simp only [Table.insert, List.map_append, List.map_cons, List.map_nil]
    refine List.nodup_append.2 ⟨h.endpoints, by simp, ?_⟩
    intro a ha b hb
    obtain ⟨entry, hentry, rfl⟩ := List.mem_map.1 ha
    rw [List.mem_singleton.1 hb]
    exact Table.ne_of_get?_none hget hentry
  · intro e j
    simp only [Table.insert, List.mem_append, List.mem_singleton, Prod.mk.injEq, h.mem_iff, session?]
    constructor
    · rintro (⟨y, hy, he, hremoving⟩ | ⟨rfl, rfl⟩)
      · have hlt := (List.getElem?_eq_some_iff.1 hy).1
        exact ⟨y, by rw [List.getElem?_append_left hlt, hy], he, hremoving⟩
      · exact ⟨Session.create e s.config now, by simp, rfl, rfl⟩
    · rintro ⟨y, hy, he, hremoving⟩
      rcases of_getElem?_concat hy with hold | ⟨rfl, rfl⟩
      · exact Or.inl ⟨y, hold, he, hremoving⟩
      · exact Or.inr ⟨he.symm, rfl⟩
  · intro j y hy hremoving
    rcases of_getElem?_concat hy with hold | ⟨-, rfl⟩
    · exact h.removed j y hold hremoving
    · cases hremoving
  · intro j y hy
    rcases of_getElem?_concat hy with hold | ⟨-, rfl⟩
    · exact h.flagged j y hold
    · exact Session.flagged_create endpoint s.config now

theorem Roster.rehash (h : Roster s) (entries : List (Endpoint × SessionId)) :
    Roster (s.rehash entries) := by
  unfold Server.rehash
  split
  · rename_i hperm
    refine ⟨(hperm.map Prod.fst).nodup_iff.2 h.endpoints, fun endpoint id => ?_, h.removed, h.flagged⟩
    exact hperm.mem_iff.trans (h.mem_iff endpoint id)
  · exact h

end Server

/-! ## What the service does -/

namespace Service

open Server

variable {s : Server Realm} {id : SessionId} {x : Session} {galaxyStatus : UInt8}

/-- The message is a well-formed login. -/
def LogsIn (message : Bytes) (body : ClientId) : Prop :=
  ∃ header rest, Message.decodeHeader.run message = (.ok header, rest) ∧
    header.2 = Message.Kind.clientId.opcode ∧
    (Message.Kind.decodeBody .clientId).value rest = .ok body

theorem lookup_handlers {opcode : UInt32} {handler : Handler Realm}
    (h : (handlers galaxyStatus).lookup opcode = some handler) :
    (opcode = Message.Kind.clientId.opcode ∧
        handler = Handler.typed .clientId (login galaxyStatus)) ∨
      (opcode = Message.Kind.sceneReady.opcode ∧
        handler = Handler.typed .sceneReady (fun id _ => sceneReady id)) ∨
      opcode = Message.Kind.heartBeat.opcode ∧ handler = Handler.typed .heartBeat fun _ _ s => s := by
  simp only [handlers, List.lookup_cons, List.lookup_nil] at h
  split at h
  · rename_i hopcode
    exact Or.inl ⟨eq_of_beq hopcode, (Option.some.inj h).symm⟩
  · split at h
    · rename_i hopcode
      exact Or.inr (Or.inl ⟨eq_of_beq hopcode, (Option.some.inj h).symm⟩)
    · split at h
      · rename_i hopcode
        exact Or.inr (Or.inr ⟨eq_of_beq hopcode, (Option.some.inj h).symm⟩)
      · cases h

/-- A message reaches the login or the sign that the scene is loaded, for a session that is not shutting down, or
it changes nothing. -/
theorem act_dispatch_handled (galaxyStatus : UInt8) (codec : Codec) (s : Server Realm) (id : SessionId)
    (message : Bytes) :
    s.act (application galaxyStatus) codec (.dispatch id message) = s ∨
    ∃ x, s.session? id = some x ∧ x.isClosed = false ∧
      ((∃ body, LogsIn message body ∧
          s.act (application galaxyStatus) codec (.dispatch id message) =
            login galaxyStatus id body s) ∨
        s.act (application galaxyStatus) codec (.dispatch id message) = sceneReady id s) := by
  simp only [act, application, Registry.dispatchMessage]
  rcases hheader : Message.decodeHeader.run message with ⟨_ | header, rest⟩
  · exact Or.inl rfl
  simp only [Registry.dispatch]
  cases hlookup : (handlers galaxyStatus).lookup header.2 with
  | none => exact Or.inl rfl
  | some handler =>
    cases hid : s.session? id with
    | none => exact Or.inl rfl
    | some x =>
      cases hopen : x.isClosed with
      | true =>
        left
        simp [hopen]
      | false =>
        dsimp only
        rw [if_neg (by simp [hopen])]
        rcases lookup_handlers hlookup with ⟨hopcode, rfl⟩ | ⟨-, rfl⟩ | ⟨-, rfl⟩
        · simp only [Handler.typed]
          cases hbody : (Message.Kind.decodeBody .clientId).value rest with
          | error e => exact Or.inl rfl
          | ok body =>
            exact Or.inr ⟨x, rfl, hopen, Or.inl ⟨body, ⟨header, rest, hheader, hopcode, hbody⟩, rfl⟩⟩
        · exact Or.inr ⟨x, rfl, hopen, Or.inr rfl⟩
        · exact Or.inl rfl

/-- A login that is accepted evicts the player's session before and binds this one. -/
theorem login_cases (galaxyStatus : UInt8) (id : SessionId) (body : ClientId) (s : Server Realm) :
    login galaxyStatus id body s = s ∨
    ∃ account player, s.app.authorize? body.sessionKey = some (account, player) ∧
      login galaxyStatus id body s = bindPlayer galaxyStatus id account player (evict id player s) := by
  unfold login
  cases hauthorize : s.app.authorize? body.sessionKey with
  | none => exact Or.inl rfl
  | some pair => exact Or.inr ⟨pair.1, pair.2, rfl, rfl⟩

/-- An eviction closes the session that the player is found on, unless this is the one that logs in. -/
theorem evict_cases (id : SessionId) (player : UInt64) (s : Server Realm) :
    (evict id player s = s ∧ ∀ other, s.findPlayer? player = some other → other = id) ∨
    ∃ other, other ≠ id ∧ s.findPlayer? player = some other ∧
      evict id player s = (s.closeSession onRemoved other .newConnectionAttempt).1 := by
  unfold evict
  cases hfind : s.findPlayer? player with
  | none => exact Or.inl ⟨rfl, by simp⟩
  | some other =>
    dsimp only
    split
    · rename_i heq
      refine Or.inl ⟨rfl, fun found hfound => ?_⟩
      rw [← Option.some.inj hfound]
      exact heq
    · rename_i hne
      exact Or.inr ⟨other, hne, rfl, rfl⟩

/-- The session that a login binds. -/
def bound (account : UInt32) (player : UInt64) (message : Bytes) (x : Session) : Session :=
  ({ x with phase := .connected, accountId := account, playerId := player }.queue message).1

theorem remains_bound (account : UInt32) (player : UInt64) (message : Bytes) (x : Session) :
    Session.Remains { x with phase := .connected, accountId := account, playerId := player }
      (bound account player message x) :=
  Session.remains_queue message _

theorem phase_bound (account : UInt32) (player : UInt64) (message : Bytes) (x : Session) :
    (bound account player message x).phase = .connected := rfl

theorem bindPlayer_eq (galaxyStatus : UInt8) (account : UInt32) (player : UInt64)
    (hid : s.session? id = some x) (hopen : x.isOver = false) :
    ∃ message, bindPlayer galaxyStatus id account player s =
      { s with app := s.app.startGame player x.connectionId }.put id
        (bound account player message x) := by
  unfold bindPlayer
  simp only [hid, Session.connect_of_open account player hopen]
  exact ⟨_, rfl⟩

/-- Whether its session takes the login or not, the game is noted. -/
theorem bindPlayer_eq_put (galaxyStatus : UInt8) (account : UInt32) (player : UInt64)
    (hid : s.session? id = some x) :
    ∃ x', bindPlayer galaxyStatus id account player s =
      { s with app := s.app.startGame player x.connectionId }.put id x' ∧
      (x' = x ∨ ∃ message, x' = bound account player message x) := by
  cases hopen : x.isOver with
  | true =>
    have hself := put_self (s := { s with app := s.app.startGame player x.connectionId }) hid
    refine ⟨x, ?_, Or.inl rfl⟩
    simp only [bindPlayer, hid, Session.connect, hopen, if_true, Bool.false_eq_true, if_false, hself]
  | false =>
    obtain ⟨message, hbind⟩ := bindPlayer_eq galaxyStatus account player hid hopen
    exact ⟨_, hbind, Or.inr ⟨message, rfl⟩⟩

theorem sceneReady_cases (id : SessionId) (s : Server Realm) :
    sceneReady id s = s ∨
    ∃ x message, s.session? id = some x ∧ x.playerId ≠ 0 ∧
      sceneReady id s =
        { s with app := s.app.record (.objectReady x.playerId) }.put id (x.queue message).1 := by
  unfold sceneReady
  cases hid : s.session? id with
  | none => exact Or.inl rfl
  | some x =>
    dsimp only
    split
    · exact Or.inl rfl
    · rename_i hplayer
      exact Or.inr ⟨x, _, rfl, hplayer, rfl⟩

/-- All that a message does: nothing, or an accepted login binds its session, or a session that has a player is
told that the scene is loaded. -/
theorem act_dispatch_cases (galaxyStatus : UInt8) (codec : Codec) (s : Server Realm) (id : SessionId)
    (message : Bytes) :
    s.act (application galaxyStatus) codec (.dispatch id message) = s ∨
    (∃ x body account player, s.session? id = some x ∧ x.isClosed = false ∧ LogsIn message body ∧
      s.app.authorize? body.sessionKey = some (account, player) ∧
      s.act (application galaxyStatus) codec (.dispatch id message) =
        bindPlayer galaxyStatus id account player (evict id player s)) ∨
    ∃ x reply, s.session? id = some x ∧ x.isClosed = false ∧ x.playerId ≠ 0 ∧
      s.act (application galaxyStatus) codec (.dispatch id message) =
        { s with app := s.app.record (.objectReady x.playerId) }.put id (x.queue reply).1 := by
  rcases act_dispatch_handled galaxyStatus codec s id message with
    heq | ⟨x, hid, hopen, ⟨body, hbody, heq⟩ | heq⟩
  · exact Or.inl heq
  · rcases login_cases galaxyStatus id body s with hrefused | ⟨account, player, hauthorize, hbind⟩
    · exact Or.inl (heq.trans hrefused)
    · exact Or.inr (Or.inl ⟨x, body, account, player, hid, hopen, hbody, hauthorize, heq.trans hbind⟩)
  · rcases sceneReady_cases id s with hignored | ⟨y, reply, hy, hplayer, hready⟩
    · exact Or.inl (heq.trans hignored)
    · obtain rfl := Option.some.inj (hid.symm.trans hy)
      exact Or.inr (Or.inr ⟨x, reply, hid, hopen, hplayer, heq.trans hready⟩)

end Service

/-! ## The roster of the service -/

namespace Server

open Service

variable {s : Server Realm} {id : SessionId} {x : Session}

theorem Roster.closeSession (h : Roster s) (id : SessionId) (reason : DisconnectReason) :
    Roster (s.closeSession onRemoved id reason).1 :=
  (h.works (works_shut id reason s)).remove onRemoved id

theorem Roster.evict (h : Roster s) (id : SessionId) (player : UInt64) :
    Roster (Service.evict id player s) := by
  rcases evict_cases id player s with ⟨heq, -⟩ | ⟨other, -, -, heq⟩
  · rw [heq]
    exact h
  · rw [heq]
    exact h.closeSession other .newConnectionAttempt

/-- An eviction leaves the session that logs in as it is. -/
theorem session?_evict (id : SessionId) (player : UInt64) (s : Server Realm) :
    (evict id player s).session? id = s.session? id := by
  rcases evict_cases id player s with ⟨heq, -⟩ | ⟨other, hne, -, heq⟩
  · rw [heq]
  · rw [heq]
    exact session?_closeSession_of_ne onRemoved hne.symm _ s

/-- Behind a login its session is connected to the player, on the connection that it was on. -/
theorem session?_bindPlayer (galaxyStatus : UInt8) (account : UInt32) (player : UInt64)
    (hid : s.session? id = some x) (hopen : x.isOver = false) :
    ∃ y, (bindPlayer galaxyStatus id account player s).session? id = some y ∧ y.playerId = player ∧
      y.connectionId = x.connectionId := by
  obtain ⟨reply, hbind⟩ := bindPlayer_eq galaxyStatus account player hid hopen
  refine ⟨bound account player reply x, ?_, (remains_bound account player reply x).playerId, rfl⟩
  rw [hbind]
  exact session?_put ((session?_withApp _ _ id).trans hid) _

/-- No login raises the flag of its session. -/
theorem isClosed_bindPlayer (galaxyStatus : UInt8) (account : UInt32) (player : UInt64)
    (hid : s.session? id = some x) :
    ∃ y, (bindPlayer galaxyStatus id account player s).session? id = some y ∧ y.isClosed = x.isClosed := by
  obtain ⟨y, hbind, hy⟩ := bindPlayer_eq_put galaxyStatus account player hid
  refine ⟨y, ?_, ?_⟩
  · rw [hbind]
    exact session?_put ((session?_withApp s _ id).trans hid) y
  · rcases hy with rfl | ⟨message, rfl⟩ <;> rfl

theorem session?_bindPlayer_of_ne (galaxyStatus : UInt8) (account : UInt32) (player : UInt64)
    (hid : s.session? id = some x) {j : SessionId} (hj : j ≠ id) :
    (bindPlayer galaxyStatus id account player s).session? j = s.session? j := by
  obtain ⟨y, hbind, -⟩ := bindPlayer_eq_put galaxyStatus account player hid
  rw [hbind]
  exact session?_put_of_ne hj _ y

theorem Roster.bindPlayer (h : Roster s) (hid : s.session? id = some x) (hopen : x.isOver = false)
    (galaxyStatus : UInt8) (account : UInt32) (player : UInt64) :
    Roster (Service.bindPlayer galaxyStatus id account player s) := by
  obtain ⟨message, hbind⟩ := bindPlayer_eq galaxyStatus account player hid hopen
  have hbound := remains_bound account player message x
  have hendpoint : (bound account player message x).endpoint = x.endpoint := hbound.endpoint
  have hremoving : (bound account player message x).removing = x.removing := hbound.removing
  have hclosed : x.isOver = true → (bound account player message x).isOver = true := by
    intro hclosed
    rw [hopen] at hclosed
    cases hclosed
  have hflagged : x.Flagged → (bound account player message x).Flagged := by
    intro hflagged
    have hconnected := hflagged.connect account player
    rw [Session.connect_of_open account player hopen] at hconnected
    exact hbound.flagged hconnected
  rw [hbind]
  exact (h.withApp _).put ((session?_withApp _ _ id).trans hid) hendpoint hremoving hclosed hflagged

/-- Every act of the service preserves the roster. -/
theorem Roster.act (h : Roster s) (galaxyStatus : UInt8) (codec : Codec) (a : Act) :
    Roster (s.act (application galaxyStatus) codec a) := by
  cases a with
  | enter endpoint now =>
    simp only [Server.act]
    split
    · rename_i hopen
      exact h.openSession endpoint now hopen
    · exact h
  | accept id now bytes => exact h.works (works_accept codec id now bytes s)
  | dispatch id message =>
    rcases act_dispatch_cases galaxyStatus codec s id message with
      heq | ⟨x, body, account, player, hid, hopen, -, -, heq⟩ | ⟨x, reply, hid, -, -, heq⟩
    · rw [heq]
      exact h
    · rw [heq]
      exact (h.evict id player).bindPlayer ((session?_evict id player s).trans hid)
        ((h.isOver_eq hid).trans hopen) galaxyStatus account player
    · have hqueued := x.remains_queue reply
      rw [heq]
      exact (h.withApp _).put ((session?_withApp s _ id).trans hid) hqueued.endpoint hqueued.removing
        hqueued.isOver hqueued.flagged
  | maintain id now => exact h.works (works_maintain id now s)
  | shut id reason => exact h.works (works_shut id reason s)
  | remove id => exact h.remove onRemoved id
  | rehash entries => exact h.rehash entries

end Server

end GameGateway
