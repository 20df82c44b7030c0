import GameGateway.Proofs.Roster

/-!
# The operations of a server

Whatever a server does, and whatever its handlers do to it, comes down to a few operations: a session is created, is
called, or is removed, the application changes its own state, or the table changes the order of its entries. An
application has a script if its handlers do nothing else; then a run is a list of operations, and
`Server.run_eq_operateAll` says that it is these one after the other.

## Implementation notes

The acts of an event leave a message to its handler as a whole. Here a handler is opened as well, so that a removal
within a handler is an operation like any other. A script depends on the server that the handler finds, because a
handler may look at what it did before; handlers that call the server back are covered, since their calls are
operations too.
-/

namespace GameGateway

namespace Server

variable {α : Type} {s s' : Server α} {id j : SessionId} {x x' : Session}

/-! ## Operations -/

/-- An operation on a server whose application has a state of type `α`. -/
inductive Op (α : Type) where
  | enter (endpoint : Endpoint) (now : Nat)
  | accept (id : SessionId) (now : Nat) (bytes : Bytes)
  | maintain (id : SessionId) (now : Nat)
  | shut (id : SessionId) (reason : DisconnectReason)
  | connect (id : SessionId) (account : UInt32) (player : UInt64)
  | queue (id : SessionId) (message : Bytes)
  | remove (id : SessionId)
  /-- The application changes its own state. -/
  | tell (change : α → α)
  | rehash (entries : List (Endpoint × SessionId))

/-- The session that an operation is about. -/
def Op.subject? : Op α → Option SessionId
  | enter _ _ | tell _ | rehash _ => none
  | accept id _ _ | maintain id _ | shut id _ | connect id _ _ | queue id _ | remove id => some id

/-- A session is called and sends nothing. -/
def change (id : SessionId) (call : Session → Session) (s : Server α) : Server α :=
  match s.session? id with
  | some session => s.put id (call session)
  | none => s

/-- The server after an operation. -/
def operate (onRemoved : Listener α) (codec : Codec) (s : Server α) : Op α → Server α
  | .enter endpoint now =>
    match s.openSession endpoint now with
    | .ok (_, s) => s
    | .error _ => s
  | .accept id now bytes => s.accept codec id now bytes
  | .maintain id now => s.maintain id now
  | .shut id reason => (s.shut id reason).1
  | .connect id account player => s.change id fun session => (session.connect account player).1
  | .queue id message => s.change id fun session => (session.queue message).1
  | .remove id => (s.remove onRemoved id).1
  | .tell change => { s with app := change s.app }
  | .rehash entries => s.rehash entries

/-- The server after a list of operations. -/
def operateAll (onRemoved : Listener α) (codec : Codec) (s : Server α) (ops : List (Op α)) :
    Server α :=
  ops.foldl (operate onRemoved codec) s

variable {onRemoved : Listener α} {codec : Codec}

@[simp] theorem operateAll_nil (s : Server α) : s.operateAll onRemoved codec [] = s := rfl

@[simp] theorem operateAll_cons (s : Server α) (op : Op α) (ops : List (Op α)) :
    s.operateAll onRemoved codec (op :: ops) =
      (s.operate onRemoved codec op).operateAll onRemoved codec ops := rfl

theorem operateAll_append (s : Server α) (first rest : List (Op α)) :
    s.operateAll onRemoved codec (first ++ rest) =
      (s.operateAll onRemoved codec first).operateAll onRemoved codec rest :=
  List.foldl_append

/-- What every operation preserves a list of operations preserves. -/
theorem operateAll_invariant {P : Server α → Prop} {s : Server α} (hs : P s)
    (hop : ∀ s op, P s → P (s.operate onRemoved codec op)) (ops : List (Op α)) :
    P (s.operateAll onRemoved codec ops) := by
  induction ops generalizing s with
  | nil => exact hs
  | cons op ops ih => exact ih (hop s op hs)

/-! ## Scripts -/

/-- The handlers of an application, opened: the operations that a message makes them perform. -/
structure Script (app : Application α) (codec : Codec) where
  ops : SessionId → Bytes → Server α → List (Op α)
  performed : ∀ id message s s', app.handlers.dispatchMessage id message s = .ok s' →
    s' = s.operateAll app.onRemoved codec (ops id message s)

variable {app : Application α}

/-- The operations of an act. -/
def Act.ops (script : Script app codec) (s : Server α) : Act → List (Op α)
  | .enter endpoint now => [.enter endpoint now]
  | .accept id now bytes => [.accept id now bytes]
  | .dispatch id message =>
    match app.handlers.dispatchMessage id message s with
    | .ok _ => script.ops id message s
    | .error _ => []
  | .maintain id now => [.maintain id now]
  | .shut id reason => [.shut id reason]
  | .remove id => [.remove id]
  | .rehash entries => [.rehash entries]

theorem act_eq_operateAll (script : Script app codec) (s : Server α) (a : Act) :
    s.act app codec a = s.operateAll app.onRemoved codec (a.ops script s) := by
  cases a with
  | dispatch id message =>
    simp only [act, Act.ops]
    cases hdispatch : app.handlers.dispatchMessage id message s with
    | ok next => exact script.performed id message s next hdispatch
    | error e => rfl
  | _ => rfl

/-- The operations of a list of acts. -/
def actOps (script : Script app codec) : Server α → List Act → List (Op α)
  | _, [] => []
  | s, a :: acts => a.ops script s ++ actOps script (s.act app codec a) acts

theorem perform_eq_operateAll (script : Script app codec) (s : Server α) (acts : List Act) :
    s.perform app codec acts = s.operateAll app.onRemoved codec (s.actOps script acts) := by
  induction acts generalizing s with
  | nil => rfl
  | cons a acts ih => rw [perform_cons, actOps, operateAll_append, ← act_eq_operateAll, ih]

/-- The operations of a run. -/
def runOps (script : Script app codec) : Server α → List Event → List (Op α)
  | _, [] => []
  | s, event :: events =>
    s.actOps script (s.acts app codec event) ++ runOps script (s.step app codec event) events

/-- A run is its operations. -/
theorem run_eq_operateAll (script : Script app codec) (s : Server α) (events : List Event) :
    s.run app codec events = s.operateAll app.onRemoved codec (s.runOps script events) := by
  induction events generalizing s with
  | nil => rfl
  | cons event events ih =>
    rw [runOps, operateAll_append, ← perform_eq_operateAll, ← step_eq_perform, ← ih]
    rfl

/-- What every operation preserves every act preserves. -/
theorem act_invariant (script : Script app codec) {P : Server α → Prop} {s : Server α} (hs : P s)
    (hop : ∀ s op, P s → P (s.operate app.onRemoved codec op)) (a : Act) : P (s.act app codec a) := by
  rw [act_eq_operateAll script]
  exact operateAll_invariant hs hop _

/-! ## Calls of a session -/

theorem post_nil (s : Server α) (endpoint : Endpoint) : s.post endpoint [] = s := by simp [post]

/-- What a call leaves of a session that takes it. -/
structure Keeps (x x' : Session) : Prop where
  endpoint : x'.endpoint = x.endpoint
  removing : x'.removing = x.removing
  phase : x'.phase ≠ .closed
  flagged : x.Flagged → x'.Flagged

theorem keeps_of_remains (h : x.Remains x') (hphase : x'.phase ≠ .closed) : Keeps x x' :=
  ⟨h.endpoint, h.removing, hphase, h.flagged⟩

/-- A session that is not shutting down is called: it stays at its endpoint and is not closed. -/
def Alters (id : SessionId) (s s' : Server α) : Prop :=
  s' = s ∨ ∃ x x' seeds sent, s.session? id = some x ∧ x.isOver = false ∧ Keeps x x' ∧
    s' = ({ s with seeds }.put id x').post x.endpoint sent

/-- One that is shutting down takes no call, and another one is not closed by it. -/
theorem alters_of_call (call : Session → Session) (seeds : Session → List UInt32)
    (sent : Session → List Outbound)
    (hclosed : ∀ x : Session, x.isOver = true → call x = x ∧ seeds x = s.seeds ∧ sent x = [])
    (hopen : ∀ x : Session, x.isOver = false → Keeps x (call x))
    (hsome : ∀ x, s.session? id = some x →
      s' = ({ s with seeds := seeds x }.put id (call x)).post x.endpoint (sent x))
    (hnone : s.session? id = none → s' = s) : Alters id s s' := by
  cases hid : s.session? id with
  | none => exact Or.inl (hnone hid)
  | some x =>
    cases hcase : x.isOver with
    | true =>
      obtain ⟨hcall, hseeds, hsent⟩ := hclosed x hcase
      left
      rw [hsome x hid, hcall, hseeds, hsent, post_nil]
      exact put_self hid
    | false =>
      exact Or.inr ⟨x, call x, seeds x, sent x, hid, hcase, hopen x hcase, hsome x hid⟩

theorem alters_accept (codec : Codec) (id : SessionId) (now : Nat) (bytes : Bytes) (s : Server α) :
    Alters id s (s.accept codec id now bytes) := by
  refine alters_of_call (fun x => (x.handleDrawing codec now s.seeds bytes).1.session)
    (fun x => (x.handleDrawing codec now s.seeds bytes).2)
    (fun x => (x.handleDrawing codec now s.seeds bytes).1.sent) (fun x hclosed => ?_) (fun x hopen => ?_)
    (fun x hid => ?_) fun hid => ?_
  · rw [Session.handleDrawing_of_closed codec now s.seeds bytes hclosed]
    exact ⟨rfl, rfl, rfl⟩
  · exact keeps_of_remains (x.remains_handle codec now (s.seeds.headD 0) bytes)
      (Session.phase_handle_ne_closed codec now _ bytes (Session.phase_ne_closed hopen))
  · simp only [accept, hid]
  · simp only [accept, hid]

theorem alters_maintain (id : SessionId) (now : Nat) (s : Server α) :
    Alters id s (s.maintain id now) := by
  refine alters_of_call (fun x => (x.update now).session) (fun _ => s.seeds) (fun x => (x.update now).sent)
    (fun x hclosed => ?_) (fun x hopen => ?_) (fun x hid => ?_) fun hid => ?_
  · obtain ⟨hsession, hsent⟩ := Session.update_of_closed now hclosed
    exact ⟨hsession, rfl, hsent⟩
  · apply keeps_of_remains (x.remains_update now)
    obtain ⟨sender, hupdate⟩ := x.update_session now
    rw [hupdate]
    exact Session.phase_ne_closed hopen
  · simp only [maintain, hid]
  · simp only [maintain, hid]

theorem alters_shut (id : SessionId) (reason : DisconnectReason) (s : Server α) :
    Alters id s (s.shut id reason).1 := by
  refine alters_of_call (fun x => (x.close reason).1) (fun _ => s.seeds) (fun x => (x.close reason).2.1)
    (fun x hclosed => ?_) (fun x hopen => ?_) (fun x hid => ?_) fun hid => ?_
  · simp [Session.close, hclosed]
  · apply keeps_of_remains (x.remains_close reason)
    simp [Session.close, Session.disconnect, hopen]
  · simp only [shut, hid]
  · simp only [shut, hid]

/-- A call that sends nothing. -/
theorem alters_change {call : Session → Session}
    (hclosed : ∀ x : Session, x.isOver = true → call x = x)
    (hopen : ∀ x : Session, x.isOver = false → Keeps x (call x)) (id : SessionId) (s : Server α) :
    Alters id s (s.change id call) := by
  refine alters_of_call call (fun _ => s.seeds) (fun _ => []) (fun x hx => ⟨hclosed x hx, rfl, rfl⟩) hopen
    (fun x hid => ?_) fun hid => ?_
  · simp only [change, hid, post_nil]
  · simp only [change, hid]

theorem alters_connect (id : SessionId) (account : UInt32) (player : UInt64) (s : Server α) :
    Alters id s (s.change id fun session => (session.connect account player).1) := by
  refine alters_change (fun x hclosed => ?_) (fun x hopen => ?_) id s
  · simp [Session.connect, hclosed]
  · have hflagged := fun h : x.Flagged => h.connect account player
    rw [Session.connect_of_open account player hopen] at hflagged ⊢
    exact ⟨rfl, rfl, by simp, hflagged⟩

theorem alters_queue (id : SessionId) (message : Bytes) (s : Server α) :
    Alters id s (s.change id fun session => (session.queue message).1) := by
  refine alters_change (fun x hclosed => ?_) (fun x hopen => ?_) id s
  · simp [Session.queue, hclosed]
  · apply keeps_of_remains (x.remains_queue message)
    simp [Session.queue, hopen, Session.phase_ne_closed hopen]

/-! ## What an operation does -/

/-- No session is concerned; the table lists the same entries. -/
structure Rests (s s' : Server α) : Prop where
  sessions : s'.sessions = s.sessions
  limit : s'.table.limit = s.table.limit
  entries : s'.table.entries.Perm s.table.entries

/-- A session is created at an endpoint that has none, in a table that has room. -/
structure Enters (endpoint : Endpoint) (now : Nat) (s s' : Server α) : Prop where
  vacant : s.table.get? endpoint = none
  room : s.table.isFull = false
  eq : s' = { s with
    sessions := s.sessions ++ [Session.create endpoint s.config now]
    table := s.table.insert endpoint s.sessions.length }

theorem rests_rehash (entries : List (Endpoint × SessionId)) (s : Server α) :
    Rests s (s.rehash entries) := by
  unfold rehash
  split
  · rename_i hperm
    exact ⟨rfl, rfl, hperm⟩
  · exact ⟨rfl, rfl, List.Perm.refl _⟩

theorem enters_or_rests (onRemoved : Listener α) (codec : Codec) (endpoint : Endpoint) (now : Nat)
    (s : Server α) :
    Enters endpoint now s (s.operate onRemoved codec (.enter endpoint now)) ∨
      s.operate onRemoved codec (.enter endpoint now) = s := by
  simp only [operate, openSession]
  cases hget : s.table.get? endpoint with
  | some id => exact Or.inr rfl
  | none =>
    cases hfull : s.table.isFull with
    | true => exact Or.inr rfl
    | false => exact Or.inl ⟨hget, hfull, rfl⟩

/-- An operation but a removal calls a session, creates one, or concerns none. -/
theorem operate_cases (onRemoved : Listener α) (codec : Codec) (s : Server α) {op : Op α}
    (hop : ∀ id, op ≠ .remove id) :
    (∃ id, op.subject? = some id ∧ Alters id s (s.operate onRemoved codec op)) ∨
    op.subject? = none ∧
      ((∃ endpoint now, Enters endpoint now s (s.operate onRemoved codec op)) ∨
        Rests s (s.operate onRemoved codec op)) := by
  cases op with
  | enter endpoint now =>
    right
    rcases enters_or_rests onRemoved codec endpoint now s with henters | heq
    · exact ⟨rfl, Or.inl ⟨endpoint, now, henters⟩⟩
    · refine ⟨rfl, Or.inr ?_⟩
      rw [heq]
      exact ⟨rfl, rfl, List.Perm.refl _⟩
  | accept id now bytes => exact Or.inl ⟨id, rfl, alters_accept codec id now bytes s⟩
  | maintain id now => exact Or.inl ⟨id, rfl, alters_maintain id now s⟩
  | shut id reason => exact Or.inl ⟨id, rfl, alters_shut id reason s⟩
  | connect id account player => exact Or.inl ⟨id, rfl, alters_connect id account player s⟩
  | queue id message => exact Or.inl ⟨id, rfl, alters_queue id message s⟩
  | remove id => exact absurd rfl (hop id)
  | tell change => exact Or.inr ⟨rfl, Or.inr ⟨rfl, rfl, List.Perm.refl _⟩⟩
  | rehash entries => exact Or.inr ⟨rfl, Or.inr (rests_rehash entries s)⟩

end Server

/-! ## The script of the service -/

namespace Service

open Server

/-- An eviction shuts the player's session before down and removes it. -/
def evictOps (id : SessionId) (player : UInt64) (s : Server Realm) : List (Op Realm) :=
  match s.findPlayer? player with
  | some other => if other = id then [] else [.shut other .newConnectionAttempt, .remove other]
  | none => []

theorem evict_eq_operateAll (codec : Codec) (id : SessionId) (player : UInt64) (s : Server Realm) :
    evict id player s = s.operateAll onRemoved codec (evictOps id player s) := by
  unfold evict evictOps
  cases s.findPlayer? player with
  | none => rfl
  | some other =>
    dsimp only
    split
    · rfl
    · rfl

/-- A login that is accepted notes the game, connects the session and queues the answer. -/
def bindOps (galaxyStatus : UInt8) (id : SessionId) (account : UInt32) (player : UInt64)
    (s : Server Realm) : List (Op Realm) :=
  match s.session? id with
  | some session =>
    let app := s.app.startGame player session.connectionId
    [.tell (Realm.startGame · player session.connectionId), .connect id account player,
      .queue id (Message.encode .clientPermissions (permissions galaxyStatus app account))]
  | none => []

theorem bindPlayer_eq_operateAll {galaxyStatus : UInt8} (codec : Codec) {id : SessionId} {account : UInt32}
    {player : UInt64} {s : Server Realm} {x : Session} (hid : s.session? id = some x) :
    bindPlayer galaxyStatus id account player s =
      s.operateAll onRemoved codec (bindOps galaxyStatus id account player s) := by
  cases hopen : x.isOver with
  | true =>
    -- the session takes neither call, and only the game is noted
    have hself := put_self (s := { s with app := s.app.startGame player x.connectionId }) hid
    simp only [bindPlayer, bindOps, hid, Session.connect, Session.queue, hopen, operateAll_cons, operateAll_nil,
      operate, change, session?_withApp, if_true, Bool.false_eq_true, if_false, hself]
  | false =>
    simp only [bindPlayer, bindOps, hid, Session.connect_of_open account player hopen, operateAll_cons, operateAll_nil,
      operate, change, session?_withApp, if_true, Session.send]
    rw [session?_put (by exact hid)]
    simp [Server.put]

/-- The sign that the scene is loaded is said back, and the simulation is told. -/
def sceneReadyOps (id : SessionId) (s : Server Realm) : List (Op Realm) :=
  match s.session? id with
  | some session =>
    if session.playerId = 0 then []
    else [.queue id (Message.encode .sceneReady ()), .tell (Realm.record · (.objectReady session.playerId))]
  | none => []

theorem sceneReady_eq_operateAll (codec : Codec) (id : SessionId) (s : Server Realm) :
    sceneReady id s = s.operateAll onRemoved codec (sceneReadyOps id s) := by
  unfold sceneReady sceneReadyOps
  cases hid : s.session? id with
  | none => rfl
  | some x =>
    dsimp only
    split
    · rfl
    · simp only [operateAll_cons, operateAll_nil, operate, change, hid]
      rfl

/-- The operations of a login. -/
def loginOps (galaxyStatus : UInt8) (id : SessionId) (message : ClientId) (s : Server Realm) :
    List (Op Realm) :=
  match s.app.authorize? message.sessionKey with
  | some (account, player) =>
    evictOps id player s ++ bindOps galaxyStatus id account player (evict id player s)
  | none => []

/-- The operations of a message that comes on a session. -/
def messageOps (galaxyStatus : UInt8) (id : SessionId) (message : Bytes) (s : Server Realm) :
    List (Op Realm) :=
  match s.session? id, Message.decodeHeader.run message with
  | some _, (.ok (_, opcode), rest) =>
    if opcode = Message.Kind.clientId.opcode then
      match (Message.Kind.decodeBody .clientId).value rest with
      | .ok body => loginOps galaxyStatus id body s
      | .error _ => []
    else if opcode = Message.Kind.sceneReady.opcode then sceneReadyOps id s
    else []
  | _, _ => []

theorem login_eq_operateAll {galaxyStatus : UInt8} (codec : Codec) {id : SessionId} (body : ClientId)
    {s : Server Realm} {x : Session} (hid : s.session? id = some x) :
    login galaxyStatus id body s = s.operateAll onRemoved codec (loginOps galaxyStatus id body s) := by
  unfold login loginOps
  cases s.app.authorize? body.sessionKey with
  | none => rfl
  | some pair =>
    dsimp only
    rw [operateAll_append, ← evict_eq_operateAll]
    exact bindPlayer_eq_operateAll codec ((session?_evict id pair.2 s).trans hid)

/-- The handlers of the service do nothing but these operations. -/
theorem dispatchMessage_eq_operateAll {galaxyStatus : UInt8} (codec : Codec) {id : SessionId} {message : Bytes}
    {s s' : Server Realm} (h : (handlers galaxyStatus).dispatchMessage id message s = .ok s') :
    s' = s.operateAll onRemoved codec (messageOps galaxyStatus id message s) := by
  rcases hheader : Message.decodeHeader.run message with ⟨_ | ⟨count, opcode⟩, rest⟩
  · simp [Registry.dispatchMessage, hheader] at h
  simp only [Registry.dispatchMessage, hheader, Registry.dispatch] at h
  cases hlookup : (handlers galaxyStatus).lookup opcode with
  | none => simp [hlookup] at h
  | some handler =>
    cases hid : s.session? id with
    | none =>
      simp only [hlookup, hid] at h
      simp only [messageOps, hid, operateAll_nil]
      exact (Except.ok.inj h).symm
    | some x =>
      cases hopen : x.isClosed with
      | true => simp [hlookup, hid, hopen] at h
      | false =>
        simp only [hlookup, hid, hopen, Bool.false_eq_true, if_false] at h
        simp only [messageOps, hid, hheader]
        rcases lookup_handlers hlookup with ⟨rfl, rfl⟩ | ⟨rfl, rfl⟩ | ⟨rfl, rfl⟩
        · cases hbody : (Message.Kind.decodeBody .clientId).value rest with
          | error e => simp [Handler.typed, hbody] at h
          | ok body =>
            simp only [Handler.typed, hbody] at h
            exact (Except.ok.inj h).symm.trans (login_eq_operateAll codec body hid)
        · exact (Except.ok.inj h).symm.trans (sceneReady_eq_operateAll codec id s)
        · exact (Except.ok.inj h).symm

/-- The service has a script. -/
def script (galaxyStatus : UInt8) (codec : Codec) : Script (application galaxyStatus) codec where
  ops := messageOps galaxyStatus
  performed := fun _ _ _ _ h => dispatchMessage_eq_operateAll codec h

end Service

end GameGateway
