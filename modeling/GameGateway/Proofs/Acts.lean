import GameGateway.Server.Dispatch

/-!
# The acts of a server

An event is one call of a server. It is carried out as a list of acts, each about one session at most, and
`Server.step_eq_perform` says that an event is its acts one after the other and nothing else. The history of a
run is the list of its moments, an act with the server before and after it: what every act preserves holds
after every run, and what a session did before is a statement on the moments.

## Implementation notes

The acts of an event depend on the server, because the messages that a datagram makes deliverable do. A
message that no handler takes is no act. Nothing is said on the order in which a table lists its entries, so
that it may change between any two calls; `Event.rehash` is that change.
-/

namespace GameGateway.Server

variable {α : Type}

/-- A call of a server, or of a session that it keeps. -/
inductive Event where
  | datagram (now : Nat) (endpoint : Endpoint) (bytes : Bytes)
  | tick (now : Nat)
  /-- A session is shut down past the server. -/
  | shut (id : SessionId) (reason : DisconnectReason)
  | close (id : SessionId) (reason : DisconnectReason)
  | remove (id : SessionId)
  | closeAll
  /-- The table comes to list its entries in another order. -/
  | rehash (entries : List (Endpoint × SessionId))

/-- The server with the entries of its table in the given order, if they are the same entries. -/
def rehash (entries : List (Endpoint × SessionId)) (s : Server α) : Server α :=
  if entries.Perm s.table.entries then { s with table := { s.table with entries } } else s

/-- The server after an event. -/
def step (app : Application α) (codec : Codec) (s : Server α) : Event → Server α
  | .datagram now endpoint bytes => s.handleDatagram app codec now endpoint bytes
  | .tick now => s.tick app.onRemoved now
  | .shut id reason => (s.shut id reason).1
  | .close id reason => (s.closeSession app.onRemoved id reason).1
  | .remove id => (s.remove app.onRemoved id).1
  | .closeAll => s.closeAll app.onRemoved
  | .rehash entries => s.rehash entries

/-- The server after a list of events. -/
def run (app : Application α) (codec : Codec) (s : Server α) (events : List Event) : Server α :=
  events.foldl (step app codec) s

/-! ## Acts -/

/-- A part of an event. -/
inductive Act where
  | enter (endpoint : Endpoint) (now : Nat)
  | accept (id : SessionId) (now : Nat) (bytes : Bytes)
  | dispatch (id : SessionId) (message : Bytes)
  | maintain (id : SessionId) (now : Nat)
  | shut (id : SessionId) (reason : DisconnectReason)
  | remove (id : SessionId)
  | rehash (entries : List (Endpoint × SessionId))

/-- The session that an act is about. -/
def Act.subject? : Act → Option SessionId
  | enter _ _ | rehash _ => none
  | accept id _ _ | dispatch id _ | maintain id _ | shut id _ | remove id => some id

/-- A session takes a datagram; the messages in it are not dispatched yet. -/
def accept (codec : Codec) (id : SessionId) (now : Nat) (bytes : Bytes) (s : Server α) : Server α :=
  match s.session? id with
  | some session =>
    let (reaction, seeds) := session.handleDrawing codec now s.seeds bytes
    ({ s with seeds }.put id reaction.session).post session.endpoint reaction.sent
  | none => s

/-- A session gets its maintenance pass; it is not removed yet. -/
def maintain (id : SessionId) (now : Nat) (s : Server α) : Server α :=
  match s.session? id with
  | some session =>
    let tick := session.update now
    (s.put id tick.session).post session.endpoint tick.sent
  | none => s

/-- The server after an act. -/
def act (app : Application α) (codec : Codec) (s : Server α) : Act → Server α
  | .enter endpoint now =>
    match s.openSession endpoint now with
    | .ok (_, s) => s
    | .error _ => s
  | .accept id now bytes => s.accept codec id now bytes
  | .dispatch id message =>
    match app.handlers.dispatchMessage id message s with
    | .ok s => s
    | .error _ => s
  | .maintain id now => s.maintain id now
  | .shut id reason => (s.shut id reason).1
  | .remove id => (s.remove app.onRemoved id).1
  | .rehash entries => s.rehash entries

/-- The server after a list of acts. -/
def perform (app : Application α) (codec : Codec) (s : Server α) (acts : List Act) : Server α :=
  acts.foldl (act app codec) s

variable {app : Application α} {codec : Codec}

@[simp] theorem perform_nil (s : Server α) : s.perform app codec [] = s := rfl

@[simp] theorem perform_cons (s : Server α) (a : Act) (acts : List Act) :
    s.perform app codec (a :: acts) = (s.act app codec a).perform app codec acts := rfl

theorem perform_append (s : Server α) (first rest : List Act) :
    s.perform app codec (first ++ rest) = (s.perform app codec first).perform app codec rest :=
  List.foldl_append

/-! ## The acts of an event -/

/-- Shuts a session down and removes it. -/
def closing (id : SessionId) (reason : DisconnectReason) : List Act := [.shut id reason, .remove id]

theorem perform_closing (s : Server α) (id : SessionId) (reason : DisconnectReason) :
    s.perform app codec (closing id reason) = (s.closeSession app.onRemoved id reason).1 := rfl

/-- The acts for each of the given sessions, one session after the other. -/
def serially (app : Application α) (codec : Codec) (acts : SessionId → Server α → List Act) :
    List SessionId → Server α → List Act
  | [], _ => []
  | id :: ids, s => acts id s ++ serially app codec acts ids (s.perform app codec (acts id s))

theorem perform_serially {acts : SessionId → Server α → List Act}
    {whole : Server α → SessionId → Server α}
    (h : ∀ s id, s.perform app codec (acts id s) = whole s id) (ids : List SessionId) (s : Server α) :
    s.perform app codec (serially app codec acts ids s) = ids.foldl whole s := by
  induction ids generalizing s with
  | nil => rfl
  | cons id ids ih => rw [serially, perform_append, h, ih, List.foldl_cons]

/-- The removal of a session that a datagram supersedes. -/
def superseding (s : Server α) (endpoint : Endpoint) (bytes : Bytes) : List Act :=
  match s.table.get? endpoint with
  | some id => if (s.session? id).any (Session.isSupersededBy bytes) then [.remove id] else []
  | none => []

theorem perform_superseding (s : Server α) (endpoint : Endpoint) (bytes : Bytes) :
    s.perform app codec (s.superseding endpoint bytes) = s.supersede app.onRemoved endpoint bytes := by
  unfold superseding supersede
  cases s.table.get? endpoint with
  | none => rfl
  | some id =>
    dsimp only
    cases hid : s.session? id with
    | none => rfl
    | some session =>
      dsimp only [Option.any_some]
      split <;> rfl

/-- The dispatch of messages, up to the first that finds the session shutting down. -/
def dispatches (app : Application α) (id : SessionId) : List Bytes → Server α → List Act
  | [], _ => []
  | message :: messages, s =>
    match app.handlers.dispatchMessage id message s with
    | .ok s => .dispatch id message :: dispatches app id messages s
    | .error (.sessionClosed _) => []
    | .error _ => dispatches app id messages s

theorem perform_dispatches (id : SessionId) (messages : List Bytes) (s : Server α) :
    s.perform app codec (dispatches app id messages s) =
      app.handlers.dispatchAll id messages s := by
  induction messages generalizing s with
  | nil => rfl
  | cons message messages ih =>
    rw [dispatches, Registry.dispatchAll]
    cases hdispatch : app.handlers.dispatchMessage id message s with
    | ok next =>
      have hact : s.act app codec (.dispatch id message) = next := by simp only [act, hdispatch]
      simp only [perform_cons, hact, ih]
    | error e =>
      cases e with
      | sessionClosed endpoint => rfl
      | _ => exact ih s

/-- The removal of a session that has started to shut down. -/
def reaping (s : Server α) (id : SessionId) : List Act :=
  if (s.session? id).any Session.isClosed then [.remove id] else []

/-- What a session does with a datagram: it takes it, and the messages are dispatched. -/
def receiving (app : Application α) (codec : Codec) (id : SessionId) (now : Nat) (bytes : Bytes)
    (s : Server α) : List Act :=
  match s.session? id with
  | some session =>
    let accepted := s.accept codec id now bytes
    .accept id now bytes ::
      match (session.handleDrawing codec now s.seeds bytes).1.result with
      | .error _ => closing id .protocolViolation
      | .ok messages =>
        dispatches app id messages accepted ++
          (app.handlers.dispatchAll id messages accepted).reaping id
  | none => []

theorem perform_receiving (id : SessionId) (now : Nat) (bytes : Bytes) (s : Server α) :
    s.perform app codec (s.receiving app codec id now bytes) = s.receive app codec now id bytes := by
  unfold receiving receive
  cases hid : s.session? id with
  | none => rfl
  | some session =>
    have haccept : s.act app codec (.accept id now bytes) =
        ({ s with seeds := (session.handleDrawing codec now s.seeds bytes).2 }.put id
          (session.handleDrawing codec now s.seeds bytes).1.session).post session.endpoint
          (session.handleDrawing codec now s.seeds bytes).1.sent := by
      simp only [act, accept, hid]
    dsimp only
    rw [perform_cons, ← haccept]
    cases (session.handleDrawing codec now s.seeds bytes).1.result with
    | error v => rfl
    | ok messages =>
      dsimp only
      rw [perform_append]
      have haccepted : s.accept codec id now bytes = s.act app codec (.accept id now bytes) := rfl
      rw [haccepted, perform_dispatches, reaping]
      split <;> rfl

/-- What the maintenance of a session does: it may be given up. -/
def maintaining (id : SessionId) (now : Nat) (s : Server α) : List Act :=
  match s.session? id with
  | some session =>
    .maintain id now ::
      match (session.update now).health with
      | .alive => []
      | .timedOut => closing id .timeout
      | .resendExhausted => closing id .unacknowledgedTimeout
      | .disconnecting | .closed => [.remove id]
  | none => []

theorem perform_maintaining (id : SessionId) (now : Nat) (s : Server α) :
    s.perform app codec (s.maintaining id now) = s.tickSession app.onRemoved now id := by
  unfold maintaining tickSession
  cases hid : s.session? id with
  | none => rfl
  | some session =>
    have hmaintain : s.act app codec (.maintain id now) =
        (s.put id (session.update now).session).post session.endpoint (session.update now).sent := by
      simp only [act, maintain, hid]
    dsimp only
    rw [perform_cons, hmaintain]
    cases (session.update now).health <;> rfl

/-- The acts of an event. -/
def acts (app : Application α) (codec : Codec) (s : Server α) : Event → List Act
  | .datagram now endpoint bytes =>
    s.superseding endpoint bytes ++
      match (s.supersede app.onRemoved endpoint bytes).openSession endpoint now with
      | .ok (id, opened) => .enter endpoint now :: opened.receiving app codec id now bytes
      | .error _ => []
  | .tick now => serially app codec (fun id s => s.maintaining id now) s.table.ids s
  | .shut id reason => [.shut id reason]
  | .close id reason => closing id reason
  | .remove id => [.remove id]
  | .closeAll => serially app codec (fun id _ => closing id .application) s.table.ids s
  | .rehash entries => [.rehash entries]

/-- An event is its acts. -/
theorem step_eq_perform (s : Server α) (event : Event) :
    s.step app codec event = s.perform app codec (s.acts app codec event) := by
  cases event with
  | datagram now endpoint bytes =>
    rw [acts, perform_append, perform_superseding]
    simp only [step, handleDatagram]
    cases hopen : (s.supersede app.onRemoved endpoint bytes).openSession endpoint now with
    | error e => rfl
    | ok opened =>
      obtain ⟨id, opened⟩ := opened
      have henter : (s.supersede app.onRemoved endpoint bytes).act app codec (.enter endpoint now) =
          opened := by
        simp only [act, hopen]
      simp only [perform_cons, henter, perform_receiving]
  | tick now => exact (perform_serially (fun s id => perform_maintaining id now s) s.table.ids s).symm
  | closeAll =>
    exact (perform_serially (fun s id => perform_closing s id .application) s.table.ids s).symm
  | _ => rfl

/-! ## Histories -/

/-- An act with the server before and after it. -/
structure Moment (α : Type) where
  before : Server α
  act : Act
  after : Server α

/-- The moments of a list of acts. -/
def moments (app : Application α) (codec : Codec) : Server α → List Act → List (Moment α)
  | _, [] => []
  | s, a :: acts => ⟨s, a, s.act app codec a⟩ :: moments app codec (s.act app codec a) acts

theorem moments_append (s : Server α) (first rest : List Act) :
    s.moments app codec (first ++ rest) =
      s.moments app codec first ++ (s.perform app codec first).moments app codec rest := by
  induction first generalizing s with
  | nil => rfl
  | cons a first ih =>
    simp only [List.cons_append, moments, perform_cons]
    rw [ih]

/-- The moments of a list of events. -/
def history (app : Application α) (codec : Codec) : Server α → List Event → List (Moment α)
  | _, [] => []
  | s, event :: events =>
    moments app codec s (s.acts app codec event) ++ history app codec (s.step app codec event) events

/-- What holds at the start and what every act carries over holds at the end, also when it speaks of the
past. -/
theorem perform_induction {P : List (Moment α) → Server α → Prop} {past : List (Moment α)}
    {s : Server α} (hs : P past s)
    (hact : ∀ past s a, P past s → P (past ++ [⟨s, a, s.act app codec a⟩]) (s.act app codec a))
    (acts : List Act) : P (past ++ s.moments app codec acts) (s.perform app codec acts) := by
  induction acts generalizing past s with
  | nil => simpa [moments] using hs
  | cons a acts ih =>
    have hnext := ih (hact past s a hs)
    rwa [List.append_assoc] at hnext

/-- `perform_induction` for events. -/
theorem run_induction {P : List (Moment α) → Server α → Prop} {s : Server α} (hs : P [] s)
    (hact : ∀ past s a, P past s → P (past ++ [⟨s, a, s.act app codec a⟩]) (s.act app codec a))
    (events : List Event) : P (s.history app codec events) (s.run app codec events) := by
  suffices hall : ∀ past s, P past s →
      P (past ++ s.history app codec events) (s.run app codec events) from hall [] s hs
  induction events with
  | nil =>
    intro past s hs
    simpa [history, run] using hs
  | cons event events ih =>
    intro past s hs
    have hevent := perform_induction hs hact (s.acts app codec event)
    rw [← step_eq_perform] at hevent
    have hrest := ih _ _ hevent
    rwa [List.append_assoc] at hrest

/-- What every act preserves a list of acts preserves. -/
theorem perform_invariant {P : Server α → Prop} {s : Server α} (hs : P s)
    (hact : ∀ s a, P s → P (s.act app codec a)) (acts : List Act) : P (s.perform app codec acts) := by
  induction acts generalizing s with
  | nil => exact hs
  | cons a acts ih => exact ih (hact s a hs)

/-- What every act preserves holds after every run. -/
theorem run_invariant {P : Server α → Prop} {s : Server α} (hs : P s)
    (hact : ∀ s a, P s → P (s.act app codec a)) (events : List Event) : P (s.run app codec events) :=
  run_induction (P := fun _ => P) hs (fun _ s a => hact s a) events

end GameGateway.Server
