import GameGateway.Proofs.Leaks
import GameGateway.Proofs.Removal

/-!
# The table between calls

After every call that goes through a server of the service, its table lists at most as many sessions as it may, each
at its own endpoint and none of them shutting down; every other session is closed. A full table takes no one in: an
unknown endpoint changes nothing.

## Implementation notes

That no listed session is shutting down does not hold between the acts of a call: a session shuts down within a
datagram before it is removed. `Server.Lingers` is that state; only a datagram or a shutdown brings a session into it,
and each call removes the one that it may have brought there.
-/

namespace GameGateway.Server

variable {α : Type} {s s' : Server α} {id j : SessionId} {x y : Session} {onRemoved : Listener α} {codec : Codec}
  {app : Application α} {most : Nat}

/-! ## Calls -/

/-- A call of a server: an event, or a session is asked for at an endpoint. -/
inductive Call where
  | event (e : Event)
  | create (endpoint : Endpoint) (now : Nat)

/-- The call goes through the server, not past it. -/
def Call.isServed : Call → Bool
  | .event e => e.isServed
  | .create _ _ => true

/-- The server after a call. -/
def call (app : Application α) (codec : Codec) (s : Server α) : Call → Server α
  | .event e => s.step app codec e
  | .create endpoint now =>
    match s.openSession endpoint now with
    | .ok (_, s) => s
    | .error _ => s

/-- The server after a list of calls. -/
def calls (app : Application α) (codec : Codec) (s : Server α) (list : List Call) : Server α :=
  list.foldl (call app codec) s

/-- The acts of a call. -/
def Call.acts (app : Application α) (codec : Codec) (s : Server α) : Call → List Act
  | .event e => s.acts app codec e
  | .create endpoint now => [.enter endpoint now]

theorem call_eq_perform (s : Server α) (c : Call) :
    s.call app codec c = s.perform app codec (c.acts app codec s) := by
  cases c with
  | event e => exact step_eq_perform s e
  | create endpoint now => rfl

/-- What every act preserves holds after every list of calls. -/
theorem calls_invariant {P : Server α → Prop} (hs : P s) (hact : ∀ s a, P s → P (s.act app codec a))
    (list : List Call) : P (s.calls app codec list) := by
  induction list generalizing s with
  | nil => exact hs
  | cons c list ih =>
    refine ih (s := s.call app codec c) ?_
    rw [call_eq_perform]
    exact perform_invariant hs hact _

/-! ## Room -/

/-- The table lists at most as many sessions as it may. -/
structure Roomy (most : Nat) (s : Server α) : Prop where
  limit : s.table.limit = most
  size : s.table.size ≤ most

theorem Roomy.congr (h : Roomy most s) (htable : s'.table = s.table) : Roomy most s' := by
  constructor
  · rw [htable]
    exact h.limit
  · rw [htable]
    exact h.size

theorem Roomy.remove (h : Roomy most s) (onRemoved : Listener α) (id : SessionId) :
    Roomy most (s.remove onRemoved id).1 := by
  rcases remove_cases onRemoved s id with ⟨heq, -⟩ | ⟨x, sent, -, -, -, heq⟩
  · rw [heq]
    exact h
  · have htable : (s.remove onRemoved id).1.table = (s.table.remove x.endpoint id).1 := by
      rw [heq]
      rfl
    unfold Table.remove at htable
    split at htable
    · refine ⟨by rw [htable]; exact h.limit, ?_⟩
      rw [htable]
      exact Nat.le_trans (List.length_filter_le _ _) h.size
    · exact h.congr htable

theorem Roomy.operate (h : Roomy most s) (op : Op α) : Roomy most (s.operate onRemoved codec op) := by
  by_cases hop : ∃ id, op = .remove id
  · obtain ⟨id, rfl⟩ := hop
    exact h.remove onRemoved id
  · rcases operate_cases onRemoved codec s (not_exists.1 hop) with
      ⟨id, -, heq | ⟨x, x', seeds, sent, -, -, -, heq⟩⟩ | ⟨-, ⟨endpoint, now, henters⟩ | hrests⟩
    · rw [heq]
      exact h
    · exact h.congr (by rw [heq]; rfl)
    · have hroom : s.table.size < most := by simpa [Table.isFull, h.limit] using henters.room
      rw [henters.eq]
      exact ⟨h.limit, by simpa [Table.insert, Table.size] using Nat.succ_le_of_lt hroom⟩
    · refine ⟨hrests.limit.trans h.limit, ?_⟩
      rw [Table.size, hrests.entries.length_eq]
      exact h.size

/-! ## Sessions that linger -/

/-- A session is listed although it is shutting down. -/
def Lingers (s : Server α) (id : SessionId) : Prop :=
  ∃ x, s.session? id = some x ∧ x.removing = false ∧ x.isClosed = true

/-- No session lingers. -/
def Tidy (s : Server α) : Prop := ∀ id, ¬ s.Lingers id

/-- No session lingers but one. -/
def TidyBut (id : SessionId) (s : Server α) : Prop := ∀ j, s.Lingers j → j = id

theorem Lingers.congr (hsession : s'.session? id = s.session? id) (h : s'.Lingers id) : s.Lingers id := by
  rwa [Lingers, hsession] at h

theorem Tidy.but (h : Tidy s) (id : SessionId) : TidyBut id s := fun j hj => absurd hj (h j)

theorem TidyBut.works (h : TidyBut id s) (hworks : Works id s s') : TidyBut id s' := by
  intro j hj
  by_cases hid : j = id
  · exact hid
  · exact h j (hj.congr (hworks.session?_of_ne hid))

theorem Tidy.of_but (h : TidyBut id s) (hid : ¬ s.Lingers id) : Tidy s := by
  intro j hj
  obtain rfl := h j hj
  exact hid hj

/-- A session that is removed does not linger. -/
theorem not_lingers_remove (onRemoved : Listener α) (id : SessionId) (s : Server α) :
    ¬ (s.remove onRemoved id).1.Lingers id := by
  rintro ⟨y, hy, hremoving, -⟩
  rw [removing_remove hy] at hremoving
  cases hremoving

/-- The session that may linger is removed. -/
theorem TidyBut.remove (h : TidyBut id s) (onRemoved : Listener α) : Tidy (s.remove onRemoved id).1 := by
  have hbut : TidyBut id (s.remove onRemoved id).1 := by
    intro j hj
    by_cases hid : j = id
    · exact hid
    · exact h j (hj.congr (session?_remove_of_ne onRemoved hid s))
  exact Tidy.of_but hbut (not_lingers_remove onRemoved id s)

theorem TidyBut.closeSession (h : TidyBut id s) (onRemoved : Listener α) (reason : DisconnectReason) :
    Tidy (s.closeSession onRemoved id reason).1 :=
  (h.works (works_shut id reason s)).remove onRemoved

/-- A maintenance pass shuts nothing down. -/
theorem Tidy.maintain (h : Tidy s) (id : SessionId) (now : Nat) : Tidy (s.maintain id now) := by
  refine Tidy.of_but ((h.but id).works (works_maintain id now s)) fun hlingers => ?_
  obtain ⟨y, hy, hremoving, hclosed⟩ := hlingers
  unfold Server.maintain at hy
  cases hid : s.session? id with
  | none =>
    simp only [hid] at hy
    cases hy
  | some x =>
    simp only [hid] at hy
    obtain rfl := Option.some.inj ((session?_put hid _).symm.trans hy)
    obtain ⟨sender, hupdate⟩ := x.update_session now
    rw [hupdate] at hremoving hclosed
    exact h id ⟨x, hid, hremoving, hclosed⟩

theorem Tidy.tickSession (h : Tidy s) (onRemoved : Listener α) (now : Nat) (id : SessionId) :
    Tidy (s.tickSession onRemoved now id) := by
  have hmaintained := h.maintain id now
  unfold Server.tickSession
  unfold Server.maintain at hmaintained
  cases hid : s.session? id with
  | none => exact h
  | some x =>
    simp only [hid] at hmaintained ⊢
    cases (x.update now).health with
    | alive => exact hmaintained
    | timedOut => exact (hmaintained.but id).closeSession onRemoved .timeout
    | resendExhausted => exact (hmaintained.but id).closeSession onRemoved .unacknowledgedTimeout
    | disconnecting => exact (hmaintained.but id).remove onRemoved
    | closed => exact (hmaintained.but id).remove onRemoved

theorem Tidy.foldl {whole : Server α → SessionId → Server α} (hwhole : ∀ s id, Tidy s → Tidy (whole s id))
    (h : Tidy s) (ids : List SessionId) : Tidy (ids.foldl whole s) := by
  induction ids generalizing s with
  | nil => exact h
  | cons id ids ih => exact ih (hwhole s id h)

theorem Tidy.openSession (h : Tidy s) {endpoint : Endpoint} {now : Nat} {opened : Server α}
    (hopen : s.openSession endpoint now = .ok (id, opened)) : Tidy opened := by
  rcases of_openSession hopen with ⟨-, rfl⟩ | ⟨-, -, rfl⟩
  · exact h
  · rintro j ⟨y, hy, hremoving, hclosed⟩
    rcases of_getElem?_concat hy with hold | ⟨-, rfl⟩
    · exact h j ⟨y, hold, hremoving, hclosed⟩
    · cases hclosed

theorem Tidy.supersede (h : Tidy s) (onRemoved : Listener α) (endpoint : Endpoint) (bytes : Bytes) :
    Tidy (s.supersede onRemoved endpoint bytes) := by
  unfold Server.supersede
  split
  · rename_i id _
    split
    · split
      · exact (h.but id).remove onRemoved
      · exact h
    · exact h
  · exact h

/-! ## The calls of the service -/

section

open Service

variable {s : Server Realm} {galaxyStatus : UInt8}

/-- A message shuts no session down without removing it. -/
theorem Lingers.of_dispatch {message : Bytes}
    (h : (s.act (application galaxyStatus) codec (.dispatch id message)).Lingers j) : s.Lingers j := by
  rcases act_dispatch_cases galaxyStatus codec s id message with
    heq | ⟨x, body, account, player, hid, hopen, -, -, heq⟩ | ⟨x, reply, hid, hopen, -, heq⟩
  · rwa [heq] at h
  · rw [heq] at h
    have hself := (session?_evict id player s).trans hid
    by_cases hj : j = id
    · -- the session that logs in is connected
      subst hj
      obtain ⟨y, hy, hflag⟩ := isClosed_bindPlayer galaxyStatus account player hself
      obtain ⟨z, hz, -, hzclosed⟩ := h
      obtain rfl := Option.some.inj (hy.symm.trans hz)
      rw [hflag, hopen] at hzclosed
      cases hzclosed
    · have hevicted := h.congr (session?_bindPlayer_of_ne galaxyStatus account player hself hj)
      rcases evict_cases id player s with ⟨hsame, -⟩ | ⟨other, -, -, hclose⟩
      · rwa [hsame] at hevicted
      · rw [hclose] at hevicted
        by_cases hother : j = other
        · subst hother
          exact absurd hevicted (not_lingers_remove onRemoved j _)
        · exact hevicted.congr (session?_closeSession_of_ne onRemoved hother _ s)
  · rw [heq] at h
    obtain ⟨y, hy, hremoving, hclosed⟩ := h
    rcases of_session?_put ((session?_withApp s _ id).trans hid) hy with ⟨-, hqueued⟩ | ⟨-, hj⟩
    · rw [hqueued, Session.isClosed_queue, hopen] at hclosed
      cases hclosed
    · exact ⟨y, by rwa [session?_withApp] at hj, hremoving, hclosed⟩

theorem TidyBut.dispatchAll (codec : Codec) (h : TidyBut id s) (messages : List Bytes) :
    TidyBut id ((application galaxyStatus).handlers.dispatchAll j messages s) := by
  induction messages generalizing s with
  | nil => exact h
  | cons message messages ih =>
    have hact : TidyBut id (s.act (application galaxyStatus) codec (.dispatch j message)) :=
      fun i hi => h i hi.of_dispatch
    rw [Registry.dispatchAll]
    simp only [act] at hact
    cases hdispatch : (application galaxyStatus).handlers.dispatchMessage j message s with
    | ok next =>
      rw [hdispatch] at hact
      exact ih hact
    | error e =>
      cases e with
      | sessionClosed endpoint => exact h
      | _ => exact ih h

/-- A session that shuts down while it takes a datagram is removed. -/
theorem Tidy.receive (h : Tidy s) (now : Nat) (id : SessionId) (bytes : Bytes) :
    Tidy (s.receive (application galaxyStatus) codec now id bytes) := by
  have haccepted := (h.but id).works (works_accept codec id now bytes s)
  unfold Server.receive
  unfold Server.accept at haccepted
  cases hid : s.session? id with
  | none => exact h
  | some x =>
    simp only [hid] at haccepted ⊢
    cases (x.handleDrawing codec now s.seeds bytes).1.result with
    | error v => exact haccepted.closeSession onRemoved .protocolViolation
    | ok messages =>
      have hdispatched : TidyBut id ((application galaxyStatus).handlers.dispatchAll id messages _) :=
        haccepted.dispatchAll codec messages
      dsimp only
      split
      · exact hdispatched.remove onRemoved
      · rename_i hopen
        refine Tidy.of_but hdispatched ?_
        rintro ⟨y, hy, -, hclosed⟩
        simp [hy, hclosed] at hopen

theorem Tidy.handleDatagram (h : Tidy s) (now : Nat) (endpoint : Endpoint) (bytes : Bytes) :
    Tidy (s.handleDatagram (application galaxyStatus) codec now endpoint bytes) := by
  have hsuperseded := h.supersede onRemoved endpoint bytes
  simp only [Server.handleDatagram]
  cases hopen : (s.supersede onRemoved endpoint bytes).openSession endpoint now with
  | error e =>
    simp only [application, hopen]
    exact hsuperseded
  | ok opened =>
    simp only [application, hopen]
    exact (hsuperseded.openSession hopen).receive now opened.1 bytes

theorem Tidy.call (h : Tidy s) {c : Call} (hserved : c.isServed = true) :
    Tidy (s.call (application galaxyStatus) codec c) := by
  cases c with
  | create endpoint now =>
    simp only [Server.call]
    split
    · rename_i hopen
      exact h.openSession hopen
    · exact h
  | event e =>
    cases e with
    | datagram now endpoint bytes => exact h.handleDatagram now endpoint bytes
    | tick now => exact h.foldl (fun s id hs => hs.tickSession onRemoved now id) _
    | shut id reason => cases hserved
    | close id reason => exact (h.but id).closeSession onRemoved reason
    | remove id => exact (h.but id).remove onRemoved
    | closeAll => exact h.foldl (fun s id hs => (hs.but id).closeSession onRemoved .application) _
    | rehash entries =>
      intro j hj
      have hsessions : (s.rehash entries).sessions = s.sessions := (rests_rehash entries s).sessions
      refine h j (hj.congr ?_)
      simp only [Server.call, step, session?, hsessions]

end

/-! ## Closing all -/

/-- When the given sessions are closed, those whose removal has not begun are others and are as they were. -/
theorem of_foldl_closeSession {reason : DisconnectReason} (ids : List SessionId)
    (hy : (ids.foldl (fun s id => (s.closeSession onRemoved id reason).1) s).session? j = some y)
    (hremoving : y.removing = false) : j ∉ ids ∧ s.session? j = some y := by
  induction ids generalizing s with
  | nil => exact ⟨List.not_mem_nil, hy⟩
  | cons id ids ih =>
    obtain ⟨hrest, hclosed⟩ := ih hy
    have hne : j ≠ id := by
      rintro rfl
      rw [removing_remove hclosed] at hremoving
      cases hremoving
    rw [session?_closeSession_of_ne onRemoved hne] at hclosed
    exact ⟨by simp [hne, hrest], hclosed⟩

/-- When every session is closed the table is empty. -/
theorem Roster.entries_closeAll (h : Roster s) (hafter : Roster (s.closeAll onRemoved)) :
    (s.closeAll onRemoved).table.entries = [] := by
  refine List.eq_nil_iff_forall_not_mem.2 ?_
  rintro ⟨endpoint, id⟩ hentry
  obtain ⟨y, hy, -, hremoving⟩ := (hafter.mem_iff endpoint id).1 hentry
  obtain ⟨hunlisted, hbefore⟩ := of_foldl_closeSession s.table.ids hy hremoving
  exact hunlisted ((h.mem_ids_iff hbefore).2 hremoving)

/-! ## A full table -/

theorem openSession_of_isFull {endpoint : Endpoint} (hvacant : s.table.get? endpoint = none)
    (hfull : s.table.isFull = true) (now : Nat) :
    s.openSession endpoint now = .error (.maxSessionsExceeded s.table.limit) := by
  simp [openSession, hvacant, hfull]

theorem handleDatagram_of_isFull {endpoint : Endpoint} (hvacant : s.table.get? endpoint = none)
    (hfull : s.table.isFull = true) (now : Nat) (bytes : Bytes) :
    s.handleDatagram app codec now endpoint bytes = s := by
  have hsupersede : s.supersede app.onRemoved endpoint bytes = s := by simp [supersede, hvacant]
  simp [handleDatagram, hsupersede, openSession_of_isFull hvacant hfull now]

end GameGateway.Server

namespace GameGateway.Service

open Server

theorem tidy_started (config : ProtocolConfig) (limit : Nat) (seeds : List UInt32)
    (accounts : List DevAccount) : Tidy (started config limit seeds accounts) := by
  rintro id ⟨x, hx, -⟩
  simp [started, create, session?] at hx

theorem orderly_calls (config : ProtocolConfig) (limit : Nat) (seeds : List UInt32)
    (accounts : List DevAccount) (galaxyStatus : UInt8) (codec : Codec) (calls : List Call) :
    Orderly ((started config limit seeds accounts).calls (application galaxyStatus) codec calls) := by
  refine calls_invariant ?_ (fun s a hs => ?_) calls
  · exact (orderly_create config limit seeds ({ accounts } : Realm)).rests ⟨rfl, rfl, List.Perm.refl _⟩
  · exact act_invariant (script galaxyStatus codec) hs (fun s op hs => hs.operate op) a

theorem roomy_calls (config : ProtocolConfig) (limit : Nat) (seeds : List UInt32)
    (accounts : List DevAccount) (galaxyStatus : UInt8) (codec : Codec) (calls : List Call) :
    Roomy limit ((started config limit seeds accounts).calls (application galaxyStatus) codec calls) := by
  refine calls_invariant ?_ (fun s a hs => ?_) calls
  · exact ⟨rfl, Nat.zero_le _⟩
  · exact act_invariant (script galaxyStatus codec) hs (fun s op hs => hs.operate op) a

theorem tidy_calls (config : ProtocolConfig) (limit : Nat) (seeds : List UInt32)
    (accounts : List DevAccount) (galaxyStatus : UInt8) (codec : Codec) {calls : List Call}
    (hserved : ∀ c ∈ calls, c.isServed = true) :
    Tidy ((started config limit seeds accounts).calls (application galaxyStatus) codec calls) := by
  suffices hall : ∀ s : Server Realm, Tidy s → Tidy (s.calls (application galaxyStatus) codec calls) from
    hall _ (tidy_started config limit seeds accounts)
  induction calls with
  | nil => exact fun s hs => hs
  | cons c calls ih =>
    intro s hs
    exact ih (fun d hd => hserved d (List.mem_cons_of_mem c hd)) _ (hs.call (hserved c List.mem_cons_self))

/-- Between the calls of a server of the service the table lists sessions that are not shutting down, each at its own
endpoint, and no more than it may; every other session is closed. An unknown endpoint finds no room in a full table, and
nothing happens. When all sessions are closed the table is empty. -/
theorem listed_sessions_are_open (config : ProtocolConfig) (limit : Nat) (seeds : List UInt32)
    (accounts : List DevAccount) (galaxyStatus : UInt8) (codec : Codec) (calls : List Call)
    (hserved : ∀ c ∈ calls, c.isServed = true) :
    let app := application galaxyStatus
    let s := (started config limit seeds accounts).calls app codec calls
    (s.table.entries.map Prod.fst).Nodup ∧
    (∀ endpoint id, (endpoint, id) ∈ s.table.entries →
      ∃ x, s.session? id = some x ∧ x.endpoint = endpoint ∧ x.isClosed = false ∧ x.removing = false) ∧
    s.table.size ≤ limit ∧
    (∀ id x, s.session? id = some x → id ∉ s.table.ids → x.phase = .closed) ∧
    (∀ endpoint now, s.table.get? endpoint = none → s.table.size = limit →
      s.openSession endpoint now = .error (.maxSessionsExceeded limit) ∧
      s.call app codec (.create endpoint now) = s ∧
      ∀ bytes, s.call app codec (.event (.datagram now endpoint bytes)) = s) ∧
    (s.call app codec (.event .closeAll)).table.entries = [] := by
  intro app s
  have horderly : Orderly s := orderly_calls config limit seeds accounts galaxyStatus codec calls
  have hroomy : Roomy limit s := roomy_calls config limit seeds accounts galaxyStatus codec calls
  have htidy : Tidy s := tidy_calls config limit seeds accounts galaxyStatus codec hserved
  refine ⟨horderly.endpoints, fun endpoint id hentry => ?_, hroomy.size, fun id x hid hunlisted => ?_,
    fun endpoint now hvacant hsize => ?_, ?_⟩
  · obtain ⟨x, hid, hendpoint, hremoving⟩ := (horderly.mem_iff endpoint id).1 hentry
    refine ⟨x, hid, hendpoint, ?_, hremoving⟩
    cases hopen : x.isClosed with
    | false => rfl
    | true => exact absurd ⟨x, hid, hremoving, hopen⟩ (htidy id)
  · exact (horderly.finished id x hid).2 (horderly.removing_of_not_mem hid hunlisted)
  · have hfull : s.table.isFull = true := by simp [Table.isFull, hroomy.limit, hsize]
    have hopen := openSession_of_isFull hvacant hfull now
    refine ⟨?_, ?_, fun bytes => handleDatagram_of_isFull hvacant hfull now bytes⟩
    · rw [hopen, hroomy.limit]
    · simp only [call, hopen]
  · have hafter := orderly_calls config limit seeds accounts galaxyStatus codec (calls ++ [.event .closeAll])
    rw [Server.calls, List.foldl_append] at hafter
    exact horderly.entries_closeAll hafter.toRoster

/-- A table for two: a player moves to another endpoint, a third one gets in, and a fourth one finds no room. -/
theorem listed_sessions_are_open_full :
    let login : Bytes := Packet.header .data 0 ++ Message.encode .clientId { sessionKey := "a" }
    let codec : Codec := ⟨fun _ => none, fun _ _ => none⟩
    let fourth : Endpoint := ⟨.v4 10 0 0 4, 5000⟩
    let calls : List Call := [.event (.datagram 0 ⟨.v4 10 0 0 1, 5000⟩ login),
      .event (.datagram 0 ⟨.v4 10 0 0 2, 5000⟩ login), .create ⟨.v4 10 0 0 3, 5000⟩ 0,
      .event (.datagram 0 ⟨.v4 10 0 0 1, 5000⟩ Packet.pong)]
    let s := (started { crcLength := 0, compression := false } 2 [] [⟨"a", 1, 500, 2⟩]).calls (application 1)
      codec calls
    (∀ c ∈ calls, c.isServed = true) ∧ s.table.ids = [1, 2] ∧ s.sessions.length = 3 ∧
      (∀ x, s.session? 0 = some x → x.phase = .closed) ∧
      s.call (application 1) codec (.event (.datagram 0 fourth login)) = s := by
  intro login codec fourth calls s
  have hserved : ∀ c ∈ calls, c.isServed = true := by decide
  have hids : s.table.ids = [1, 2] := by decide +kernel
  have hlength : s.sessions.length = 3 := by decide +kernel
  have hvacant : s.table.get? fourth = none := by decide +kernel
  have hsize : s.table.size = 2 := by decide +kernel
  obtain ⟨-, -, -, hclosed, hfull, -⟩ :=
    listed_sessions_are_open { crcLength := 0, compression := false } 2 [] [⟨"a", 1, 500, 2⟩] 1 codec calls hserved
  have hunlisted : 0 ∉ s.table.ids := by
    rw [hids]
    decide
  exact ⟨hserved, hids, hlength, fun x hx => hclosed 0 x hx hunlisted, (hfull fourth 0 hvacant hsize).2.2 login⟩

end GameGateway.Service
