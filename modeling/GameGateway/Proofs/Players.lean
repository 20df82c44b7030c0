import GameGateway.Proofs.Roster

/-!
# One session for each player

At most one session that is not shutting down is held by a player, so that a search for it has one answer in
whatever order the table is searched. A login evicts the session that the search finds; that no other is left
is what `Server.OnePerPlayer` carries from act to act, together with `Server.Roster`, by which the search sees
every session that is not shutting down.

## Implementation notes

`Server.act_cases` sorts the acts by what they do to the players: a session is created, a session is bound by a
login, or every session stays with its player, `Server.Carries`.
-/

namespace GameGateway

/-- A search with at most one answer does not depend on the order. -/
theorem find?_eq_of_perm {α : Type} {p : α → Bool} {l l' : List α} (hperm : l.Perm l')
    (hone : ∀ a b, p a = true → p b = true → a = b) : l.find? p = l'.find? p := by
  cases hfind' : l'.find? p with
  | none =>
    rw [List.find?_eq_none] at hfind' ⊢
    intro a ha
    exact hfind' a (hperm.subset ha)
  | some b =>
    cases hfind : l.find? p with
    | none =>
      have hb := List.mem_of_find?_eq_some hfind'
      exact absurd (List.find?_some hfind') (List.find?_eq_none.1 hfind b (hperm.symm.subset hb))
    | some a => exact congrArg some (hone a b (List.find?_some hfind) (List.find?_some hfind'))

theorem Realm.ne_zero_of_authorize? {r : Realm} {sessionKey : String} {account : UInt32}
    {player : UInt64} (h : r.authorize? sessionKey = some (account, player)) : player ≠ 0 := by
  simp only [authorize?, playerId?, Option.bind_eq_bind, Option.bind_eq_some_iff] at h
  obtain ⟨found, -, other, hother, hpair⟩ := h
  obtain ⟨rfl, rfl⟩ := Prod.mk.inj (Option.some.inj hpair)
  simpa using (Option.filter_eq_some_iff.1 hother).2

namespace Server

open Service

variable {α : Type} {s s' s'' : Server α} {id : SessionId}

/-! ## Acts without a login -/

/-- No session comes or goes, every one stays with its player, and one without a player has no more to send
than before. -/
structure Carries (s s' : Server α) : Prop where
  length : s'.sessions.length = s.sessions.length
  session : ∀ id x', s'.session? id = some x' → ∃ x, s.session? id = some x ∧ x.SamePlayer x' ∧
    (x.playerId = 0 → x.sender = {} → x'.sender = {})

theorem Carries.congr (h : s'.sessions = s.sessions) : Carries s s' := by
  refine ⟨congrArg List.length h, fun id x hx => ?_⟩
  have hold : s.session? id = some x := by simpa only [session?, h] using hx
  exact ⟨x, hold, Session.SamePlayer.refl x, fun _ hidle => hidle⟩

theorem Carries.refl (s : Server α) : Carries s s := Carries.congr rfl

theorem Carries.trans (h : Carries s s') (h' : Carries s' s'') : Carries s s'' := by
  refine ⟨h'.length.trans h.length, fun id x'' hx'' => ?_⟩
  obtain ⟨x', hx', hplayer', hidle'⟩ := h'.session id x'' hx''
  obtain ⟨x, hx, hplayer, hidle⟩ := h.session id x' hx'
  refine ⟨x, hx, hplayer.trans hplayer', fun hzero hsender => ?_⟩
  exact hidle' (hplayer.playerId.trans hzero) (hidle hzero hsender)

/-- Sessions that stay are found again. -/
theorem Carries.exists_session? (h : Carries s s') {x : Session} (hx : s.session? id = some x) :
    ∃ x', s'.session? id = some x' ∧ x.SamePlayer x' := by
  obtain ⟨hlt, -⟩ := List.getElem?_eq_some_iff.1 hx
  have hlt' : id < s'.sessions.length := by rwa [h.length]
  have hx' : s'.session? id = some s'.sessions[id] := List.getElem?_eq_getElem hlt'
  obtain ⟨y, hy, hplayer, -⟩ := h.session id _ hx'
  obtain rfl : x = y := Option.some.inj (hx.symm.trans hy)
  exact ⟨_, hx', hplayer⟩

theorem Carries.ofPut {x x' : Session} (hid : s.session? id = some x) (hplayer : x.SamePlayer x')
    (hidle : x.playerId = 0 → x.sender = {} → x'.sender = {}) : Carries s (s.put id x') := by
  refine ⟨List.length_set, fun j y hy => ?_⟩
  rcases of_session?_put hid hy with ⟨rfl, rfl⟩ | ⟨-, hj⟩
  · exact ⟨x, hid, hplayer, hidle⟩
  · exact ⟨y, hj, Session.SamePlayer.refl y, fun _ hidle => hidle⟩

theorem Works.carries (h : Works id s s') : Carries s s' := by
  rcases h with rfl | ⟨x, x', seeds, sent, hid, hremains, hquiet, rfl⟩
  · exact Carries.refl s'
  · have hput := Carries.ofPut hid hremains.toSamePlayer fun _ hidle => (hquiet hidle).1
    exact hput.trans (Carries.congr rfl)

theorem carries_remove (onRemoved : Listener α) (id : SessionId) (s : Server α) :
    Carries s (s.remove onRemoved id).1 := by
  rcases remove_cases onRemoved s id with ⟨heq, -⟩ | ⟨x, sent, hid, -, hquiet, heq⟩
  · rw [heq]
    exact Carries.refl s
  have hleaving := remains_removed x
  have hplayer : x.SamePlayer (leaving x).finish := .ofClosed hleaving.playerId hleaving.accountId rfl rfl
  have hput := Carries.ofPut hid hplayer fun _ hidle => by
    change (leaving x).sender.clear = {}
    rw [(hquiet hidle).1]
    rfl
  rw [heq]
  exact hput.trans (Carries.congr rfl)

theorem carries_closeSession (onRemoved : Listener α) (id : SessionId) (reason : DisconnectReason)
    (s : Server α) : Carries s (s.closeSession onRemoved id reason).1 :=
  (works_shut id reason s).carries.trans (carries_remove onRemoved id _)

theorem carries_rehash (entries : List (Endpoint × SessionId)) (s : Server α) :
    Carries s (s.rehash entries) := by
  unfold rehash
  split
  · exact Carries.congr rfl
  · exact Carries.refl s

theorem carries_evict (id : SessionId) (player : UInt64) (s : Server Realm) :
    Carries s (evict id player s) := by
  rcases evict_cases id player s with ⟨heq, -⟩ | ⟨other, -, -, heq⟩
  · rw [heq]
    exact Carries.refl s
  · rw [heq]
    exact carries_closeSession onRemoved other .newConnectionAttempt s

/-- A session that has a player gets a message to send, and the application is told something. -/
theorem carries_queue {x : Session} (hid : s.session? id = some x) (hplayer : x.playerId ≠ 0) (app : α)
    (message : Bytes) : Carries s ({ s with app }.put id (x.queue message).1) := by
  have htold : Carries s { s with app } := Carries.congr rfl
  exact htold.trans (Carries.ofPut ((session?_withApp s app id).trans hid)
    (x.remains_queue message).toSamePlayer fun hzero => absurd hzero hplayer)

/-- An act creates a session, binds one by a login, or leaves every session with its player. -/
theorem act_cases (galaxyStatus : UInt8) (codec : Codec) (s : Server Realm) (a : Act) :
    Carries s (s.act (application galaxyStatus) codec a) ∨
    (∃ endpoint now, a = .enter endpoint now ∧
      (s.act (application galaxyStatus) codec a).sessions =
        s.sessions ++ [Session.create endpoint s.config now]) ∨
    ∃ id message body account player x, a = .dispatch id message ∧ LogsIn message body ∧
      s.app.authorize? body.sessionKey = some (account, player) ∧ s.session? id = some x ∧
      x.isClosed = false ∧
      s.act (application galaxyStatus) codec a =
        bindPlayer galaxyStatus id account player (evict id player s) := by
  cases a with
  | enter endpoint now =>
    rcases openSession_cases s endpoint now with ⟨e, hopen⟩ | ⟨id, -, hopen⟩ | ⟨-, hopen⟩
    · left
      simp only [act, hopen]
      exact Carries.refl s
    · left
      simp only [act, hopen]
      exact Carries.refl s
    · right; left
      refine ⟨endpoint, now, rfl, ?_⟩
      simp only [act, hopen]
  | accept id now bytes => exact Or.inl (works_accept codec id now bytes s).carries
  | dispatch id message =>
    rcases act_dispatch_cases galaxyStatus codec s id message with
      heq | ⟨x, body, account, player, hid, hopen, hbody, hauthorize, heq⟩ |
      ⟨x, reply, hid, -, hplayer, heq⟩
    · left
      rw [heq]
      exact Carries.refl s
    · right; right
      exact ⟨id, message, body, account, player, x, rfl, hbody, hauthorize, hid, hopen, heq⟩
    · left
      rw [heq]
      exact carries_queue hid hplayer _ reply
  | maintain id now => exact Or.inl (works_maintain id now s).carries
  | shut id reason => exact Or.inl (works_shut id reason s).carries
  | remove id => exact Or.inl (carries_remove onRemoved id s)
  | rehash entries => exact Or.inl (carries_rehash entries s)

/-! ## Who plays -/

theorem isPlayedBy_iff {player : UInt64} : s.isPlayedBy player id = true ↔
    ∃ x, s.session? id = some x ∧ x.playerId = player ∧ x.isClosed = false := by
  unfold isPlayedBy
  cases s.session? id with
  | none => simp
  | some x => simp

theorem Carries.isPlayedBy (h : Carries s s') {player : UInt64}
    (hplayed : s'.isPlayedBy player id = true) : s.isPlayedBy player id = true := by
  obtain ⟨x', hx', hplayer, hopen⟩ := isPlayedBy_iff.1 hplayed
  obtain ⟨x, hx, hsame, -⟩ := h.session id x' hx'
  exact isPlayedBy_iff.2 ⟨x, hx, hsame.playerId.symm.trans hplayer, hsame.isClosed hopen⟩

/-- A player that is one has no two sessions that are not shutting down. -/
def OnePerPlayer (s : Server α) : Prop :=
  ∀ player, player ≠ 0 → ∀ i j, s.isPlayedBy player i = true → s.isPlayedBy player j = true → i = j

theorem OnePerPlayer.carries (h : OnePerPlayer s) (hcarries : Carries s s') : OnePerPlayer s' :=
  fun player hplayer i j hi hj =>
    h player hplayer i j (hcarries.isPlayedBy hi) (hcarries.isPlayedBy hj)

/-- A session that is not shutting down is in the table. -/
theorem Roster.mem_ids (h : Roster s) {player : UInt64} (hplayed : s.isPlayedBy player id = true) :
    id ∈ s.table.ids := by
  obtain ⟨x, hid, -, hopen⟩ := isPlayedBy_iff.1 hplayed
  exact (h.mem_ids_iff hid).2 (h.not_removing hid hopen)

theorem isPlayedBy_of_findPlayer? {player : UInt64} (h : s.findPlayer? player = some id) :
    s.isPlayedBy player id = true := by
  unfold findPlayer? at h
  split at h
  · cases h
  · exact List.find?_some h

/-- The search for a player finds the session it plays on. -/
theorem OnePerPlayer.findPlayer? (h : OnePerPlayer s) (hroster : Roster s) {player : UInt64}
    (hplayer : player ≠ 0) (hplayed : s.isPlayedBy player id = true) :
    s.findPlayer? player = some id := by
  cases hfind : s.findPlayer? player with
  | some other => exact congrArg some (h player hplayer other id (isPlayedBy_of_findPlayer? hfind) hplayed)
  | none =>
    rw [Server.findPlayer?, if_neg hplayer] at hfind
    exact absurd hplayed (List.find?_eq_none.1 hfind id (hroster.mem_ids hplayed))

theorem Roster.not_isPlayedBy_remove (h : Roster s) (onRemoved : Listener α) (id : SessionId)
    (player : UInt64) : ¬ (s.remove onRemoved id).1.isPlayedBy player id = true := by
  intro hplayed
  obtain ⟨x', hx', -, hopen⟩ := isPlayedBy_iff.1 hplayed
  have hclosed : x'.isOver = true := (h.remove onRemoved id).removed id x' hx' (removing_remove hx')
  rw [(h.remove onRemoved id).isOver_eq hx', hopen] at hclosed
  cases hclosed

/-- After the eviction the player has no session but the one that logs in. -/
theorem OnePerPlayer.not_isPlayedBy_evict {s : Server Realm} (h : OnePerPlayer s) (hroster : Roster s)
    {id j : SessionId} {player : UInt64} (hplayer : player ≠ 0) (hj : j ≠ id) :
    ¬ (evict id player s).isPlayedBy player j = true := by
  intro hplayed
  have hbefore : s.isPlayedBy player j = true := (carries_evict id player s).isPlayedBy hplayed
  have hfind := h.findPlayer? hroster hplayer hbefore
  rcases evict_cases id player s with ⟨-, hnone⟩ | ⟨other, -, hfound, heq⟩
  · exact hj (hnone j hfind)
  · obtain rfl : j = other := Option.some.inj (hfind.symm.trans hfound)
    rw [heq] at hplayed
    exact (hroster.works (works_shut j .newConnectionAttempt s)).not_isPlayedBy_remove onRemoved j
      player hplayed

/-- Behind a login the session that it binds plays, and those that played before. -/
theorem of_isPlayedBy_bindPlayer {s : Server Realm} {id j : SessionId} {x : Session}
    {galaxyStatus : UInt8} {account : UInt32} {player bound : UInt64} (hid : s.session? id = some x)
    (hopen : x.isOver = false)
    (hplayed : (bindPlayer galaxyStatus id account bound s).isPlayedBy player j = true) :
    j = id ∧ player = bound ∨ j ≠ id ∧ s.isPlayedBy player j = true := by
  obtain ⟨reply, hbind⟩ := bindPlayer_eq galaxyStatus account bound hid hopen
  obtain ⟨y, hy, hyplayer, hyopen⟩ := isPlayedBy_iff.1 hplayed
  rw [hbind] at hy
  rcases of_session?_put ((session?_withApp s _ id).trans hid) hy with ⟨rfl, rfl⟩ | ⟨hne, hy⟩
  · exact Or.inl ⟨rfl, hyplayer.symm.trans (remains_bound account bound reply x).playerId⟩
  · exact Or.inr ⟨hne, isPlayedBy_iff.2 ⟨y, hy, hyplayer, hyopen⟩⟩

/-- Every act of the service leaves at most one session to each player. -/
theorem OnePerPlayer.act {s : Server Realm} (h : OnePerPlayer s) (hroster : Roster s)
    (galaxyStatus : UInt8) (codec : Codec) (a : Act) :
    OnePerPlayer (s.act (application galaxyStatus) codec a) := by
  intro player hplayer i j hi hj
  rcases act_cases galaxyStatus codec s a with hcarries | ⟨endpoint, now, -, hsessions⟩ |
    ⟨id, message, body, account, bound, x, -, -, -, hid, hopen, heq⟩
  · exact h.carries hcarries player hplayer i j hi hj
  · -- the session that is created is nobody's
    have hold : ∀ k, (s.act (application galaxyStatus) codec a).isPlayedBy player k = true →
        s.isPlayedBy player k = true := by
      intro k hk
      obtain ⟨x, hx, hxplayer, hxopen⟩ := isPlayedBy_iff.1 hk
      rw [session?, hsessions] at hx
      rcases of_getElem?_concat hx with hx | ⟨-, rfl⟩
      · exact isPlayedBy_iff.2 ⟨x, hx, hxplayer, hxopen⟩
      · exact absurd hxplayer.symm hplayer
    exact h player hplayer i j (hold i hi) (hold j hj)
  · have hevicted := (session?_evict id bound s).trans hid
    have hopen : x.isOver = false := (hroster.isOver_eq hid).trans hopen
    rw [heq] at hi hj
    rcases of_isPlayedBy_bindPlayer hevicted hopen hi with ⟨rfl, rfl⟩ | ⟨hine, hi⟩
    · rcases of_isPlayedBy_bindPlayer hevicted hopen hj with ⟨rfl, -⟩ | ⟨hjne, hj⟩
      · rfl
      · exact absurd hj (h.not_isPlayedBy_evict hroster hplayer hjne)
    · rcases of_isPlayedBy_bindPlayer hevicted hopen hj with ⟨rfl, rfl⟩ | ⟨hjne, hj⟩
      · exact absurd hi (h.not_isPlayedBy_evict hroster hplayer hine)
      · exact h.carries (carries_evict id bound s) player hplayer i j hi hj

end Server

namespace Service

open Server

/-- The server of the service when it has started, before its first datagram. -/
def started (config : ProtocolConfig) (limit : Nat) (seeds : List UInt32)
    (accounts : List DevAccount) : Server Realm :=
  { Server.create config limit seeds { accounts } with status := .running }

/-- Starting a server that was just created gives this one. -/
theorem start_create (config : ProtocolConfig) (limit : Nat) (seeds : List UInt32)
    (accounts : List DevAccount) :
    (Server.create config limit seeds ({ accounts } : Realm)).start =
      .ok (started config limit seeds accounts) := rfl

variable (config : ProtocolConfig) (limit : Nat) (seeds : List UInt32) (accounts : List DevAccount)
  (galaxyStatus : UInt8) (codec : Codec) (events : List Event)

theorem roster_started : Roster (started config limit seeds accounts) :=
  (roster_create config limit seeds ({ accounts } : Realm)).congr rfl rfl

theorem onePerPlayer_started : OnePerPlayer (started config limit seeds accounts) := by
  intro player _ i j hi
  obtain ⟨x, hx, -⟩ := isPlayedBy_iff.1 hi
  simp [started, create, session?] at hx

theorem roster_onePerPlayer_run :
    let s := (started config limit seeds accounts).run (application galaxyStatus) codec events
    Roster s ∧ OnePerPlayer s := by
  intro s
  refine run_invariant (P := fun s => Roster s ∧ OnePerPlayer s)
    ⟨roster_started config limit seeds accounts, onePerPlayer_started config limit seeds accounts⟩ ?_ events
  rintro s a ⟨hroster, hone⟩
  exact ⟨hroster.act galaxyStatus codec a, hone.act hroster galaxyStatus codec a⟩

/-- Whatever happens to a server of the service, a player has at most one session that is not shutting down,
and the search for it gives the same answer in every order of the table. -/
theorem one_session_per_player (config : ProtocolConfig) (limit : Nat) (seeds : List UInt32)
    (accounts : List DevAccount) (galaxyStatus : UInt8) (codec : Codec) (events : List Event)
    (player : UInt64) (hplayer : player ≠ 0) :
    let s := (started config limit seeds accounts).run (application galaxyStatus) codec events
    (∀ i j, s.isPlayedBy player i = true → s.isPlayedBy player j = true → i = j) ∧
      ∀ order : List SessionId, order.Perm s.table.ids →
        order.find? (s.isPlayedBy player) = s.findPlayer? player := by
  intro s
  obtain ⟨-, hone⟩ :=
    roster_onePerPlayer_run config limit seeds accounts galaxyStatus codec events
  refine ⟨hone player hplayer, fun order hperm => ?_⟩
  rw [findPlayer?, if_neg hplayer]
  exact find?_eq_of_perm hperm (hone player hplayer)

/-- A player logs in at two endpoints, and a third one is nobody's. -/
theorem one_session_per_player_evicted :
    let login : Bytes := Packet.header .data 0 ++ Message.encode .clientId { sessionKey := "a" }
    let s := (started {} 4 [] [⟨"a", 1, 500, 2⟩]).run (application 1) ⟨fun _ => none, fun _ _ => none⟩
      [.datagram 0 ⟨.v4 10 0 0 1, 5000⟩ login, .datagram 0 ⟨.v4 10 0 0 2, 5000⟩ login,
        .datagram 0 ⟨.v4 10 0 0 3, 5000⟩ Packet.pong]
    (500 : UInt64) ≠ 0 ∧ s.table.ids = [1, 2] ∧ (∀ i, s.isPlayedBy 500 i = true ↔ i = 1) ∧
      [2, 1].find? (s.isPlayedBy 500) = s.findPlayer? 500 := by
  intro login s
  have hplayer : (500 : UInt64) ≠ 0 := by decide
  have hids : s.table.ids = [1, 2] := by decide +kernel
  have hplayed : s.isPlayedBy 500 1 = true := by decide +kernel
  obtain ⟨hone, horder⟩ := one_session_per_player {} 4 [] [⟨"a", 1, 500, 2⟩] 1
    ⟨fun _ => none, fun _ _ => none⟩
    [.datagram 0 ⟨.v4 10 0 0 1, 5000⟩ login, .datagram 0 ⟨.v4 10 0 0 2, 5000⟩ login,
      .datagram 0 ⟨.v4 10 0 0 3, 5000⟩ Packet.pong] 500 hplayer
  refine ⟨hplayer, hids, fun i => ⟨fun hi => hone i 1 hi hplayed, ?_⟩, horder [2, 1] ?_⟩
  · rintro rfl
    exact hplayed
  · rw [show s.table.ids = [1, 2] from hids]
    exact List.Perm.swap 1 2 []

end Service

end GameGateway
