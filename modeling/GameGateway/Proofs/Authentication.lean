import GameGateway.Proofs.Players

/-!
# Authentication

A session has a player because a login with a key of that player was dispatched to it, and a session that is
not shutting down is connected exactly if it has one. A session without a player never had a message to send:
none of its datagrams is on a channel, and no act about it tells the application anything.

## Implementation notes

`Service.Authentic` is the invariant behind these statements. It speaks of the past, and of sessions that are
yet to come as well, so that a session that is created starts with a clean record.
-/

namespace GameGateway

namespace Service

open Server

/-- In this moment the session got its present account and player from a login with their key. -/
def LoggedIn (accounts : List DevAccount) (id : SessionId) (x : Session) (m : Moment Realm) : Prop :=
  ∃ message body, m.act = .dispatch id message ∧ LogsIn message body ∧
    ({ accounts } : Realm).authorize? body.sessionKey = some (x.accountId, x.playerId)

/-- After this moment the session has nothing to send, and if the moment was its own, nothing was sent on a
channel and the application was told nothing. -/
def Silent (id : SessionId) (m : Moment Realm) : Prop :=
  (∀ x, m.after.session? id = some x → x.sender = {}) ∧
    (m.act.subject? = some id → m.after.app = m.before.app ∧
      ∃ posted, m.after.outbox = m.before.outbox ++ posted ∧
        ∀ datagram ∈ posted, ¬ Packet.OnChannel datagram.outbound.packet)

/-- The session of a number has no player, if there is one. -/
def Unheld (s : Server Realm) (id : SessionId) : Prop := ∀ x, s.session? id = some x → x.playerId = 0

/-- Players come from logins, and sessions without one have done nothing. -/
structure Authentic (accounts : List DevAccount) (past : List (Moment Realm)) (s : Server Realm) :
    Prop where
  roster : Roster s
  known : s.app.accounts = accounts
  loggedIn : ∀ id x, s.session? id = some x → x.playerId ≠ 0 → ∃ m ∈ past, LoggedIn accounts id x m
  connected : ∀ id x, s.session? id = some x → x.isOver = false →
    (x.phase = .connected ↔ x.playerId ≠ 0)
  idle : ∀ id x, s.session? id = some x → x.playerId = 0 → x.sender = {}
  silent : ∀ id, Unheld s id → ∀ m ∈ past, Silent id m

variable {s : Server Realm} {id : SessionId} {accounts : List DevAccount}

theorem authorize?_congr {r r' : Realm} (h : r'.accounts = r.accounts) (sessionKey : String) :
    r'.authorize? sessionKey = r.authorize? sessionKey := by
  simp only [Realm.authorize?, Realm.accountId?, Realm.playerId?, Realm.account?, h]

/-! ## The accounts -/

theorem accounts_onRemoved (n : Notice) (r : Realm) : (onRemoved n r).accounts = r.accounts := by
  unfold onRemoved
  split
  · rfl
  · simp only [Realm.record, Realm.endGame]
    split <;> rfl

theorem accounts_remove (s : Server Realm) (id : SessionId) :
    (s.remove onRemoved id).1.app.accounts = s.app.accounts := by
  rcases remove_cases onRemoved s id with ⟨heq, -⟩ | ⟨x, sent, -, -, -, heq⟩
  · rw [heq]
  · rw [heq]
    exact accounts_onRemoved ⟨id, leaving x, s.table⟩ s.app

theorem accounts_evict (id : SessionId) (player : UInt64) (s : Server Realm) :
    (evict id player s).app.accounts = s.app.accounts := by
  rcases evict_cases id player s with ⟨heq, -⟩ | ⟨other, -, -, heq⟩
  · rw [heq]
  · calc
      (evict id player s).app.accounts
          = ((s.shut other .newConnectionAttempt).1.remove onRemoved other).1.app.accounts := by
            rw [heq, closeSession]
      _ = (s.shut other .newConnectionAttempt).1.app.accounts := accounts_remove _ other
      _ = s.app.accounts := by rw [(works_shut other .newConnectionAttempt s).app]

theorem accounts_bindPlayer (galaxyStatus : UInt8) (id : SessionId) (account : UInt32)
    (player : UInt64) (s : Server Realm) :
    (bindPlayer galaxyStatus id account player s).app.accounts = s.app.accounts := by
  unfold bindPlayer
  split
  · dsimp only
    split <;> rfl
  · rfl

theorem accounts_act (galaxyStatus : UInt8) (codec : Codec) (s : Server Realm) (a : Act) :
    (s.act (application galaxyStatus) codec a).app.accounts = s.app.accounts := by
  cases a with
  | enter endpoint now =>
    rcases openSession_cases s endpoint now with ⟨e, hopen⟩ | ⟨id, -, hopen⟩ | ⟨-, hopen⟩
    all_goals simp only [act, hopen]
  | accept id now bytes => exact congrArg Realm.accounts (works_accept codec id now bytes s).app
  | dispatch id message =>
    rcases act_dispatch_cases galaxyStatus codec s id message with
      heq | ⟨x, body, account, player, -, -, -, -, heq⟩ | ⟨x, reply, -, -, -, heq⟩
    · rw [heq]
    · rw [heq, accounts_bindPlayer, accounts_evict]
    · simp only [heq, put, Realm.record]
  | maintain id now => exact congrArg Realm.accounts (works_maintain id now s).app
  | shut id reason => exact congrArg Realm.accounts (works_shut id reason s).app
  | remove id => exact accounts_remove s id
  | rehash entries =>
    simp only [act, rehash]
    split <;> rfl

/-! ## What an act makes of a session -/

/-- After an act a session is fresh, or it stayed with its player, or a login bound it. -/
theorem act_session?_cases (hroster : Roster s) {galaxyStatus : UInt8} {codec : Codec} {a : Act} {x' : Session}
    (hx' : (s.act (application galaxyStatus) codec a).session? id = some x') :
    (∃ endpoint now, x' = Session.create endpoint s.config now) ∨
    (∃ x, s.session? id = some x ∧ x.SamePlayer x' ∧
      (x.playerId = 0 → x.sender = {} → x'.sender = {})) ∨
    ∃ message body, a = .dispatch id message ∧ LogsIn message body ∧
      s.app.authorize? body.sessionKey = some (x'.accountId, x'.playerId) ∧ x'.phase = .connected := by
  rcases act_cases galaxyStatus codec s a with hcarries | ⟨endpoint, now, -, hsessions⟩ |
    ⟨k, message, body, account, player, x, ha, hbody, hauthorize, hk, hopen, heq⟩
  · exact Or.inr (Or.inl (hcarries.session id x' hx'))
  · rw [session?, hsessions] at hx'
    rcases of_getElem?_concat hx' with hold | ⟨-, hnew⟩
    · exact Or.inr (Or.inl ⟨x', hold, Session.SamePlayer.refl x', fun _ hidle => hidle⟩)
    · exact Or.inl ⟨endpoint, now, hnew.symm⟩
  · have hevicted := (session?_evict k player s).trans hk
    obtain ⟨reply, hbind⟩ :=
      bindPlayer_eq galaxyStatus account player hevicted ((hroster.isOver_eq hk).trans hopen)
    rw [heq, hbind] at hx'
    rcases of_session?_put ((session?_withApp _ _ k).trans hevicted) hx' with ⟨rfl, rfl⟩ | ⟨-, hother⟩
    · have hbound := remains_bound account player reply x
      right; right
      refine ⟨message, body, ha, hbody, ?_, phase_bound account player reply x⟩
      rw [hauthorize, hbound.accountId, hbound.playerId]
    · exact Or.inr (Or.inl ((carries_evict k player s).session id x' hother))

/-! ## Sessions without a player -/

/-- A session that has no player after an act had none before. -/
theorem Unheld.before (hroster : Roster s) {galaxyStatus : UInt8} {codec : Codec} {a : Act}
    (h : Unheld (s.act (application galaxyStatus) codec a) id) : Unheld s id := by
  intro x hx
  rcases act_cases galaxyStatus codec s a with hcarries | ⟨endpoint, now, -, hsessions⟩ |
    ⟨k, message, body, account, player, y, -, -, hauthorize, hk, hopen, heq⟩
  · obtain ⟨x', hx', hplayer⟩ := hcarries.exists_session? hx
    exact hplayer.playerId.symm.trans (h x' hx')
  · have hlt := (List.getElem?_eq_some_iff.1 hx).1
    apply h x
    rw [session?, hsessions, List.getElem?_append_left hlt]
    exact hx
  · have hevicted := (session?_evict k player s).trans hk
    have hopen : y.isOver = false := (hroster.isOver_eq hk).trans hopen
    rw [heq] at h
    by_cases hne : id = k
    · subst hne
      obtain ⟨y', hy', hplayer, -⟩ :=
        session?_bindPlayer galaxyStatus account player hevicted hopen
      exact absurd (hplayer.symm.trans (h y' hy')) (Realm.ne_zero_of_authorize? hauthorize)
    · obtain ⟨x', hx', hplayer⟩ := (carries_evict k player s).exists_session? hx
      refine hplayer.playerId.symm.trans (h x' ?_)
      rw [session?_bindPlayer_of_ne galaxyStatus account player hevicted hne]
      exact hx'

/-- What is sent on no channel. -/
theorem quiet_post {x x' : Session} {sent : List Outbound} (h : x'.Quiet sent) :
    ∀ datagram ∈ sent.map (Datagram.mk x.endpoint), ¬ Packet.OnChannel datagram.outbound.packet := by
  intro datagram hdatagram
  obtain ⟨out, hout, rfl⟩ := List.mem_map.1 hdatagram
  exact h.2 out hout

/-- A message leaves everything as it is if it leaves its session without a player. -/
theorem dispatch_eq_of_unheld (hroster : Roster s) {galaxyStatus : UInt8} {codec : Codec} {message : Bytes}
    (h : Unheld (s.act (application galaxyStatus) codec (.dispatch id message)) id) :
    s.act (application galaxyStatus) codec (.dispatch id message) = s := by
  have hbefore := h.before hroster
  rcases act_dispatch_cases galaxyStatus codec s id message with
    heq | ⟨x, body, account, player, hid, hopen, -, hauthorize, heq⟩ | ⟨x, reply, hid, -, hplayer, -⟩
  · exact heq
  · have hevicted := (session?_evict id player s).trans hid
    obtain ⟨y, hy, hplayer, -⟩ :=
      session?_bindPlayer galaxyStatus account player hevicted ((hroster.isOver_eq hid).trans hopen)
    rw [heq] at h
    exact absurd (hplayer.symm.trans (h y hy)) (Realm.ne_zero_of_authorize? hauthorize)
  · exact absurd (hbefore x hid) hplayer

/-- An act about a session that has no player afterwards sends nothing on a channel and tells the application
nothing. -/
theorem silent_act (hroster : Roster s) {galaxyStatus : UInt8} {codec : Codec} {a : Act}
    (h : Unheld (s.act (application galaxyStatus) codec a) id)
    (hidle : ∀ x, s.session? id = some x → x.sender = {}) (ha : a.subject? = some id) :
    (s.act (application galaxyStatus) codec a).app = s.app ∧
      ∃ posted, (s.act (application galaxyStatus) codec a).outbox = s.outbox ++ posted ∧
        ∀ datagram ∈ posted, ¬ Packet.OnChannel datagram.outbound.packet := by
  have hbefore := h.before hroster
  have hworks : ∀ s', Works id s s' → s'.app = s.app ∧ ∃ posted, s'.outbox = s.outbox ++ posted ∧
      ∀ datagram ∈ posted, ¬ Packet.OnChannel datagram.outbound.packet := by
    intro s' hw
    refine ⟨hw.app, ?_⟩
    rcases hw with rfl | ⟨x, x', seeds, sent, hid, -, hquiet, rfl⟩
    · exact ⟨[], by simp⟩
    · exact ⟨_, rfl, quiet_post (hquiet (hidle x hid))⟩
  cases a with
  | enter endpoint now => cases ha
  | accept k now bytes =>
    obtain rfl := Option.some.inj ha
    exact hworks _ (works_accept codec k now bytes s)
  | dispatch k message =>
    obtain rfl := Option.some.inj ha
    rw [dispatch_eq_of_unheld hroster h]
    exact hworks s (Or.inl rfl)
  | maintain k now =>
    obtain rfl := Option.some.inj ha
    exact hworks _ (works_maintain k now s)
  | shut k reason =>
    obtain rfl := Option.some.inj ha
    exact hworks _ (works_shut k reason s)
  | remove k =>
    obtain rfl := Option.some.inj ha
    rcases remove_cases onRemoved s k with ⟨heq, -⟩ | ⟨x, sent, hid, -, hquiet, heq⟩
    · exact hworks _ (Or.inl heq)
    · have hplayer : (leaving x).playerId = 0 := (remains_leaving x).playerId.trans (hbefore x hid)
      have happ : onRemoved ⟨k, leaving x, s.table⟩ s.app = s.app := if_pos hplayer
      simp only [Server.act, application, heq]
      exact ⟨happ, _, rfl, quiet_post (hquiet (hidle x hid))⟩
  | rehash entries => cases ha

/-- Every act of the service carries the record on. -/
theorem Authentic.act {past : List (Moment Realm)} (h : Authentic accounts past s)
    (galaxyStatus : UInt8) (codec : Codec) (a : Act) :
    Authentic accounts (past ++ [⟨s, a, s.act (application galaxyStatus) codec a⟩])
      (s.act (application galaxyStatus) codec a) := by
  have hidle : ∀ id x', (s.act (application galaxyStatus) codec a).session? id = some x' →
      x'.playerId = 0 → x'.sender = {} := by
    intro id x' hx' hplayer
    rcases act_session?_cases h.roster hx' with ⟨endpoint, now, rfl⟩ | ⟨x, hx, hsame, hkeeps⟩ |
      ⟨message, body, -, -, hauthorize, -⟩
    · rfl
    · have hzero := hsame.playerId.symm.trans hplayer
      exact hkeeps hzero (h.idle id x hx hzero)
    · exact absurd hplayer (Realm.ne_zero_of_authorize? hauthorize)
  refine ⟨h.roster.act galaxyStatus codec a, (accounts_act galaxyStatus codec s a).trans h.known, ?_, ?_, hidle, ?_⟩
  · intro id x' hx' hplayer
    rcases act_session?_cases h.roster hx' with ⟨endpoint, now, rfl⟩ | ⟨x, hx, hsame, -⟩ |
      ⟨message, body, ha, hbody, hauthorize, -⟩
    · exact absurd rfl hplayer
    · rw [hsame.playerId] at hplayer
      obtain ⟨m, hm, message, body, ha, hbody, hauthorize⟩ := h.loggedIn id x hx hplayer
      refine ⟨m, List.mem_append_left _ hm, message, body, ha, hbody, ?_⟩
      rw [hsame.accountId, hsame.playerId]
      exact hauthorize
    · refine ⟨_, List.mem_append_right _ (List.mem_singleton_self _), message, body, ha, hbody, ?_⟩
      rw [← hauthorize]
      exact authorize?_congr h.known.symm body.sessionKey
  · intro id x' hx' hopen
    rcases act_session?_cases h.roster hx' with ⟨endpoint, now, rfl⟩ | ⟨x, hx, hsame, -⟩ |
      ⟨message, body, -, -, hauthorize, hphase⟩
    · simp [Session.create]
    · rw [hsame.connected hopen, hsame.playerId]
      exact h.connected id x hx (hsame.isOpen hopen)
    · simp [hphase, Realm.ne_zero_of_authorize? hauthorize]
  · intro id hnone m hm
    rcases List.mem_append.1 hm with hm | hm
    · exact h.silent id (hnone.before h.roster) m hm
    · obtain rfl := List.mem_singleton.1 hm
      refine ⟨fun x' hx' => hidle id x' hx' (hnone x' hx'), fun ha => ?_⟩
      exact silent_act h.roster hnone (fun x hx => h.idle id x hx (hnone.before h.roster x hx)) ha

theorem authentic_started (config : ProtocolConfig) (limit : Nat) (seeds : List UInt32)
    (accounts : List DevAccount) : Authentic accounts [] (started config limit seeds accounts) := by
  have hnone : ∀ id, (started config limit seeds accounts).session? id = none := fun _ => rfl
  constructor
  · exact roster_started config limit seeds accounts
  · rfl
  · intro id x hx
    cases (hnone id).symm.trans hx
  · intro id x hx
    cases (hnone id).symm.trans hx
  · intro id x hx
    cases (hnone id).symm.trans hx
  · simp

/-- Whatever happens to a server of the service: a player comes from a login, being connected is having one,
and a session without one had nothing to send and told the application nothing. -/
theorem players_authenticated (config : ProtocolConfig) (limit : Nat) (seeds : List UInt32)
    (accounts : List DevAccount) (galaxyStatus : UInt8) (codec : Codec) (events : List Event) :
    let start := started config limit seeds accounts
    let s := start.run (application galaxyStatus) codec events
    let past := start.history (application galaxyStatus) codec events
    ∀ id x, s.session? id = some x →
      (x.playerId ≠ 0 → ∃ m ∈ past, LoggedIn accounts id x m) ∧
      (x.isClosed = false → (x.phase = .connected ↔ x.playerId ≠ 0)) ∧
      (x.playerId = 0 → x.sender = {} ∧ ∀ m ∈ past, Silent id m) := by
  intro start s past id x hx
  have h : Authentic accounts past s :=
    run_induction (authentic_started config limit seeds accounts)
      (fun _ _ a h => h.act galaxyStatus codec a) events
  refine ⟨h.loggedIn id x hx, fun hopen => h.connected id x hx ((h.roster.isOver_eq hx).trans hopen),
    fun hplayer => ⟨h.idle id x hx hplayer, ?_⟩⟩
  apply h.silent id
  intro y hy
  obtain rfl : x = y := Option.some.inj (hx.symm.trans hy)
  exact hplayer

/-- One client logs in, another one only says that its scene is loaded. -/
theorem players_authenticated_login :
    let login : Bytes := Packet.header .data 0 ++ Message.encode .clientId { sessionKey := "a" }
    let ready : Bytes := Packet.header .data 0 ++ Message.encode .sceneReady ()
    let events : List Event :=
      [.datagram 0 ⟨.v4 10 0 0 1, 5000⟩ login, .datagram 0 ⟨.v4 10 0 0 2, 5000⟩ ready]
    let start := started {} 4 [] [⟨"a", 1, 500, 2⟩]
    let s := start.run (application 1) ⟨fun _ => none, fun _ _ => none⟩ events
    let past := start.history (application 1) ⟨fun _ => none, fun _ _ => none⟩ events
    (∃ x, s.session? 0 = some x ∧ x.playerId = 500 ∧
      ∃ m ∈ past, LoggedIn [⟨"a", 1, 500, 2⟩] 0 x m) ∧
    ∃ y, s.session? 1 = some y ∧ y.playerId = 0 ∧ ∀ m ∈ past, Silent 1 m := by
  intro login ready events start s past
  have hheld : (s.session? 0).map Session.playerId = some 500 := by decide +kernel
  have hunheld : (s.session? 1).map Session.playerId = some 0 := by decide +kernel
  obtain ⟨x, hx, hplayer⟩ := Option.map_eq_some_iff.1 hheld
  obtain ⟨y, hy, hnone⟩ := Option.map_eq_some_iff.1 hunheld
  have h := players_authenticated {} 4 [] [⟨"a", 1, 500, 2⟩] 1 ⟨fun _ => none, fun _ _ => none⟩ events
  have hne : x.playerId ≠ 0 := by
    rw [hplayer]
    decide
  obtain ⟨hlogin, -, -⟩ := h 0 x hx
  obtain ⟨-, -, hsilent⟩ := h 1 y hy
  exact ⟨⟨x, hx, hplayer, hlogin hne⟩, ⟨y, hy, hnone, (hsilent hnone).2⟩⟩

end Service

end GameGateway
