import GameGateway.Proofs.Leaks

/-!
# Removals behind a replacement

A session that was shut down past the server stays in the table until it is removed, and meanwhile its player may
log in at another endpoint: such a session is not evicted. Its late removal leaves the game of the new session
alone exactly if the new one logged in on another connection. Nothing keeps two peers from naming one connection,
and both are on connection 0 before they open one.

## Implementation notes

A game is noted on the connection of a login, so that the connection of the last login, `Service.LastLogin`, and not
the present one, is what a removal compares with. A moment is late, `Service.LateRemoval`, also if the session leaves
the table within a login that evicts it; the invariant excludes this, because a player has one session at a time.
-/

namespace GameGateway

/-- Where an element stands in a list with one more at the end. -/
theorem concat_eq_append_cons {α : Type} {past before after : List α} {a b : α} :
    past ++ [a] = before ++ b :: after ↔
      (before = past ∧ b = a ∧ after = []) ∨
      ∃ between, past = before ++ b :: between ∧ after = between ++ [a] := by
  constructor
  · intro h
    rcases List.eq_nil_or_concat after with rfl | ⟨between, last, rfl⟩
    · obtain ⟨hpast, hlast⟩ := List.append_inj' h rfl
      exact Or.inl ⟨hpast.symm, (List.singleton_inj.1 hlast).symm, rfl⟩
    · have hsplit : past ++ [a] = (before ++ b :: between) ++ [last] := by simpa using h
      obtain ⟨hpast, hlast⟩ := List.append_inj' hsplit rfl
      refine Or.inr ⟨between, hpast, ?_⟩
      rw [List.concat_eq_append, List.singleton_inj.1 hlast]
  · rintro (⟨rfl, rfl, rfl⟩ | ⟨between, rfl, rfl⟩)
    · rfl
    · simp

namespace Service

open Server

variable {s : Server Realm} {id old new : SessionId} {x : Session} {c : UInt32} {m : Moment Realm}
  {past : List (Moment Realm)} {galaxyStatus : UInt8} {codec : Codec}

/-! ## Logins -/

/-- A login with a known key reaches the service if its session is not shutting down. -/
theorem dispatchMessage_of_logsIn {message : Bytes} {body : ClientId} {account : UInt32}
    {player : UInt64} (hid : s.session? id = some x) (hopen : x.isClosed = false)
    (hbody : LogsIn message body)
    (hauthorize : s.app.authorize? body.sessionKey = some (account, player)) :
    (application galaxyStatus).handlers.dispatchMessage id message s =
      .ok (bindPlayer galaxyStatus id account player (evict id player s)) := by
  obtain ⟨header, rest, hheader, hopcode, hdecode⟩ := hbody
  have hlookup : (handlers galaxyStatus).lookup header.2 =
      some (Handler.typed .clientId (login galaxyStatus)) := by
    rw [hopcode]
    rfl
  simp only [application, Registry.dispatchMessage, hheader, Registry.dispatch, hlookup, hid, hopen,
    Bool.false_eq_true, if_false, Handler.typed, hdecode, login, hauthorize]

/-- In this moment a session logs in, on a connection. -/
def LogsInOn (id : SessionId) (c : UInt32) (m : Moment Realm) : Prop :=
  ∃ message body account player x, m.act = .dispatch id message ∧ LogsIn message body ∧
    m.before.app.authorize? body.sessionKey = some (account, player) ∧
    m.before.session? id = some x ∧ x.isClosed = false ∧ x.connectionId = c

theorem LogsInOn.connectionId (h : LogsInOn id c m) (hid : m.before.session? id = some x) :
    x.connectionId = c := by
  obtain ⟨_, _, _, _, y, _, _, _, hy, _, hc⟩ := h
  rw [← hc, Option.some.inj (hid.symm.trans hy)]

/-- The connection on which a session logged in last. -/
def LastLogin (past : List (Moment Realm)) (id : SessionId) (c : UInt32) : Prop :=
  ∃ before m after, past = before ++ m :: after ∧ LogsInOn id c m ∧
    ∀ m' ∈ after, ∀ c', ¬ LogsInOn id c' m'

theorem lastLogin_concat : LastLogin (past ++ [m]) id c ↔
    LogsInOn id c m ∨ (∀ c', ¬ LogsInOn id c' m) ∧ LastLogin past id c := by
  constructor
  · rintro ⟨before, m', after, hsplit, hlogin, hsince⟩
    rcases concat_eq_append_cons.1 hsplit with ⟨-, rfl, -⟩ | ⟨between, hpast, rfl⟩
    · exact Or.inl hlogin
    · right
      refine ⟨hsince m (by simp), before, m', between, hpast, hlogin, fun m'' hm'' => ?_⟩
      exact hsince m'' (List.mem_append_left _ hm'')
  · rintro (hlogin | ⟨hnone, before, m', after, rfl, hlogin, hsince⟩)
    · exact ⟨past, m, [], rfl, hlogin, by simp⟩
    · refine ⟨before, m', after ++ [m], by simp, hlogin, fun m'' hm'' => ?_⟩
      rcases List.mem_append.1 hm'' with hm'' | hm''
      · exact hsince m'' hm''
      · rw [List.mem_singleton.1 hm'']
        exact hnone

/-! ## Removals -/

/-- The removal of a session changes the game of its player only if it is on the session's connection. -/
theorem game?_remove_eq_iff (hid : s.session? id = some x) (hplayer : x.playerId ≠ 0) :
    (s.remove onRemoved id).1.app.game? x.playerId = s.app.game? x.playerId ↔
      (x.removing = false → s.app.game? x.playerId ≠ some x.connectionId) := by
  rcases remove_cases onRemoved s id with ⟨heq, hremoving⟩ | ⟨y, sent, hy, hremoving, -, heq⟩
  · rw [heq, hremoving x hid]
    simp
  · obtain rfl : x = y := Option.some.inj (hid.symm.trans hy)
    have happ : (s.remove onRemoved id).1.app = onRemoved ⟨id, leaving x, s.table⟩ s.app := by
      rw [heq]
      rfl
    have hleaving : (leaving x).playerId = x.playerId := (remains_leaving x).playerId
    have hconnection : (leaving x).connectionId = x.connectionId :=
      Session.connectionId_close .application { x with removing := true }
    rw [← hleaving] at hplayer
    rw [happ, hremoving, ← hleaving, ← hconnection]
    constructor
    · intro hsame _ hgame
      rw [game?_onRemoved_self (n := ⟨id, leaving x, s.table⟩) hplayer hgame, hgame] at hsame
      cases hsame
    · intro hother
      rw [onRemoved, if_neg hplayer]
      simp only [Realm.game?_record, Realm.endGame, if_neg (hother rfl)]

/-- The removal of a session leaves the games of other players alone. -/
theorem game?_remove_of_ne {player : UInt64} (hid : s.session? id = some x) (h : x.playerId ≠ player) :
    (s.remove onRemoved id).1.app.game? player = s.app.game? player := by
  rcases remove_cases onRemoved s id with ⟨heq, -⟩ | ⟨y, sent, hy, -, -, heq⟩
  · rw [heq]
  · obtain rfl : x = y := Option.some.inj (hid.symm.trans hy)
    have hleaving : (leaving x).playerId = x.playerId := (remains_leaving x).playerId
    rw [heq]
    exact game?_onRemoved_of_ne (n := ⟨id, leaving x, s.table⟩) (by rw [hleaving]; exact h.symm)

/-- The removal of a session does not begin while one works on its own. -/
theorem removing_works {s' : Server Realm} {j : SessionId} (h : Works j s s')
    (hid : s.session? id = some x) :
    ∃ x', s'.session? id = some x' ∧ x'.removing = x.removing := by
  by_cases hj : id = j
  · subst hj
    rcases h with rfl | ⟨y, y', seeds, sent, hy, hremains, -, rfl⟩
    · exact ⟨x, hid, rfl⟩
    · obtain rfl : x = y := Option.some.inj (hid.symm.trans hy)
      exact ⟨y', session?_put (by exact hid) y', hremains.removing⟩
  · exact ⟨x, (h.session?_of_ne hj).trans hid, rfl⟩

/-- A session that another value is put in place of, or any other one. -/
theorem removing_put {j : SessionId} {y y' : Session} (hy : s.session? j = some y)
    (hremoving : y'.removing = y.removing) (hid : s.session? id = some x) :
    ∃ x', (s.put j y').session? id = some x' ∧ x'.removing = x.removing := by
  by_cases hj : id = j
  · subst hj
    obtain rfl : x = y := Option.some.inj (hid.symm.trans hy)
    exact ⟨y', session?_put hid y', hremoving⟩
  · exact ⟨x, (session?_put_of_ne hj s y').trans hid, rfl⟩

/-- The removal of a session begins when it is asked for, or in a login of its player. -/
theorem removing_act (galaxyStatus : UInt8) (codec : Codec) (a : Act) (hid : s.session? id = some x) :
    (∃ x', (s.act (application galaxyStatus) codec a).session? id = some x' ∧
      x'.removing = x.removing) ∨
    a = .remove id ∨ ∃ player, s.findPlayer? player = some id := by
  cases a with
  | enter endpoint now =>
    left
    refine ⟨x, ?_, rfl⟩
    rcases openSession_cases s endpoint now with ⟨e, hopen⟩ | ⟨j, -, hopen⟩ | ⟨-, hopen⟩
    · simpa only [act, hopen] using hid
    · simpa only [act, hopen] using hid
    · have hlt := (List.getElem?_eq_some_iff.1 hid).1
      simp only [act, hopen, session?, List.getElem?_append_left hlt]
      exact hid
  | accept j now bytes => exact Or.inl (removing_works (works_accept codec j now bytes s) hid)
  | dispatch j message =>
    rcases act_dispatch_cases galaxyStatus codec s j message with
      heq | ⟨y, body, account, player, hy, -, -, -, heq⟩ | ⟨y, reply, hy, -, -, heq⟩
    · exact Or.inl ⟨x, by rw [heq]; exact hid, rfl⟩
    · by_cases hfound : s.findPlayer? player = some id
      · exact Or.inr (Or.inr ⟨player, hfound⟩)
      have hkept : (evict j player s).session? id = some x := by
        rcases evict_cases j player s with ⟨hsame, -⟩ | ⟨other, -, hother, hevicted⟩
        · rw [hsame]
          exact hid
        · have hne : id ≠ other := by
            rintro rfl
            exact hfound hother
          rw [hevicted, session?_closeSession_of_ne onRemoved hne _ s]
          exact hid
      have hy' := (session?_evict j player s).trans hy
      obtain ⟨y', hbind, hbound⟩ := bindPlayer_eq_put galaxyStatus account player hy'
      have hremoving : y'.removing = y.removing := by
        rcases hbound with rfl | ⟨reply, rfl⟩
        · rfl
        · exact (remains_bound account player reply y).removing
      left
      rw [heq, hbind]
      exact removing_put ((session?_withApp _ _ j).trans hy') hremoving
        ((session?_withApp _ _ id).trans hkept)
    · left
      rw [heq]
      exact removing_put ((session?_withApp s _ j).trans hy) (y.remains_queue reply).removing
        ((session?_withApp s _ id).trans hid)
  | maintain j now => exact Or.inl (removing_works (works_maintain j now s) hid)
  | shut j reason => exact Or.inl (removing_works (works_shut j reason s) hid)
  | remove j =>
    by_cases hj : id = j
    · exact Or.inr (Or.inl (by rw [hj]))
    · exact Or.inl ⟨x, (session?_remove_of_ne onRemoved hj s).trans hid, rfl⟩
  | rehash entries =>
    left
    refine ⟨x, ?_, rfl⟩
    simp only [act, rehash]
    split <;> exact hid

/-- In this moment a session that has a player is removed, or leaves the table, while another one that is not
shutting down has the same player. -/
structure LateRemoval (m : Moment Realm) (old new : SessionId) (x : Session) : Prop where
  session : m.before.session? old = some x
  held : x.playerId ≠ 0
  ne : new ≠ old
  replaced : m.before.isPlayedBy x.playerId new = true
  removed : m.act = .remove old ∨ old ∈ m.before.table.ids ∧ old ∉ m.after.table.ids

/-- An eviction is no late removal. -/
theorem LateRemoval.act_eq {a : Act} (h : LateRemoval ⟨s, a, s.act (application galaxyStatus) codec a⟩ old new x)
    (hroster : Roster s) (hone : OnePerPlayer s) : a = .remove old := by
  rcases h.removed with ha | ⟨hlisted, hgone⟩
  · exact ha
  have hremoving := (hroster.mem_ids_iff h.session).1 hlisted
  rcases removing_act galaxyStatus codec a h.session with ⟨x', hx', hsame⟩ | ha | ⟨player, hfound⟩
  · have hseated := hsame.trans hremoving
    exact absurd (((hroster.act galaxyStatus codec a).mem_ids_iff hx').2 hseated) hgone
  · exact ha
  · have hplayed := isPlayedBy_of_findPlayer? hfound
    obtain ⟨y, hy, hown, -⟩ := isPlayedBy_iff.1 hplayed
    obtain rfl : x = y := Option.some.inj (h.session.symm.trans hy)
    exact absurd (hone _ (hown ▸ h.held) new old (hown ▸ h.replaced) hplayed) h.ne

/-- The game of the player is as it was. -/
def KeepsGame (m : Moment Realm) : Prop :=
  ∀ old new x, LateRemoval m old new x → m.after.app.game? x.playerId = m.before.app.game? x.playerId

instance (a : Act) (id : SessionId) : Decidable (a = .remove id) :=
  match a with
  | .remove j => decidable_of_iff (j = id) (by simp)
  | .enter _ _ | .accept _ _ _ | .dispatch _ _ | .maintain _ _ | .shut _ _ | .rehash _ =>
    isFalse (by simp)

theorem lateRemoval_iff : LateRemoval m old new x ↔ m.before.session? old = some x ∧ x.playerId ≠ 0 ∧
    new ≠ old ∧ m.before.isPlayedBy x.playerId new = true ∧
    (m.act = .remove old ∨ old ∈ m.before.table.ids ∧ old ∉ m.after.table.ids) :=
  ⟨fun ⟨hold, hheld, hne, hreplaced, hremoved⟩ => ⟨hold, hheld, hne, hreplaced, hremoved⟩,
    fun ⟨hold, hheld, hne, hreplaced, hremoved⟩ => ⟨hold, hheld, hne, hreplaced, hremoved⟩⟩

instance : Decidable (LateRemoval m old new x) := decidable_of_iff _ lateRemoval_iff.symm

/-- Only sessions that were created count. -/
theorem keepsGame_iff : KeepsGame m ↔ ∀ old ∈ List.range m.before.sessions.length,
    ∀ new ∈ List.range m.before.sessions.length, ∀ x ∈ m.before.session? old,
      LateRemoval m old new x → m.after.app.game? x.playerId = m.before.app.game? x.playerId := by
  constructor
  · intro h old _ new _ x _
    exact h old new x
  · intro h old new x hlate
    obtain ⟨y, hy, -⟩ := isPlayedBy_iff.1 hlate.replaced
    have hold := (List.getElem?_eq_some_iff.1 hlate.session).1
    have hnew := (List.getElem?_eq_some_iff.1 hy).1
    exact h old (List.mem_range.2 hold) new (List.mem_range.2 hnew) x hlate.session hlate

instance : Decidable (KeepsGame m) := decidable_of_iff _ keepsGame_iff.symm

/-- The new session logged in on another connection than the one that the old session is on. -/
def OnOtherConnection (before : List (Moment Realm)) (m : Moment Realm) : Prop :=
  ∀ old new x, LateRemoval m old new x → x.removing = false →
    ∃ c, LastLogin before new c ∧ c ≠ x.connectionId

/-! ## Games on the connections of logins -/

/-- Every player that has a session is in game on the connection of its last login. -/
def Followed (past : List (Moment Realm)) (s : Server Realm) : Prop :=
  ∀ player, player ≠ 0 → ∀ id, s.isPlayedBy player id = true →
    (∃ c, LastLogin past id c) ∧ ∀ c, LastLogin past id c → s.app.game? player = some c

theorem games_works {s' : Server Realm} (h : Works id s s') : s'.app.games = s.app.games := by
  rw [h.app]

/-- Apart from logins only removals change games. -/
theorem games_act_of_not_login {a : Act}
    (hlogin : ∀ id c, ¬ LogsInOn id c ⟨s, a, s.act (application galaxyStatus) codec a⟩) :
    (s.act (application galaxyStatus) codec a).app.games = s.app.games ∨ ∃ id, a = .remove id := by
  cases a with
  | enter endpoint now =>
    left
    rcases openSession_cases s endpoint now with ⟨e, hopen⟩ | ⟨j, -, hopen⟩ | ⟨-, hopen⟩
    all_goals simp only [act, hopen]
  | accept j now bytes => exact Or.inl (games_works (works_accept codec j now bytes s))
  | dispatch j message =>
    left
    rcases act_dispatch_cases galaxyStatus codec s j message with
      heq | ⟨y, body, account, player, hy, hopen, hbody, hauthorize, heq⟩ | ⟨y, reply, -, -, -, heq⟩
    · rw [heq]
    · exact absurd ⟨message, body, account, player, y, rfl, hbody, hauthorize, hy, hopen, rfl⟩
        (hlogin j y.connectionId)
    · rw [heq]
      exact Realm.games_record s.app _
  | maintain j now => exact Or.inl (games_works (works_maintain j now s))
  | shut j reason => exact Or.inl (games_works (works_shut j reason s))
  | remove j => exact Or.inr ⟨j, rfl⟩
  | rehash entries =>
    left
    simp only [act, rehash]
    split <;> rfl

/-- The connection of a login is the only one of its session that counts from then on. -/
theorem lastLogin_of_login (past : List (Moment Realm)) (h : LogsInOn id c m) :
    (∃ c, LastLogin (past ++ [m]) id c) ∧ ∀ c', LastLogin (past ++ [m]) id c' → c' = c := by
  refine ⟨⟨c, lastLogin_concat.2 (Or.inl h)⟩, fun c' hlast => ?_⟩
  rcases lastLogin_concat.1 hlast with hlogin | ⟨hnone, -⟩
  · obtain ⟨_, _, _, _, y, _, _, _, hy, _, hc⟩ := h
    exact (hlogin.connectionId hy).symm.trans hc
  · exact absurd h (hnone c)

/-- A moment without a login of a session leaves its last login. -/
theorem lastLogin_of_not_login (h : ∀ c, ¬ LogsInOn id c m) :
    LastLogin (past ++ [m]) id c ↔ LastLogin past id c := by
  rw [lastLogin_concat]
  exact ⟨fun hlast => hlast.elim (fun hlogin => absurd hlogin (h c)) And.right,
    fun hlast => Or.inr ⟨h, hlast⟩⟩

theorem Followed.login {message : Bytes} {body : ClientId} {account : UInt32} {bound : UInt64}
    (h : Followed past s) (hroster : Roster s) (hone : OnePerPlayer s)
    (hid : s.session? id = some x) (hopen : x.isClosed = false) (hbody : LogsIn message body)
    (hauthorize : s.app.authorize? body.sessionKey = some (account, bound)) :
    let after := bindPlayer galaxyStatus id account bound (evict id bound s)
    Followed (past ++ [⟨s, .dispatch id message, after⟩]) after := by
  intro after player hplayer j hplayed
  have hevicted := (session?_evict id bound s).trans hid
  have hover : x.isOver = false := (hroster.isOver_eq hid).trans hopen
  have hgame : ∀ q, after.app.game? q =
      if q = bound then some x.connectionId else (evict id bound s).app.game? q := fun q => by
    rw [app_bindPlayer galaxyStatus account hevicted, Realm.game?_startGame]
  have hlogin : LogsInOn id x.connectionId ⟨s, .dispatch id message, after⟩ :=
    ⟨message, body, account, bound, x, rfl, hbody, hauthorize, hid, hopen, rfl⟩
  rcases of_isPlayedBy_bindPlayer hevicted hover hplayed with ⟨rfl, rfl⟩ | ⟨hj, hheld⟩
  · obtain ⟨hsome, hunique⟩ := lastLogin_of_login past hlogin
    refine ⟨hsome, fun c hlast => ?_⟩
    rw [hgame, if_pos rfl, hunique c hlast]
  · have hother : ∀ c, ¬ LogsInOn j c ⟨s, .dispatch id message, after⟩ := by
      rintro c ⟨_, _, _, _, _, hact, -⟩
      injection hact with hsame
      exact hj hsame.symm
    have hne : player ≠ bound := by
      rintro rfl
      exact hone.not_isPlayedBy_evict hroster hplayer hj hheld
    have hbefore := h player hplayer j ((carries_evict id bound s).isPlayedBy hheld)
    simp only [lastLogin_of_not_login hother]
    refine ⟨hbefore.1, fun c hlast => ?_⟩
    rw [hgame, if_neg hne, game?_evict id hne s]
    exact hbefore.2 c hlast

theorem Followed.act {a : Act} (h : Followed past s) (hroster : Roster s) (hone : OnePerPlayer s)
    (hkeeps : KeepsGame ⟨s, a, s.act (application galaxyStatus) codec a⟩) :
    Followed (past ++ [⟨s, a, s.act (application galaxyStatus) codec a⟩])
      (s.act (application galaxyStatus) codec a) := by
  by_cases hsome : ∃ j c, LogsInOn j c ⟨s, a, s.act (application galaxyStatus) codec a⟩
  · obtain ⟨j, c, message, body, account, bound, y, rfl, hbody, hauthorize, hy, hopen, -⟩ := hsome
    have hact : s.act (application galaxyStatus) codec (.dispatch j message) =
        bindPlayer galaxyStatus j account bound (evict j bound s) := by
      simp only [Server.act, dispatchMessage_of_logsIn hy hopen hbody hauthorize]
    rw [hact]
    exact h.login hroster hone hy hopen hbody hauthorize
  have hnone : ∀ j c, ¬ LogsInOn j c ⟨s, a, s.act (application galaxyStatus) codec a⟩ :=
    fun j c hlogin => hsome ⟨j, c, hlogin⟩
  intro player hplayer id hplayed
  have hbefore : s.isPlayedBy player id = true := by
    rcases act_cases galaxyStatus codec s a with hcarries | ⟨endpoint, now, -, hsessions⟩ |
      ⟨j, message, body, account, bound, y, ha, hbody, hauthorize, hy, hopen, -⟩
    · exact hcarries.isPlayedBy hplayed
    · obtain ⟨x, hx, hown, hopen⟩ := isPlayedBy_iff.1 hplayed
      rw [session?, hsessions] at hx
      rcases of_getElem?_concat hx with hx | ⟨-, rfl⟩
      · exact isPlayedBy_iff.2 ⟨x, hx, hown, hopen⟩
      · exact absurd hown.symm hplayer
    · exact absurd ⟨message, body, account, bound, y, ha, hbody, hauthorize, hy, hopen, rfl⟩
        (hnone j y.connectionId)
  obtain ⟨hlogin, hgame⟩ := h player hplayer id hbefore
  simp only [lastLogin_of_not_login (hnone id)]
  refine ⟨hlogin, fun c hlast => ?_⟩
  rw [← hgame c hlast]
  rcases games_act_of_not_login hnone with hgames | ⟨old, rfl⟩
  · simp only [Realm.game?, hgames]
  cases hold : s.session? old with
  | none => simp only [Server.act, Server.remove, hold]
  | some y =>
    by_cases hown : y.playerId = player
    · -- the session that is removed had this player too
      subst hown
      have hne : id ≠ old := by
        rintro rfl
        exact hroster.not_isPlayedBy_remove onRemoved id _ hplayed
      exact hkeeps old id y ⟨hold, hplayer, hne, hbefore, Or.inl rfl⟩
    · exact game?_remove_of_ne hold hown

/-- Under `Followed` a late removal keeps the game exactly if the logins were on different connections. -/
theorem Followed.keepsGame_iff {a : Act} (h : Followed past s) (hroster : Roster s)
    (hone : OnePerPlayer s) :
    KeepsGame ⟨s, a, s.act (application galaxyStatus) codec a⟩ ↔
      OnOtherConnection past ⟨s, a, s.act (application galaxyStatus) codec a⟩ := by
  refine forall_congr' fun old => forall_congr' fun new => forall_congr' fun x =>
    forall_congr' fun hlate => ?_
  obtain rfl := hlate.act_eq hroster hone
  obtain ⟨⟨c, hlast⟩, hgame⟩ := h x.playerId hlate.held new hlate.replaced
  have hiff := game?_remove_eq_iff hlate.session hlate.held
  refine hiff.trans (forall_congr' fun hremoving => ?_)
  change s.app.game? x.playerId ≠ some x.connectionId ↔ _
  rw [hgame c hlast]
  constructor
  · intro hne
    exact ⟨c, hlast, fun heq => hne (by rw [heq])⟩
  · rintro ⟨c', hlast', hne⟩ heq
    have hsame := hgame c' hlast'
    rw [hgame c hlast, heq] at hsame
    exact hne (Option.some.inj hsame).symm

/-! ## Runs -/

/-- All late removals so far kept their games exactly if they were on other connections, and in that case the games
are on the connections of the last logins. -/
structure Watched (past : List (Moment Realm)) (s : Server Realm) : Prop where
  roster : Roster s
  one : OnePerPlayer s
  followed : (∀ m ∈ past, KeepsGame m) → Followed past s
  keeps_iff : (∀ m ∈ past, KeepsGame m) ↔
    ∀ before m after, past = before ++ m :: after → OnOtherConnection before m

theorem watched_started (config : ProtocolConfig) (limit : Nat) (seeds : List UInt32)
    (accounts : List DevAccount) : Watched [] (started config limit seeds accounts) where
  roster := roster_started config limit seeds accounts
  one := onePerPlayer_started config limit seeds accounts
  followed := by
    intro _ player _ id hplayed
    obtain ⟨x, hx, -⟩ := isPlayedBy_iff.1 hplayed
    simp [started, create, session?] at hx
  keeps_iff := by simp

/-- Every act of the service carries the watch on. -/
theorem Watched.act (h : Watched past s) (a : Act) :
    Watched (past ++ [⟨s, a, s.act (application galaxyStatus) codec a⟩])
      (s.act (application galaxyStatus) codec a) where
  roster := h.roster.act galaxyStatus codec a
  one := h.one.act h.roster galaxyStatus codec a
  followed := by
    intro hkeeps
    rw [List.forall_mem_append, List.forall_mem_singleton] at hkeeps
    exact (h.followed hkeeps.1).act h.roster h.one hkeeps.2
  keeps_iff := by
    rw [List.forall_mem_append, List.forall_mem_singleton]
    constructor
    · rintro ⟨hpast, hlast⟩ before m after hsplit
      rcases concat_eq_append_cons.1 hsplit with ⟨rfl, rfl, -⟩ | ⟨between, hbetween, -⟩
      · exact ((h.followed hpast).keepsGame_iff h.roster h.one).1 hlast
      · exact h.keeps_iff.1 hpast before m between hbetween
    · intro hall
      have hpast : ∀ m ∈ past, KeepsGame m := h.keeps_iff.2 fun before m after hsplit =>
        hall before m _ (concat_eq_append_cons.2 (Or.inr ⟨after, hsplit, rfl⟩))
      exact ⟨hpast, ((h.followed hpast).keepsGame_iff h.roster h.one).2 (hall past _ [] rfl)⟩

/-- A removal while another session has the player keeps the player's game throughout a run exactly if, each time,
the session that has the player logged in on another connection than the removed one is on. -/
theorem late_removals_keep_games_iff (config : ProtocolConfig) (limit : Nat) (seeds : List UInt32)
    (accounts : List DevAccount) (galaxyStatus : UInt8) (codec : Codec) (events : List Event) :
    let past := (started config limit seeds accounts).history (application galaxyStatus) codec events
    (∀ m ∈ past, KeepsGame m) ↔
      ∀ before m after, past = before ++ m :: after → OnOtherConnection before m := by
  intro past
  have h : Watched past ((started config limit seeds accounts).run (application galaxyStatus) codec events) :=
    run_induction (watched_started config limit seeds accounts) (fun _ _ a h => h.act a) events
  exact h.keeps_iff

/-- A player opens connection 1 and, when that session is shut down, connection 2 at another endpoint: the late
removal of the first session leaves the game alone. -/
theorem late_removals_keep_games_reconnected :
    let request (connection : UInt8) : Bytes := [0, 1, 0, 0, 0, 0, 0, 0, 0, connection, 0, 0, 1, 240]
    let login : Bytes := Packet.header .data 0 ++ Message.encode .clientId { sessionKey := "a" }
    let start := started { crcLength := 0, compression := false } 4 [8, 9] [⟨"a", 1, 500, 2⟩]
    let events : List Event :=
      [.datagram 0 ⟨.v4 10 0 0 1, 5000⟩ (request 1), .datagram 0 ⟨.v4 10 0 0 1, 5000⟩ login,
        .shut 0 .timeout, .datagram 0 ⟨.v4 10 0 0 2, 5000⟩ (request 2),
        .datagram 0 ⟨.v4 10 0 0 2, 5000⟩ login, .remove 0]
    let past := start.history (application 1) ⟨fun _ => none, fun _ _ => none⟩ events
    let s := start.run (application 1) ⟨fun _ => none, fun _ _ => none⟩ events
    s.table.ids = [1] ∧ s.app.game? 500 = some 2 ∧
      ∀ before m after, past = before ++ m :: after → OnOtherConnection before m := by
  intro request login start events past s
  have hkeeps : ∀ m ∈ past, KeepsGame m := by decide +kernel
  exact ⟨by decide +kernel, by decide +kernel, (late_removals_keep_games_iff
    { crcLength := 0, compression := false } 4 [8, 9] [⟨"a", 1, 500, 2⟩] 1
    ⟨fun _ => none, fun _ _ => none⟩ events).1 hkeeps⟩

/-- Both sessions are on connection 7: the late removal of the first one drops the game of the player, who plays on
the second. -/
theorem not_keepsGame_same_connection :
    let request : Bytes := [0, 1, 0, 0, 0, 0, 0, 0, 0, 7, 0, 0, 1, 240]
    let login : Bytes := Packet.header .data 0 ++ Message.encode .clientId { sessionKey := "a" }
    let s := (started { crcLength := 0, compression := false } 4 [8, 9] [⟨"a", 1, 500, 2⟩]).run
      (application 1) ⟨fun _ => none, fun _ _ => none⟩
      [.datagram 0 ⟨.v4 10 0 0 1, 5000⟩ request, .datagram 0 ⟨.v4 10 0 0 1, 5000⟩ login,
        .shut 0 .timeout, .datagram 0 ⟨.v4 10 0 0 2, 5000⟩ request,
        .datagram 0 ⟨.v4 10 0 0 2, 5000⟩ login]
    let removed := (s.remove onRemoved 0).1
    s.table.ids = [0, 1] ∧ (s.session? 0).map Session.playerId = some 500 ∧
      s.isPlayedBy 500 1 = true ∧ s.app.game? 500 = some 7 ∧
      removed.isPlayedBy 500 1 = true ∧ removed.app.game? 500 = none ∧
      ¬ KeepsGame ⟨s, .remove 0, removed⟩ := by
  decide +kernel

end Service

end GameGateway
