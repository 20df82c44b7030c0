import GameGateway.Proofs.Games

/-!
# Games that are left behind

A game is noted for the player and the connection at the login and ended for those at the removal. The games
mirror the live sessions after every call of a server exactly if every act is steady: a session that has a player
never takes another player or another connection. After the first act that is not, a game is left that no session
ends: the one on the connection before a new request, or the one of the player before a new login.

## Implementation notes

The acts of an event that does not begin with a steady mirror are not looked into further. Only acceptances and
dispatches can be unsteady; a game that was left by one of several logins in a datagram stays until the datagram is
done, `Server.Doubled`.
-/

namespace GameGateway

namespace Server

open Service

variable {s s' : Server Realm} {id : SessionId} {x : Session} {galaxyStatus : UInt8} {codec : Codec}

/-! ## The mirror as it is seen from outside -/

/-- A player is in game on a connection exactly if it plays on it on a session in the table. -/
def Mirrors (s : Server Realm) : Prop :=
  ∀ player, player ≠ 0 → ∀ c, s.app.game? player = some c ↔
    ∃ id x, id ∈ s.table.ids ∧ s.session? id = some x ∧ x.isClosed = false ∧ x.playerId = player ∧
      x.connectionId = c

theorem Settling.mirrors (h : Settling none s) : Mirrors s := by
  intro player hplayer c
  rw [h.mirrored.game player hplayer c]
  constructor
  · rintro ⟨id, x, hx, hremoving, hown⟩
    exact ⟨id, x, (h.roster.mem_ids_iff hx).2 hremoving, hx, h.isOpen id x hx hremoving (by simp), hown⟩
  · rintro ⟨id, x, hmem, hx, -, hown⟩
    exact ⟨id, x, hx, (h.roster.mem_ids_iff hx).1 hmem, hown⟩

/-! ## How acts end -/

/-- The acts are steady and end in a mirror, with nothing shutting down. -/
structure Settles (galaxyStatus : UInt8) (codec : Codec) (s : Server Realm) (acts : List Act) : Prop where
  settled : Settling none (s.perform (application galaxyStatus) codec acts)
  steady : ∀ m ∈ s.moments (application galaxyStatus) codec acts, Steady m.before m.after

/-- One of the acts is not steady, and they end without a mirror. -/
structure Leaks (galaxyStatus : UInt8) (codec : Codec) (s : Server Realm) (acts : List Act) : Prop where
  unmirrored : ¬ Mirrors (s.perform (application galaxyStatus) codec acts)
  unsteady : ∃ m ∈ s.moments (application galaxyStatus) codec acts, ¬ Steady m.before m.after

theorem settles_nil (h : Settling none s) : Settles galaxyStatus codec s [] := ⟨h, by simp [moments]⟩

theorem Settles.cons {a : Act} {acts : List Act}
    (hsteady : Steady s (s.act (application galaxyStatus) codec a))
    (h : Settles galaxyStatus codec (s.act (application galaxyStatus) codec a) acts) :
    Settles galaxyStatus codec s (a :: acts) := by
  refine ⟨h.settled, fun m hm => ?_⟩
  rcases List.mem_cons.1 hm with rfl | hm
  · exact hsteady
  · exact h.steady m hm

theorem Settles.append {first rest : List Act} (h : Settles galaxyStatus codec s first)
    (h' : Settles galaxyStatus codec (s.perform (application galaxyStatus) codec first) rest) :
    Settles galaxyStatus codec s (first ++ rest) := by
  constructor
  · rw [perform_append]
    exact h'.settled
  · intro m hm
    rw [moments_append] at hm
    exact (List.mem_append.1 hm).elim (h.steady m) (h'.steady m)

theorem Leaks.append {first rest : List Act}
    (h : Leaks galaxyStatus codec (s.perform (application galaxyStatus) codec first) rest) :
    Leaks galaxyStatus codec s (first ++ rest) := by
  constructor
  · rw [perform_append]
    exact h.unmirrored
  · obtain ⟨m, hm, hunsteady⟩ := h.unsteady
    refine ⟨m, ?_, hunsteady⟩
    rw [moments_append]
    exact List.mem_append_right _ hm

theorem Leaks.cons {a : Act} {acts : List Act}
    (h : Leaks galaxyStatus codec (s.act (application galaxyStatus) codec a) acts) :
    Leaks galaxyStatus codec s (a :: acts) := by
  obtain ⟨m, hm, hunsteady⟩ := h.unsteady
  exact ⟨h.unmirrored, m, List.mem_cons_of_mem _ hm, hunsteady⟩

/-! ## Acts that are always steady -/

theorem settles_remove (h : Settling (some id) s) : Settles galaxyStatus codec s [.remove id] :=
  Settles.cons (steady_remove id s) (settles_nil h.remove)

theorem settles_closing (h : Settling (some id) s) (reason : DisconnectReason) :
    Settles galaxyStatus codec s (closing id reason) :=
  Settles.cons (steady_shut id reason s) (settles_remove (h.shut reason))

theorem settles_maintaining (h : Settling none s) (id : SessionId) (now : Nat) :
    Settles galaxyStatus codec s (s.maintaining id now) := by
  unfold maintaining
  split
  · rename_i x hid
    refine Settles.cons (steady_maintain id now s) ?_
    have hmaintained := h.maintain id now
    split
    · exact settles_nil hmaintained
    · exact settles_closing (hmaintained.begun id) .timeout
    · exact settles_closing (hmaintained.begun id) .unacknowledgedTimeout
    · exact settles_remove (hmaintained.begun id)
    · exact settles_remove (hmaintained.begun id)
  · exact settles_nil h

theorem settles_serially {acts : SessionId → Server Realm → List Act}
    (hacts : ∀ s id, Settling none s → Settles galaxyStatus codec s (acts id s))
    (ids : List SessionId) (h : Settling none s) :
    Settles galaxyStatus codec s (serially (application galaxyStatus) codec acts ids s) := by
  induction ids generalizing s with
  | nil => exact settles_nil h
  | cons id ids ih =>
    have hfirst := hacts s id h
    exact hfirst.append (ih hfirst.settled)

theorem settles_superseding (h : Settling none s) (endpoint : Endpoint) (bytes : Bytes) :
    Settles galaxyStatus codec s (s.superseding endpoint bytes) := by
  unfold superseding
  split
  · rename_i id _
    split
    · exact settles_remove (h.begun id)
    · exact settles_nil h
  · exact settles_nil h

theorem settles_rehash (h : Settling none s) (entries : List (Endpoint × SessionId)) :
    Settles galaxyStatus codec s [.rehash entries] := by
  have hroster := h.roster.rehash entries
  have hone := h.one.carries (carries_rehash entries s)
  have hsessions : (s.rehash entries).sessions = s.sessions := by
    unfold rehash
    split <;> rfl
  have hgames : (s.rehash entries).app.games = s.app.games := by
    unfold rehash
    split <;> rfl
  have hlookup : ∀ id, (s.rehash entries).session? id = s.session? id := fun id => by
    rw [session?, hsessions, session?]
  refine Settles.cons ?_ (settles_nil ⟨hroster, hone, h.mirrored.ofEq hsessions hgames, ?_⟩)
  · intro id x x' hx hx' hplayer
    exact steady_refl s id x x' hx ((hlookup id).symm.trans hx') hplayer
  · intro id x hx
    exact h.isOpen id x ((hlookup id).symm.trans hx)

/-- An act that changes nothing. -/
theorem settles_unchanged (h : Settling none s) {a : Act}
    (hact : s.act (application galaxyStatus) codec a = s) : Settles galaxyStatus codec s [a] := by
  refine Settles.cons ?_ ?_
  · rw [hact]
    exact steady_refl s
  · rw [hact]
    exact settles_nil h

theorem settles_enter (h : Settling none s) (endpoint : Endpoint) (now : Nat) :
    Settles galaxyStatus codec s [.enter endpoint now] := by
  rcases openSession_cases s endpoint now with ⟨e, hopen⟩ | ⟨id, -, hopen⟩ | ⟨hget, hopen⟩
  · exact settles_unchanged h (by simp only [act, hopen])
  · exact settles_unchanged h (by simp only [act, hopen])
  have hsessions : (s.act (application galaxyStatus) codec (.enter endpoint now)).sessions =
      s.sessions ++ [Session.create endpoint s.config now] := by
    simp only [act, hopen]
  have happ : (s.act (application galaxyStatus) codec (.enter endpoint now)).app = s.app := by
    simp only [act, hopen]
  refine Settles.cons ?_ (settles_nil ⟨h.roster.act galaxyStatus codec _,
    h.one.act h.roster galaxyStatus codec _, h.mirrored.append hsessions rfl happ, ?_⟩)
  · intro id x x' hx hx' _
    have hlt := (List.getElem?_eq_some_iff.1 hx).1
    rw [session?, hsessions, List.getElem?_append_left hlt] at hx'
    obtain rfl := Option.some.inj (hx.symm.trans hx')
    exact ⟨rfl, rfl⟩
  · intro id x hx hremoving hbusy
    rw [session?, hsessions] at hx
    rcases of_getElem?_concat hx with hold | ⟨-, rfl⟩
    · exact h.isOpen id x hold hremoving hbusy
    · rfl

/-! ## Messages -/

/-- A message does not shut its own session down. -/
theorem open_dispatch (galaxyStatus : UInt8) (codec : Codec) (message : Bytes)
    (hid : s.session? id = some x) (hopen : x.isClosed = false) :
    ∃ y, (s.act (application galaxyStatus) codec (.dispatch id message)).session? id = some y ∧
      y.isClosed = false := by
  rcases act_dispatch_cases galaxyStatus codec s id message with
    heq | ⟨y, body, account, player, hy, hyopen, -, -, heq⟩ | ⟨y, reply, hy, hyopen, -, heq⟩
  · rw [heq]
    exact ⟨x, hid, hopen⟩
  · rw [heq]
    obtain ⟨z, hz, hflag⟩ :=
      isClosed_bindPlayer galaxyStatus account player ((session?_evict id player s).trans hy)
    exact ⟨z, hz, hflag.trans hyopen⟩
  · rw [heq]
    refine ⟨_, session?_put ((session?_withApp s _ id).trans hy) _, ?_⟩
    rw [Session.isClosed_queue]
    exact hyopen

theorem steady_evict (id : SessionId) (player : UInt64) (s : Server Realm) :
    Steady s (evict id player s) := by
  rcases evict_cases id player s with ⟨heq, -⟩ | ⟨other, -, -, heq⟩
  · rw [heq]
    exact steady_refl s
  · rw [heq]
    exact steady_closeSession other .newConnectionAttempt s

/-- A login is steady for a session that had no player, or this one. -/
theorem steady_bindPlayer (galaxyStatus : UInt8) (account : UInt32) {player : UInt64}
    (hid : s.session? id = some x) (hopen : x.isOver = false)
    (hplayer : x.playerId = 0 ∨ x.playerId = player) :
    Steady s (bindPlayer galaxyStatus id account player s) := by
  intro j y y' hy hy' hne
  by_cases hj : j = id
  · subst hj
    obtain rfl := Option.some.inj (hid.symm.trans hy)
    obtain ⟨z, hz, hzplayer, hzconnection⟩ :=
      session?_bindPlayer galaxyStatus account player hid hopen
    obtain rfl := Option.some.inj (hz.symm.trans hy')
    rcases hplayer with hzero | hsame
    · exact absurd hzero hne
    · exact ⟨hzplayer.trans hsame.symm, hzconnection⟩
  · rw [session?_bindPlayer_of_ne galaxyStatus account player hid hj] at hy'
    exact steady_refl s j y y' hy hy' hne

/-- A steady message leaves the games and the sessions in step. -/
theorem Settling.dispatch (h : Settling none s) {message : Bytes}
    (hsteady : Steady s (s.act (application galaxyStatus) codec (.dispatch id message))) :
    Settling none (s.act (application galaxyStatus) codec (.dispatch id message)) := by
  have hroster := h.roster.act galaxyStatus codec (.dispatch id message)
  have hone := h.one.act h.roster galaxyStatus codec (.dispatch id message)
  rcases act_dispatch_cases galaxyStatus codec s id message with
    heq | ⟨x, body, account, player, hid, hopen, -, hauthorize, heq⟩ |
    ⟨x, reply, hid, hopen, -, heq⟩
  · rw [heq]
    exact h
  · have hevicted := (session?_evict id player s).trans hid
    have hevict := h.evict id player
    have hplayer := Realm.ne_zero_of_authorize? hauthorize
    have htakes : x.isOver = false := (h.roster.isOver_eq hid).trans hopen
    rw [heq] at hsteady hroster hone ⊢
    obtain ⟨y, hy, hyplayer, -⟩ := session?_bindPlayer galaxyStatus account player hevicted htakes
    have hkept : x.playerId = 0 ∨ x.playerId = player := by
      by_cases hzero : x.playerId = 0
      · exact Or.inl hzero
      · exact Or.inr ((hsteady id x y hid hy hzero).1.symm.trans hyplayer)
    have halone : ∀ j c, (Service.evict id player s).Sits j player c → j = id := by
      rintro j c ⟨z, hz, hzremoving, hzplayer, -⟩
      by_cases hj : j = id
      · exact hj
      · have hzopen := hevict.isOpen j z hz hzremoving (by simp)
        exact absurd (isPlayedBy_iff.2 ⟨z, hz, hzplayer, hzopen⟩)
          (h.one.not_isPlayedBy_evict h.roster hplayer hj)
    refine ⟨hroster, hone, hevict.mirrored.bindPlayer galaxyStatus account hevicted htakes
      (h.roster.not_removing hid hopen) hkept halone, fun j z hz hzremoving hbusy => ?_⟩
    by_cases hj : j = id
    · subst hj
      obtain rfl := Option.some.inj (hy.symm.trans hz)
      obtain ⟨y', hy', hflag⟩ := isClosed_bindPlayer galaxyStatus account player hevicted
      obtain rfl := Option.some.inj (hy.symm.trans hy')
      exact hflag.trans hopen
    · rw [session?_bindPlayer_of_ne galaxyStatus account player hevicted hj] at hz
      exact hevict.isOpen j z hz hzremoving hbusy
  · have hqueued := x.remains_queue reply
    rw [heq] at hroster hone ⊢
    have htold := h.mirrored.withApp (Realm.games_record s.app (.objectReady x.playerId))
    refine ⟨hroster, hone, htold.put ((session?_withApp s _ id).trans hid) hqueued.removing
      hqueued.playerId fun _ => x.connectionId_queue reply, fun j z hz hzremoving hbusy => ?_⟩
    rcases of_session?_put ((session?_withApp s _ id).trans hid) hz with ⟨rfl, rfl⟩ | ⟨-, hz⟩
    · rw [Session.isClosed_queue]
      exact hopen
    · rw [session?_withApp] at hz
      exact h.isOpen j z hz hzremoving hbusy

/-! ## A game that is left in a datagram -/

/-- Somebody else's game is left on the connection of a session. -/
structure Doubled (id : SessionId) (s : Server Realm) (x : Session) (player : UInt64) : Prop where
  session : s.session? id = some x
  own : x.playerId ≠ 0
  left : player ≠ 0
  other : player ≠ x.playerId
  game : s.app.game? player = some x.connectionId
  ownGame : s.app.game? x.playerId = some x.connectionId
  nobody : ∀ j, ¬ s.isPlayedBy player j = true

theorem Doubled.not_mirrors {player : UInt64} (h : Doubled id s x player) : ¬ Mirrors s := by
  intro hmirrors
  obtain ⟨j, y, -, hy, hopen, hplayer, -⟩ := (hmirrors player h.left x.connectionId).1 h.game
  exact h.nobody j (isPlayedBy_iff.2 ⟨y, hy, hplayer, hopen⟩)

/-- An eviction leaves the games of others alone. -/
theorem game?_evict (id : SessionId) {player other : UInt64} (hother : other ≠ player)
    (s : Server Realm) : (evict id player s).app.game? other = s.app.game? other := by
  rcases evict_cases id player s with ⟨heq, -⟩ | ⟨k, -, hfound, heq⟩
  · rw [heq]
  rw [heq, closeSession]
  have happ := (works_shut k .newConnectionAttempt s).app
  rcases remove_cases onRemoved (s.shut k .newConnectionAttempt).1 k with
    ⟨hsame, -⟩ | ⟨y, sent, hy, -, -, hremoved⟩
  · rw [hsame, happ]
  · obtain ⟨z, hz, hsame, -⟩ := (works_shut k .newConnectionAttempt s).carries.session k y hy
    obtain ⟨w, hw, hwplayer, -⟩ := isPlayedBy_iff.1 (isPlayedBy_of_findPlayer? hfound)
    obtain rfl := Option.some.inj (hz.symm.trans hw)
    have hleaving : (leaving y).playerId = player :=
      ((remains_leaving y).playerId.trans hsame.playerId).trans hwplayer
    rw [hremoved]
    refine (game?_onRemoved_of_ne ?_).trans (by rw [happ])
    rw [hleaving]
    exact hother

/-- A login as another player leaves the game of a player whom no other session has. -/
theorem doubled_bindPlayer (galaxyStatus : UInt8) (account : UInt32) {player old : UInt64}
    (hid : s.session? id = some x) (hopen : x.isOver = false) (hplayer : player ≠ 0) (hold : old ≠ 0)
    (hne : old ≠ player) (hgame : s.app.game? old = some x.connectionId)
    (hnobody : ∀ j, j ≠ id → ¬ s.isPlayedBy old j = true) :
    ∃ y, Doubled id (bindPlayer galaxyStatus id account player (evict id player s)) y old := by
  have hevicted := (session?_evict id player s).trans hid
  obtain ⟨y, hy, hyplayer, hyconnection⟩ :=
    session?_bindPlayer galaxyStatus account player hevicted hopen
  have hgames : ∀ q, (bindPlayer galaxyStatus id account player (evict id player s)).app.game? q =
      if q = player then some x.connectionId else (evict id player s).app.game? q := by
    intro q
    rw [app_bindPlayer galaxyStatus account hevicted, Realm.game?_startGame]
  refine ⟨y, hy, by rwa [hyplayer], hold, by rwa [hyplayer], ?_, ?_, fun j hj => ?_⟩
  · rw [hgames, if_neg hne, game?_evict id hne s, hyconnection]
    exact hgame
  · rw [hgames, hyplayer, if_pos rfl, hyconnection]
  · rcases of_isPlayedBy_bindPlayer hevicted hopen hj with ⟨-, hsame⟩ | ⟨hjne, hplayed⟩
    · exact hne hsame
    · exact hnobody j hjne ((carries_evict id player s).isPlayedBy hplayed)

/-- After an unsteady message a game is left. -/
theorem Settling.doubled (h : Settling none s) {message : Bytes}
    (hunsteady : ¬ Steady s (s.act (application galaxyStatus) codec (.dispatch id message))) :
    ∃ y player, Doubled id (s.act (application galaxyStatus) codec (.dispatch id message)) y player := by
  rcases act_dispatch_cases galaxyStatus codec s id message with
    heq | ⟨x, body, account, player, hid, hopen, -, hauthorize, heq⟩ |
    ⟨x, reply, hid, hopen, -, heq⟩
  · rw [heq] at hunsteady
    exact absurd (steady_refl s) hunsteady
  · rw [heq] at hunsteady ⊢
    have hevicted := (session?_evict id player s).trans hid
    have htakes : x.isOver = false := (h.roster.isOver_eq hid).trans hopen
    have hchanged : ¬ (x.playerId = 0 ∨ x.playerId = player) := fun hkept =>
      hunsteady ((steady_evict id player s).trans
        (steady_bindPlayer galaxyStatus account hevicted htakes hkept) (carries_evict id player s))
    obtain ⟨hheld, hother⟩ := not_or.1 hchanged
    have hplayed : s.isPlayedBy x.playerId id = true := isPlayedBy_iff.2 ⟨x, hid, rfl, hopen⟩
    have hgame := (h.mirrored.game x.playerId hheld x.connectionId).2
      ⟨id, x, hid, h.roster.not_removing hid hopen, rfl, rfl⟩
    obtain ⟨y, hy⟩ := doubled_bindPlayer galaxyStatus account hid htakes
      (Realm.ne_zero_of_authorize? hauthorize) hheld hother hgame
      fun j hj hjplayed => hj (h.one x.playerId hheld j id hjplayed hplayed)
    exact ⟨y, x.playerId, hy⟩
  · refine absurd ?_ hunsteady
    rw [heq]
    intro j y y' hy hy' hne
    rcases of_session?_put ((session?_withApp s _ id).trans hid) hy' with ⟨rfl, rfl⟩ | ⟨-, hy'⟩
    · obtain rfl := Option.some.inj (hid.symm.trans hy)
      exact ⟨(x.remains_queue reply).playerId, x.connectionId_queue reply⟩
    · rw [session?_withApp] at hy'
      exact steady_refl s j y y' hy hy' hne

/-- A game that was left stays left while messages are dispatched, if not always the same. -/
theorem Doubled.dispatch {player : UInt64} (h : Doubled id s x player) (hroster : Roster s)
    (hone : OnePerPlayer s) (galaxyStatus : UInt8) (codec : Codec) (message : Bytes) :
    ∃ y other, Doubled id (s.act (application galaxyStatus) codec (.dispatch id message)) y other := by
  rcases act_dispatch_cases galaxyStatus codec s id message with
    heq | ⟨z, body, account, next, hid, hopen, -, hauthorize, heq⟩ | ⟨z, reply, hid, hopen, -, heq⟩
  · rw [heq]
    exact ⟨x, player, h⟩
  · obtain rfl := Option.some.inj (h.session.symm.trans hid)
    have hnext := Realm.ne_zero_of_authorize? hauthorize
    have htakes : x.isOver = false := (hroster.isOver_eq hid).trans hopen
    have hplayed : s.isPlayedBy x.playerId id = true := isPlayedBy_iff.2 ⟨x, hid, rfl, hopen⟩
    rw [heq]
    by_cases hne : player = next
    · -- the session comes back to the player whose game was left, and leaves the game of the one between
      obtain ⟨y, hy⟩ := doubled_bindPlayer galaxyStatus account hid htakes hnext h.own
        (hne ▸ h.other.symm) h.ownGame
        fun j hj hjplayed => hj (hone x.playerId h.own j id hjplayed hplayed)
      exact ⟨y, x.playerId, hy⟩
    · obtain ⟨y, hy⟩ := doubled_bindPlayer galaxyStatus account hid htakes hnext h.left hne h.game
        fun j _ => h.nobody j
      exact ⟨y, player, hy⟩
  · obtain rfl := Option.some.inj (h.session.symm.trans hid)
    have hplayer : (x.queue reply).1.playerId = x.playerId := (x.remains_queue reply).playerId
    have hconnection := x.connectionId_queue reply
    have hself := session?_put
      ((session?_withApp s (s.app.record (.objectReady x.playerId)) id).trans hid) (x.queue reply).1
    have hcarries := carries_queue hid h.own (s.app.record (.objectReady x.playerId)) reply
    rw [heq]
    refine ⟨(x.queue reply).1, player, hself, ?_, h.left, ?_, ?_, ?_,
      fun j hj => h.nobody j (hcarries.isPlayedBy hj)⟩
    · rw [hplayer]
      exact h.own
    · rw [hplayer]
      exact h.other
    · rw [hconnection]
      exact (Realm.game?_record s.app _ player).trans h.game
    · rw [hplayer, hconnection]
      exact (Realm.game?_record s.app _ x.playerId).trans h.ownGame

/-- A game that was left stays left while the messages of a datagram are dispatched. -/
theorem Doubled.dispatches {player : UInt64} (h : Doubled id s x player) (hroster : Roster s)
    (hone : OnePerPlayer s) (messages : List Bytes) :
    ∃ y other, Doubled id (s.perform (application galaxyStatus) codec
      (dispatches (application galaxyStatus) id messages s)) y other := by
  induction messages generalizing s x player with
  | nil => exact ⟨x, player, h⟩
  | cons message messages ih =>
    rw [Server.dispatches]
    cases hdispatch : (application galaxyStatus).handlers.dispatchMessage id message s with
    | ok next =>
      have hact : s.act (application galaxyStatus) codec (.dispatch id message) = next := by
        simp only [act, hdispatch]
      obtain ⟨y, other, hy⟩ := h.dispatch hroster hone galaxyStatus codec message
      have hnext := hroster.act galaxyStatus codec (.dispatch id message)
      have hnextOne := hone.act hroster galaxyStatus codec (.dispatch id message)
      rw [hact] at hy hnext hnextOne
      simp only [perform_cons, hact]
      exact ih hy hnext hnextOne
    | error e =>
      cases e with
      | sessionClosed endpoint => exact ⟨x, player, h⟩
      | _ => exact ih h hroster hone

/-- The messages of a datagram are steady, or leave a game. -/
theorem Settling.dispatches (h : Settling none s) (messages : List Bytes) :
    Settles galaxyStatus codec s (dispatches (application galaxyStatus) id messages s) ∨
      Leaks galaxyStatus codec s (dispatches (application galaxyStatus) id messages s) := by
  induction messages generalizing s with
  | nil => exact Or.inl (settles_nil h)
  | cons message messages ih =>
    rw [Server.dispatches]
    cases hdispatch : (application galaxyStatus).handlers.dispatchMessage id message s with
    | ok next =>
      have hact : s.act (application galaxyStatus) codec (.dispatch id message) = next := by
        simp only [act, hdispatch]
      subst hact
      dsimp only
      by_cases hsteady : Steady s (s.act (application galaxyStatus) codec (.dispatch id message))
      · rcases ih (h.dispatch hsteady) with hsettles | hleaks
        · exact Or.inl (hsettles.cons hsteady)
        · exact Or.inr hleaks.cons
      · right
        obtain ⟨y, player, hy⟩ := h.doubled hsteady
        obtain ⟨z, other, hz⟩ := hy.dispatches (h.roster.act galaxyStatus codec _)
          (h.one.act h.roster galaxyStatus codec _) messages
        exact ⟨hz.not_mirrors, _, List.mem_cons_self, hsteady⟩
    | error e =>
      cases e with
      | sessionClosed endpoint => exact Or.inl (settles_nil h)
      | _ => exact ih h

/-- The messages of a datagram do not shut their session down. -/
theorem open_dispatches (galaxyStatus : UInt8) (codec : Codec) (messages : List Bytes)
    (hid : s.session? id = some x) (hopen : x.isClosed = false) :
    ∃ y, (s.perform (application galaxyStatus) codec
      (dispatches (application galaxyStatus) id messages s)).session? id = some y ∧
      y.isClosed = false := by
  induction messages generalizing s x with
  | nil => exact ⟨x, hid, hopen⟩
  | cons message messages ih =>
    rw [dispatches]
    cases hdispatch : (application galaxyStatus).handlers.dispatchMessage id message s with
    | ok next =>
      have hact : s.act (application galaxyStatus) codec (.dispatch id message) = next := by
        simp only [act, hdispatch]
      obtain ⟨y, hy, hyopen⟩ := open_dispatch galaxyStatus codec message hid hopen
      rw [hact] at hy
      simp only [perform_cons, hact]
      exact ih hy hyopen
    | error e =>
      cases e with
      | sessionClosed endpoint => exact ⟨x, hid, hopen⟩
      | _ => exact ih hid hopen

/-- A session that is shutting down gets no message. -/
theorem dispatches_of_closed (messages : List Bytes) (hid : s.session? id = some x)
    (hclosed : x.isClosed = true) : dispatches (application galaxyStatus) id messages s = [] := by
  have hrefused : ∀ message next,
      (application galaxyStatus).handlers.dispatchMessage id message s ≠ .ok next := by
    intro message next
    unfold Registry.dispatchMessage
    split
    · unfold Registry.dispatch
      split
      · simp
      · simp [hid, hclosed]
    · simp
  induction messages with
  | nil => rfl
  | cons message messages ih =>
    rw [dispatches]
    cases hdispatch : (application galaxyStatus).handlers.dispatchMessage id message s with
    | ok next => exact absurd hdispatch (hrefused message next)
    | error e =>
      cases e with
      | sessionClosed endpoint => rfl
      | _ => exact ih

/-! ## Datagrams -/

theorem session?_accept (codec : Codec) (now : Nat) (bytes : Bytes) (hid : s.session? id = some x) :
    (s.accept codec id now bytes).session? id =
      some (x.handle codec now (s.seeds.headD 0) bytes).session := by
  unfold accept
  rw [hid]
  exact session?_put hid _

/-- An acceptance that is not steady leaves the game on the connection before; it brings no message and shuts
nothing down. -/
theorem Settling.accept_unsteady (h : Settling none s) {now : Nat} {bytes : Bytes}
    (hid : s.session? id = some x) (hunsteady : ¬ Steady s (s.accept codec id now bytes)) :
    (x.handle codec now (s.seeds.headD 0) bytes).result = .ok [] ∧
      (x.handle codec now (s.seeds.headD 0) bytes).session.isClosed = false ∧
      ¬ Mirrors (s.accept codec id now bytes) := by
  have hself := session?_accept codec now bytes hid
  have hworks := works_accept codec id now bytes s
  have hchanged : x.playerId ≠ 0 ∧
      (x.handle codec now (s.seeds.headD 0) bytes).session.connectionId ≠ x.connectionId := by
    by_cases hplayer : x.playerId = 0
    · refine absurd (steady_of_works hworks fun y y' hy _ hne => ?_) hunsteady
      obtain rfl := Option.some.inj (hid.symm.trans hy)
      exact absurd hplayer hne
    · refine ⟨hplayer, fun hsame => hunsteady (steady_of_works hworks fun y y' hy hy' _ => ?_)⟩
      obtain rfl := Option.some.inj (hid.symm.trans hy)
      obtain rfl := Option.some.inj (hself.symm.trans hy')
      exact hsame
  obtain ⟨hheld, hconnection⟩ := hchanged
  obtain ⟨htakes, hresult, hover⟩ := Session.handle_of_connectionId_ne hconnection
  have hopen : x.isClosed = false := (h.roster.isOver_eq hid).symm.trans htakes
  have hstays := ((h.roster.works hworks).isOver_eq hself).symm.trans hover
  have hremains := x.remains_handle codec now (s.seeds.headD 0) bytes
  have hseated := h.roster.not_removing hid hopen
  refine ⟨hresult, hstays, fun hmirrors => hconnection ?_⟩
  have hbefore := (h.mirrored.game x.playerId hheld x.connectionId).2 ⟨id, x, hid, hseated, rfl, rfl⟩
  have hlisted := ((h.roster.works hworks).mem_ids_iff hself).2 (hremains.removing.trans hseated)
  have hafter := (hmirrors x.playerId hheld _).2
    ⟨id, _, hlisted, hself, hstays, hremains.playerId, rfl⟩
  rw [hworks.app] at hafter
  exact Option.some.inj (hafter.symm.trans hbefore)

theorem reaping_of_open (hid : s.session? id = some x) (hopen : x.isClosed = false) :
    s.reaping id = [] := by
  simp [reaping, hid, hopen]

theorem reaping_of_closed (hid : s.session? id = some x) (hclosed : x.isClosed = true) :
    s.reaping id = [.remove id] := by
  simp [reaping, hid, hclosed]

/-- What becomes of the messages of a datagram that was taken: they are dispatched, and the session is removed if
it shuts down. -/
theorem Settling.answered (h : Settling (some id) s) (hid : s.session? id = some x)
    (messages : List Bytes) :
    let acts := Server.dispatches (application galaxyStatus) id messages s ++
      ((application galaxyStatus).handlers.dispatchAll id messages s).reaping id
    Settles galaxyStatus codec s acts ∨ Leaks galaxyStatus codec s acts := by
  intro acts
  have hdispatched : s.perform (application galaxyStatus) codec
      (Server.dispatches (application galaxyStatus) id messages s) =
        (application galaxyStatus).handlers.dispatchAll id messages s := perform_dispatches id messages s
  cases hclosed : x.isClosed with
  | true =>
    have hnothing : Server.dispatches (application galaxyStatus) id messages s = [] :=
      dispatches_of_closed messages hid hclosed
    have hacts : acts = [.remove id] := by
      simp only [acts]
      rw [← hdispatched, hnothing, perform_nil, reaping_of_closed hid hclosed]
      rfl
    rw [hacts]
    exact Or.inl (settles_remove h)
  | false =>
    have hsettled : Settling none s := h.done fun y hy => by
      rw [← Option.some.inj (hid.symm.trans hy)]
      exact hclosed
    obtain ⟨y, hy, hopen⟩ := open_dispatches galaxyStatus codec messages hid hclosed
    have hacts : acts = Server.dispatches (application galaxyStatus) id messages s := by
      simp only [acts]
      rw [← hdispatched, reaping_of_open hy hopen, List.append_nil]
    rw [hacts]
    exact hsettled.dispatches messages

/-- What a session does with a datagram is steady, or leaves a game. -/
theorem Settling.receiving (h : Settling none s) (id : SessionId) (now : Nat) (bytes : Bytes) :
    Settles galaxyStatus codec s (s.receiving (application galaxyStatus) codec id now bytes) ∨
      Leaks galaxyStatus codec s (s.receiving (application galaxyStatus) codec id now bytes) := by
  unfold Server.receiving
  cases hid : s.session? id with
  | none => exact Or.inl (settles_nil h)
  | some x =>
    have hself := session?_accept codec now bytes hid
    have hdraws : (x.handleDrawing codec now s.seeds bytes).1 =
        x.handle codec now (s.seeds.headD 0) bytes := rfl
    dsimp only
    rw [hdraws]
    by_cases hsteady : Steady s (s.accept codec id now bytes)
    · have haccepted : Settling (some id) (s.accept codec id now bytes) :=
        (h.begun id).works (works_accept codec id now bytes s) hsteady fun hne => absurd rfl hne
      cases (x.handle codec now (s.seeds.headD 0) bytes).result with
      | error v => exact Or.inl (Settles.cons hsteady (settles_closing haccepted .protocolViolation))
      | ok messages =>
        rcases haccepted.answered hself messages with hsettles | hleaks
        · exact Or.inl (Settles.cons hsteady hsettles)
        · exact Or.inr (Leaks.cons hleaks)
    · -- a request brings no message, so that this is all that happens
      obtain ⟨hresult, hopen, hunmirrored⟩ := h.accept_unsteady hid hsteady
      have hnothing : (s.accept codec id now bytes).reaping id = [] := reaping_of_open hself hopen
      rw [hresult]
      simp only [Server.dispatches, Registry.dispatchAll, hnothing, List.append_nil]
      exact Or.inr ⟨hunmirrored, _, List.mem_cons_self, hsteady⟩

/-! ## Events -/

/-- The call goes through the server, not past it. -/
def Event.isServed : Event → Bool
  | .shut _ _ => false
  | _ => true

/-- What an event does is steady, or leaves a game. -/
theorem Settling.acts (h : Settling none s) {event : Event} (hserved : event.isServed = true) :
    Settles galaxyStatus codec s (s.acts (application galaxyStatus) codec event) ∨
      Leaks galaxyStatus codec s (s.acts (application galaxyStatus) codec event) := by
  cases event with
  | datagram now endpoint bytes =>
    have hfirst : Settles galaxyStatus codec s (s.superseding endpoint bytes) :=
      settles_superseding h endpoint bytes
    have hsuperseded : s.perform (application galaxyStatus) codec (s.superseding endpoint bytes) =
        s.supersede (application galaxyStatus).onRemoved endpoint bytes :=
      perform_superseding s endpoint bytes
    rw [Server.acts, ← hsuperseded]
    have hentered : Settles galaxyStatus codec _ [.enter endpoint now] :=
      settles_enter hfirst.settled endpoint now
    cases hopen : (s.perform (application galaxyStatus) codec
        (s.superseding endpoint bytes)).openSession endpoint now with
    | error e => exact Or.inl (hfirst.append (settles_nil hfirst.settled))
    | ok opened =>
      obtain ⟨id, opened⟩ := opened
      have hact : (s.perform (application galaxyStatus) codec (s.superseding endpoint bytes)).act
          (application galaxyStatus) codec (.enter endpoint now) = opened := by
        simp only [act, hopen]
      obtain ⟨hsettled, hsteady⟩ := hentered
      have henter := hsteady _ List.mem_cons_self
      rw [perform_cons, perform_nil, hact] at hsettled
      dsimp only at henter ⊢
      rcases hsettled.receiving id now bytes with hsettles | hleaks
      · refine Or.inl (hfirst.append (Settles.cons henter ?_))
        rw [hact]
        exact hsettles
      · refine Or.inr (Leaks.append (Leaks.cons ?_))
        rw [hact]
        exact hleaks
  | tick now => exact Or.inl (settles_serially (fun s id hs => settles_maintaining hs id now) _ h)
  | shut id reason => cases hserved
  | close id reason => exact Or.inl (settles_closing (h.begun id) reason)
  | remove id => exact Or.inl (settles_remove (h.begun id))
  | closeAll =>
    exact Or.inl (settles_serially (fun s id hs => settles_closing (hs.begun id) .application) _ h)
  | rehash entries => exact Or.inl (settles_rehash h entries)

/-- The mirror holds after every call exactly if every act is steady. -/
theorem Settling.mirrors_iff (h : Settling none s) {events : List Event}
    (hserved : ∀ event ∈ events, event.isServed = true) :
    (∀ before, before <+: events → Mirrors (s.run (application galaxyStatus) codec before)) ↔
      ∀ m ∈ s.history (application galaxyStatus) codec events, Steady m.before m.after := by
  induction events generalizing s with
  | nil =>
    refine iff_of_true (fun before hbefore => ?_) (by simp [history])
    rw [List.prefix_nil.1 hbefore]
    exact h.mirrors
  | cons event events ih =>
    have houtcome : Settles galaxyStatus codec s (s.acts (application galaxyStatus) codec event) ∨
        Leaks galaxyStatus codec s (s.acts (application galaxyStatus) codec event) :=
      h.acts (hserved event List.mem_cons_self)
    have hstep : s.step (application galaxyStatus) codec event =
        s.perform (application galaxyStatus) codec (s.acts (application galaxyStatus) codec event) :=
      step_eq_perform s event
    rcases houtcome with hsettles | hleaks
    · have hnext : Settling none (s.step (application galaxyStatus) codec event) := by
        rw [hstep]
        exact hsettles.settled
      have hrest := ih hnext fun e he => hserved e (List.mem_cons_of_mem _ he)
      constructor
      · intro hall m hm
        rcases List.mem_append.1 hm with hm | hm
        · exact hsettles.steady m hm
        · refine hrest.1 (fun before hbefore => ?_) m hm
          exact hall (event :: before) (List.prefix_cons_iff.2 (Or.inr ⟨before, rfl, hbefore⟩))
      · intro hall before hbefore
        rcases List.prefix_cons_iff.1 hbefore with rfl | ⟨rest, rfl, hshorter⟩
        · exact h.mirrors
        · exact hrest.2 (fun m hm => hall m (List.mem_append_right _ hm)) rest hshorter
    · refine iff_of_false (fun hall => ?_) fun hall => ?_
      · have hfirst := hall [event] (List.prefix_cons_iff.2 (Or.inr ⟨[], rfl, List.nil_prefix⟩))
        simp only [run, List.foldl_cons, List.foldl_nil] at hfirst
        rw [hstep] at hfirst
        exact hleaks.unmirrored hfirst
      · obtain ⟨m, hm, hunsteady⟩ := hleaks.unsteady
        exact hunsteady (hall m (List.mem_append_left _ hm))

end Server

namespace Service

open Server

theorem settling_started (config : ProtocolConfig) (limit : Nat) (seeds : List UInt32)
    (accounts : List DevAccount) : Settling none (started config limit seeds accounts) := by
  have hnone : ∀ id, (started config limit seeds accounts).session? id = none := fun _ => rfl
  have hnowhere : ∀ id player c, ¬ (started config limit seeds accounts).Sits id player c := by
    rintro id player c ⟨x, hx, -⟩
    cases (hnone id).symm.trans hx
  refine ⟨roster_started config limit seeds accounts, onePerPlayer_started config limit seeds accounts,
    ⟨fun player _ c => ?_, ?_⟩, ?_⟩
  · refine iff_of_false (by simp [started, create, Realm.game?]) ?_
    rintro ⟨id, hsits⟩
    exact hnowhere id player c hsits
  · intro player _ i j c c' hi
    exact absurd hi (hnowhere i player c)
  · intro id x hx
    cases (hnone id).symm.trans hx

/-- The games mirror the live sessions after every call of a server of the service exactly if no session that has
a player ever takes another player or another connection. -/
theorem mirrors_iff_steady (config : ProtocolConfig) (limit : Nat) (seeds : List UInt32)
    (accounts : List DevAccount) (galaxyStatus : UInt8) (codec : Codec) (events : List Event)
    (hserved : ∀ event ∈ events, event.isServed = true) :
    let start := started config limit seeds accounts
    (∀ before, before <+: events → Mirrors (start.run (application galaxyStatus) codec before)) ↔
      ∀ m ∈ start.history (application galaxyStatus) codec events, Steady m.before m.after :=
  (settling_started config limit seeds accounts).mirrors_iff hserved

/-- A player logs in at two endpoints; the second one shuts down. -/
theorem mirrors_iff_steady_evicted :
    let login : Bytes := Packet.header .data 0 ++ Message.encode .clientId { sessionKey := "a" }
    let events : List Event :=
      [.datagram 0 ⟨.v4 10 0 0 1, 5000⟩ login, .datagram 0 ⟨.v4 10 0 0 2, 5000⟩ login,
        .close 1 .application]
    let start := started {} 4 [] [⟨"a", 1, 500, 2⟩]
    (∀ event ∈ events, event.isServed = true) ∧
      ∀ before, before <+: events →
        Mirrors (start.run (application 1) ⟨fun _ => none, fun _ _ => none⟩ before) := by
  intro login events start
  have hserved : ∀ event ∈ events, event.isServed = true := by decide
  have hsteady : ∀ m ∈ start.history (application 1) ⟨fun _ => none, fun _ _ => none⟩ events,
      Steady m.before m.after := by decide +kernel
  exact ⟨hserved, (mirrors_iff_steady {} 4 [] [⟨"a", 1, 500, 2⟩] 1 ⟨fun _ => none, fun _ _ => none⟩
    events hserved).2 hsteady⟩

/-- A request to open another connection after the login: when the session is closed, the table is empty, and
the player is still in game. -/
theorem not_mirrors_reopened :
    let login : Bytes := Packet.header .data 0 ++ Message.encode .clientId { sessionKey := "a" }
    let request : Bytes := [0, 1, 0, 0, 0, 0, 0, 0, 0, 7, 0, 0, 1, 240]
    let s := (started { crcLength := 0, compression := false } 4 [9] [⟨"a", 1, 500, 2⟩]).run
      (application 1) ⟨fun _ => none, fun _ _ => none⟩
      [.datagram 0 ⟨.v4 10 0 0 1, 5000⟩ login, .datagram 0 ⟨.v4 10 0 0 1, 5000⟩ request,
        .close 0 .application]
    s.table.ids = [] ∧ s.app.game? 500 = some 0 ∧ ¬ Mirrors s := by
  intro login request s
  have hempty : s.table.ids = [] := by decide +kernel
  have hgame : s.app.game? 500 = some 0 := by decide +kernel
  refine ⟨hempty, hgame, fun hmirrors => ?_⟩
  obtain ⟨id, x, hid, -⟩ := (hmirrors 500 (by decide) 0).1 hgame
  rw [hempty] at hid
  cases hid

end Service

end GameGateway
