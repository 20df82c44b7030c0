import GameGateway.Proofs.Players

/-!
# Games and sessions

The realm notes for each player in game the connection it plays on. As long as every session that has a player
keeps it and its connection, these notes are exactly the sessions in the table that have a player:
`Server.Mirrored` is preserved by every such act.

## Implementation notes

Between the shutdown of a session and its removal a session in the table is shut down. `Server.Settling`
therefore names the session that an event is at work on; when the event is done there is none.
-/

namespace GameGateway

/-- What is found when the entries of one key are taken out. -/
theorem lookup_filter_key {κ β : Type} [DecidableEq κ] (key other : κ) (entries : List (κ × β)) :
    (entries.filter fun entry => entry.1 != key).lookup other = if other = key then none else entries.lookup other := by
  induction entries with
  | nil => simp
  | cons entry entries ih =>
    obtain ⟨owner, value⟩ := entry
    rw [List.filter_cons]
    by_cases hother : other = owner
    · subst hother
      by_cases hkey : other = key
      · rw [if_pos hkey] at ih ⊢
        rw [if_neg (by simp [hkey])]
        exact ih
      · rw [if_neg hkey, if_pos (by simp [hkey])]
        simp only [List.lookup_cons, BEq.rfl]
    · have hne : (other == owner) = false := beq_eq_false_iff_ne.2 hother
      rw [List.lookup_cons, hne, ← ih]
      split
      · rw [List.lookup_cons, hne]
      · rfl

namespace Realm

theorem lookup_withoutGame (player other : UInt64) (games : List (UInt64 × UInt32)) :
    (withoutGame player games).lookup other = if other = player then none else games.lookup other :=
  lookup_filter_key player other games

theorem game?_startGame (r : Realm) (player other : UInt64) (c : UInt32) :
    (r.startGame player c).game? other = if other = player then some c else r.game? other := by
  simp only [game?, startGame, List.lookup_cons, lookup_withoutGame]
  by_cases h : other = player
  · simp [h]
  · have hne : (other == player) = false := by simp [h]
    simp only [hne, if_neg h]

theorem games_record (r : Realm) (event : SimulationEvent) : (r.record event).games = r.games := by
  simp only [record]

theorem game?_record (r : Realm) (event : SimulationEvent) (player : UInt64) :
    (r.record event).game? player = r.game? player := by
  rw [game?, games_record, game?]

end Realm

namespace Service

variable {n : Server.Notice} {r : Realm}

/-- The removal of a session ends the game that it is on. -/
theorem game?_onRemoved_self (hplayer : n.session.playerId ≠ 0)
    (hgame : r.game? n.session.playerId = some n.session.connectionId) :
    (onRemoved n r).game? n.session.playerId = none := by
  rw [onRemoved, if_neg hplayer]
  simp only [Realm.game?_record, Realm.endGame, hgame, if_pos]
  rw [Realm.game?, Realm.lookup_withoutGame, if_pos rfl]

/-- The removal of a session leaves the games of others alone. -/
theorem game?_onRemoved_of_ne {player : UInt64} (h : player ≠ n.session.playerId) :
    (onRemoved n r).game? player = r.game? player := by
  rw [onRemoved]
  split
  · rfl
  · simp only [Realm.game?_record, Realm.endGame]
    split
    · rw [Realm.game?, Realm.lookup_withoutGame, if_neg h]
      rfl
    · rfl

end Service

namespace Server

open Service

/-! ## Who sits where -/

section Sits

variable {α : Type} {s s' : Server α} {id j : SessionId} {x x' : Session} {player : UInt64} {c : UInt32}

/-- A session whose removal has not begun is a player's, on a connection. -/
def Sits (s : Server α) (id : SessionId) (player : UInt64) (c : UInt32) : Prop :=
  ∃ x, s.session? id = some x ∧ x.removing = false ∧ x.playerId = player ∧ x.connectionId = c

theorem sits_iff (hid : s.session? id = some x) :
    s.Sits id player c ↔ x.removing = false ∧ x.playerId = player ∧ x.connectionId = c := by
  simp [Sits, hid]

theorem sits_congr (h : s'.session? id = s.session? id) : s'.Sits id player c ↔ s.Sits id player c := by
  rw [Sits, h]
  exact Iff.rfl

/-- A session that was removed sits nowhere. -/
theorem sits_remove (onRemoved : Listener α) :
    (s.remove onRemoved id).1.Sits j player c ↔ j ≠ id ∧ s.Sits j player c := by
  by_cases hj : j = id
  · subst hj
    refine iff_of_false ?_ fun h => h.1 rfl
    rintro ⟨y, hy, hseated, -⟩
    rw [removing_remove hy] at hseated
    cases hseated
  · rw [sits_congr (session?_remove_of_ne onRemoved hj s)]
    exact (and_iff_right hj).symm

end Sits

/-! ## The mirror -/

/-- The games are the sessions in the table that have a player, and no player has two. -/
structure Mirrored (s : Server Realm) : Prop where
  game : ∀ player, player ≠ 0 → ∀ c, s.app.game? player = some c ↔ ∃ id, s.Sits id player c
  one : ∀ player, player ≠ 0 → ∀ i j c c', s.Sits i player c → s.Sits j player c' → i = j

variable {s s' : Server Realm} {id : SessionId} {x x' : Session}

theorem Mirrored.congr (h : Mirrored s) (hgame : ∀ player, s'.app.game? player = s.app.game? player)
    (hsits : ∀ id player c, player ≠ 0 → (s'.Sits id player c ↔ s.Sits id player c)) : Mirrored s' where
  game := fun player hplayer c => by
    simp only [hgame, hsits _ player _ hplayer]
    exact h.game player hplayer c
  one := fun player hplayer i j c c' hi hj =>
    h.one player hplayer i j c c' ((hsits i player c hplayer).1 hi) ((hsits j player c' hplayer).1 hj)

/-- A session that keeps its player and, if it has one, its connection. -/
theorem Mirrored.put (h : Mirrored s) (hid : s.session? id = some x)
    (hremoving : x'.removing = x.removing) (hplayer : x'.playerId = x.playerId)
    (hconnection : x.playerId ≠ 0 → x'.connectionId = x.connectionId) : Mirrored (s.put id x') := by
  refine h.congr (fun _ => rfl) fun j player c hne => ?_
  by_cases hj : j = id
  · subst hj
    rw [sits_iff (session?_put hid x'), sits_iff hid, hremoving, hplayer]
    constructor
    · rintro ⟨hseated, rfl, hc⟩
      exact ⟨hseated, rfl, (hconnection hne).symm.trans hc⟩
    · rintro ⟨hseated, rfl, hc⟩
      exact ⟨hseated, rfl, (hconnection hne).trans hc⟩
  · exact sits_congr (session?_put_of_ne hj s x')

/-- The games and the sessions are all that the mirror is about. -/
theorem Mirrored.ofEq (h : Mirrored s) (hsessions : s'.sessions = s.sessions)
    (hgames : s'.app.games = s.app.games) : Mirrored s' := by
  refine h.congr (fun player => ?_) fun id player c _ => sits_congr ?_
  · rw [Realm.game?, hgames]
    rfl
  · rw [session?, hsessions]
    rfl

theorem Mirrored.withApp (h : Mirrored s) {app : Realm} (hgames : app.games = s.app.games) :
    Mirrored { s with app } := h.ofEq rfl hgames

/-- A session that leaves the table takes its game along. -/
theorem Mirrored.remove (h : Mirrored s) (id : SessionId) : Mirrored (s.remove onRemoved id).1 := by
  have hone : ∀ player, player ≠ 0 → ∀ i j c c', (s.remove onRemoved id).1.Sits i player c →
      (s.remove onRemoved id).1.Sits j player c' → i = j := by
    intro player hplayer i j c c' hi hj
    exact h.one player hplayer i j c c' ((sits_remove onRemoved).1 hi).2 ((sits_remove onRemoved).1 hj).2
  refine ⟨fun player hplayer c => ?_, hone⟩
  simp only [sits_remove]
  rcases remove_cases onRemoved s id with ⟨heq, hremoving⟩ | ⟨x, sent, hid, hremoving, -, heq⟩
  · rw [heq, h.game player hplayer c]
    refine exists_congr fun j => (and_iff_right_of_imp ?_).symm
    rintro ⟨x, hx, hseated, -⟩ rfl
    rw [hremoving x hx] at hseated
    cases hseated
  have happ : (s.remove onRemoved id).1.app = onRemoved ⟨id, leaving x, s.table⟩ s.app := by rw [heq]; rfl
  have hleaving : (leaving x).playerId = x.playerId := (remains_leaving x).playerId
  have hconnection : (leaving x).connectionId = x.connectionId := Session.connectionId_close .application _
  have hsits : s.Sits id x.playerId x.connectionId := ⟨x, hid, hremoving, rfl, rfl⟩
  rw [happ]
  by_cases hown : player = x.playerId
  · -- the game of this session's player ends, and nobody else has that player
    subst hown
    have hgame := (h.game x.playerId hplayer x.connectionId).2 ⟨id, hsits⟩
    rw [← hleaving] at hplayer hgame
    rw [← hconnection] at hgame
    have hended := game?_onRemoved_self (n := ⟨id, leaving x, s.table⟩) hplayer hgame
    rw [hleaving] at hended hplayer
    rw [hended]
    refine iff_of_false (by simp) ?_
    rintro ⟨j, hj, hjsits⟩
    exact hj (h.one x.playerId hplayer j id c _ hjsits hsits)
  · rw [game?_onRemoved_of_ne (n := ⟨id, leaving x, s.table⟩) (by rwa [hleaving]), h.game player hplayer c]
    refine exists_congr fun j => (and_iff_right_of_imp ?_).symm
    rintro hj rfl
    exact hown ((sits_iff hid).1 hj).2.1.symm

/-- A session that is created is nobody's. -/
theorem Mirrored.append (h : Mirrored s) {y : Session} (hsessions : s'.sessions = s.sessions ++ [y])
    (hy : y.playerId = 0) (happ : s'.app = s.app) : Mirrored s' := by
  refine h.congr (fun player => by rw [happ]) fun id player c hplayer => ?_
  constructor
  · rintro ⟨x, hx, hseated⟩
    rw [session?, hsessions] at hx
    rcases of_getElem?_concat hx with hold | ⟨-, rfl⟩
    · exact ⟨x, hold, hseated⟩
    · exact absurd (hseated.2.1.symm.trans hy) hplayer
  · rintro ⟨x, hx, hseated⟩
    have hlt := (List.getElem?_eq_some_iff.1 hx).1
    refine ⟨x, ?_, hseated⟩
    rw [session?, hsessions, List.getElem?_append_left hlt]
    exact hx

section Binding

variable (galaxyStatus : UInt8) (account : UInt32) {player : UInt64}

theorem app_bindPlayer (hid : s.session? id = some x) :
    (bindPlayer galaxyStatus id account player s).app = s.app.startGame player x.connectionId := by
  obtain ⟨y, hbind, -⟩ := bindPlayer_eq_put galaxyStatus account player hid
  rw [hbind]
  rfl

/-- Behind a login the session sits where its player is, and the others sit where they sat. -/
theorem sits_bindPlayer (hid : s.session? id = some x) (hopen : x.isOver = false)
    (hseated : x.removing = false) (j : SessionId) (q : UInt64) (c : UInt32) :
    (bindPlayer galaxyStatus id account player s).Sits j q c ↔
      if j = id then q = player ∧ x.connectionId = c else s.Sits j q c := by
  obtain ⟨reply, hbind⟩ := bindPlayer_eq galaxyStatus account player hid hopen
  rw [hbind]
  split
  · rename_i hj
    subst hj
    have hbound : (bound account player reply x).removing = false :=
      (remains_bound account player reply x).removing.trans hseated
    rw [sits_iff (session?_put ((session?_withApp _ _ j).trans hid) _), eq_comm (a := q)]
    exact and_iff_right hbound
  · rename_i hj
    exact sits_congr (session?_put_of_ne hj _ _)

/-- A login of a session that had no player, or this one. -/
theorem Mirrored.bindPlayer (h : Mirrored s) (hid : s.session? id = some x) (hopen : x.isOver = false)
    (hseated : x.removing = false) (hsteady : x.playerId = 0 ∨ x.playerId = player)
    (halone : ∀ j c, s.Sits j player c → j = id) :
    Mirrored (Service.bindPlayer galaxyStatus id account player s) := by
  have hsits : ∀ j q c, (Service.bindPlayer galaxyStatus id account player s).Sits j q c ↔
      if j = id then q = player ∧ x.connectionId = c else s.Sits j q c :=
    sits_bindPlayer galaxyStatus account hid hopen hseated
  have honly : ∀ j c, (Service.bindPlayer galaxyStatus id account player s).Sits j player c → j = id := by
    intro j c hj
    rw [hsits] at hj
    split at hj
    · assumption
    · exact halone j c hj
  have hold : ∀ q, q ≠ 0 → q ≠ player → ∀ j c,
      (Service.bindPlayer galaxyStatus id account player s).Sits j q c ↔ s.Sits j q c := by
    intro q hq hne j c
    rw [hsits]
    split
    · rename_i hj
      subst hj
      refine iff_of_false (fun hown => hne hown.1) fun hown => ?_
      have hplayer := ((sits_iff hid).1 hown).2.1
      rcases hsteady with hzero | hsame
      · exact hq (hplayer.symm.trans hzero)
      · exact hne (hplayer.symm.trans hsame)
    · exact Iff.rfl
  constructor
  · intro q hq c
    rw [app_bindPlayer galaxyStatus account hid, Realm.game?_startGame]
    split
    · rename_i heq
      subst heq
      constructor
      · intro hc
        refine ⟨id, (hsits id q c).2 ?_⟩
        rw [if_pos rfl]
        exact ⟨rfl, Option.some.inj hc⟩
      · rintro ⟨j, hj⟩
        obtain rfl := honly j c hj
        rw [hsits, if_pos rfl] at hj
        exact congrArg some hj.2
    · rename_i hne
      rw [h.game q hq c]
      exact exists_congr fun j => (hold q hq hne j c).symm
  · intro q hq i j c c' hi hj
    by_cases hne : q = player
    · subst hne
      exact (honly i c hi).trans (honly j c' hj).symm
    · exact h.one q hq i j c c' ((hold q hq hne i c).1 hi) ((hold q hq hne j c').1 hj)

end Binding

/-! ## Steady acts -/

/-- Every session that has a player keeps it and its connection. -/
def Steady (s s' : Server Realm) : Prop :=
  ∀ id x x', s.session? id = some x → s'.session? id = some x' → x.playerId ≠ 0 →
    x'.playerId = x.playerId ∧ x'.connectionId = x.connectionId

theorem steady_iff : Steady s s' ↔ ∀ pair ∈ s.sessions.zip s'.sessions, pair.1.playerId ≠ 0 →
    pair.2.playerId = pair.1.playerId ∧ pair.2.connectionId = pair.1.connectionId := by
  constructor
  · intro h pair hpair
    obtain ⟨id, hid⟩ := List.mem_iff_getElem?.1 hpair
    obtain ⟨hx, hx'⟩ := List.getElem?_zip_eq_some.1 hid
    exact h id pair.1 pair.2 hx hx'
  · intro h id x x' hx hx'
    exact h (x, x') (List.mem_iff_getElem?.2 ⟨id, List.getElem?_zip_eq_some.2 ⟨hx, hx'⟩⟩)

instance : Decidable (Steady s s') := decidable_of_iff _ steady_iff.symm

theorem steady_refl (s : Server Realm) : Steady s s := by
  intro id x x' hx hx' _
  obtain rfl := Option.some.inj (hx.symm.trans hx')
  exact ⟨rfl, rfl⟩

theorem Steady.trans {s'' : Server Realm} (h : Steady s s') (h' : Steady s' s'')
    (hcarries : Carries s s') : Steady s s'' := by
  intro id x x'' hx hx'' hplayer
  obtain ⟨x', hx', -⟩ := hcarries.exists_session? hx
  obtain ⟨hplayer', hconnection⟩ := h id x x' hx hx' hplayer
  obtain ⟨hplayer'', hconnection'⟩ := h' id x' x'' hx' hx'' (by rwa [hplayer'])
  exact ⟨hplayer''.trans hplayer', hconnection'.trans hconnection⟩

/-- A session that works without changing the connection of its player. -/
theorem steady_of_works (hw : Works id s s')
    (hconnection : ∀ x x', s.session? id = some x → s'.session? id = some x' → x.playerId ≠ 0 →
      x'.connectionId = x.connectionId) : Steady s s' := by
  intro j y y' hy hy' hplayer
  obtain ⟨z, hz, hsame, -⟩ := hw.carries.session j y' hy'
  obtain rfl := Option.some.inj (hy.symm.trans hz)
  refine ⟨hsame.playerId, ?_⟩
  by_cases hj : j = id
  · subst hj
    exact hconnection y y' hy hy' hplayer
  · rw [hw.session?_of_ne hj] at hy'
    rw [Option.some.inj (hy.symm.trans hy')]

theorem session?_shut (hid : s.session? id = some x) (reason : DisconnectReason) :
    (s.shut id reason).1.session? id = some (x.close reason).1 := by
  unfold shut
  rw [hid]
  exact session?_put hid _

theorem steady_shut (id : SessionId) (reason : DisconnectReason) (s : Server Realm) :
    Steady s (s.shut id reason).1 := by
  refine steady_of_works (works_shut id reason s) fun x x' hx hx' _ => ?_
  obtain rfl := Option.some.inj ((session?_shut hx reason).symm.trans hx')
  exact x.connectionId_close reason

theorem session?_maintain (hid : s.session? id = some x) (now : Nat) :
    (s.maintain id now).session? id = some (x.update now).session := by
  unfold maintain
  rw [hid]
  exact session?_put hid _

theorem steady_maintain (id : SessionId) (now : Nat) (s : Server Realm) :
    Steady s (s.maintain id now) := by
  refine steady_of_works (works_maintain id now s) fun x x' hx hx' _ => ?_
  obtain rfl := Option.some.inj ((session?_maintain hx now).symm.trans hx')
  obtain ⟨sender, hupdate⟩ := x.update_session now
  rw [hupdate]

theorem steady_remove (id : SessionId) (s : Server Realm) : Steady s (s.remove onRemoved id).1 := by
  intro j y y' hy hy' _
  rcases of_session?_remove hy' with ⟨hold, -⟩ | ⟨x, rfl, hid, -, rfl⟩
  · obtain rfl := Option.some.inj (hy.symm.trans hold)
    exact ⟨rfl, rfl⟩
  · obtain rfl := Option.some.inj (hy.symm.trans hid)
    exact ⟨(remains_removed y).playerId, Session.connectionId_close .application { y with removing := true }⟩

theorem steady_closeSession (id : SessionId) (reason : DisconnectReason) (s : Server Realm) :
    Steady s (s.closeSession onRemoved id reason).1 :=
  (steady_shut id reason s).trans (steady_remove id _) (works_shut id reason s).carries

/-! ## While an event is at work -/

/-- The games mirror the sessions, and no session in the table is shutting down but the one that an event is at
work on. -/
structure Settling (busy : Option SessionId) (s : Server Realm) : Prop where
  roster : Roster s
  one : OnePerPlayer s
  mirrored : Mirrored s
  isOpen : ∀ id x, s.session? id = some x → x.removing = false → some id ≠ busy → x.isClosed = false

variable {busy : Option SessionId}

theorem Settling.begun (h : Settling none s) (id : SessionId) : Settling (some id) s :=
  ⟨h.roster, h.one, h.mirrored, fun j x hx hremoving _ => h.isOpen j x hx hremoving (by simp)⟩

theorem Settling.done (h : Settling (some id) s)
    (hopen : ∀ x, s.session? id = some x → x.isClosed = false) : Settling none s := by
  refine ⟨h.roster, h.one, h.mirrored, fun j x hx hremoving _ => ?_⟩
  by_cases hj : j = id
  · subst hj
    exact hopen x hx
  · exact h.isOpen j x hx hremoving (by simpa using hj)

theorem Settling.works (h : Settling busy s) (hw : Works id s s') (hsteady : Steady s s')
    (hopen : some id ≠ busy → ∀ x', s'.session? id = some x' → x'.removing = false →
      x'.isClosed = false) : Settling busy s' := by
  refine ⟨h.roster.works hw, h.one.carries hw.carries, ?_, ?_⟩
  · rcases hw with rfl | ⟨x, x', seeds, sent, hid, hremains, -, rfl⟩
    · exact h.mirrored
    · have hput := h.mirrored.put hid hremains.removing hremains.playerId fun hplayer =>
        (hsteady id x x' hid (session?_put (by exact hid) x') hplayer).2
      exact hput.ofEq rfl rfl
  · intro j y hy hremoving hbusy
    by_cases hj : j = id
    · subst hj
      exact hopen hbusy y hy hremoving
    · rw [hw.session?_of_ne hj] at hy
      exact h.isOpen j y hy hremoving hbusy

theorem Settling.shut (h : Settling (some id) s) (reason : DisconnectReason) :
    Settling (some id) (s.shut id reason).1 :=
  h.works (works_shut id reason s) (steady_shut id reason s) fun hne => absurd rfl hne

theorem Settling.remove (h : Settling (some id) s) : Settling none (s.remove onRemoved id).1 := by
  refine ⟨h.roster.remove onRemoved id, h.one.carries (carries_remove onRemoved id s),
    h.mirrored.remove id, fun j y hy hremoving _ => ?_⟩
  have hsits : (s.remove onRemoved id).1.Sits j y.playerId y.connectionId :=
    ⟨y, hy, hremoving, rfl, rfl⟩
  obtain ⟨hj, -⟩ := (sits_remove onRemoved).1 hsits
  rw [session?_remove_of_ne onRemoved hj s] at hy
  exact h.isOpen j y hy hremoving (by simpa using hj)

theorem Settling.closeSession (h : Settling (some id) s) (reason : DisconnectReason) :
    Settling none (s.closeSession onRemoved id reason).1 := (h.shut reason).remove

theorem Settling.evict (h : Settling none s) (id : SessionId) (player : UInt64) :
    Settling none (Service.evict id player s) := by
  rcases evict_cases id player s with ⟨heq, -⟩ | ⟨other, -, -, heq⟩
  · rw [heq]
    exact h
  · rw [heq]
    exact (h.begun other).closeSession .newConnectionAttempt

/-- A maintenance pass shuts no session down. -/
theorem Settling.maintain (h : Settling none s) (id : SessionId) (now : Nat) :
    Settling none (s.maintain id now) := by
  refine h.works (works_maintain id now s) (steady_maintain id now s) fun _ x' hx' hremoving => ?_
  obtain ⟨x, hx, hsame, -⟩ := (works_maintain id now s).carries.session id x' hx'
  obtain rfl := Option.some.inj ((session?_maintain hx now).symm.trans hx')
  obtain ⟨sender, hupdate⟩ := x.update_session now
  rw [hupdate] at hremoving ⊢
  exact h.isOpen id x hx hremoving (by simp)

end Server

end GameGateway
