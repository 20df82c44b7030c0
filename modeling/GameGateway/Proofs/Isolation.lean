import GameGateway.Proofs.Authentication
import GameGateway.Proofs.Occupancy
import GameGateway.Proofs.Replacement

/-!
# Isolation of endpoints

A datagram concerns the sessions at the endpoint that it comes from. Those at other endpoints are left as they are, with
their entries in the table, and nothing is sent to them; only a login in the datagram reaches further, and closes and
removes the session on which its player plays. This is so for every datagram, whatever is in it.

## Implementation notes

`Service.Isolates` says this of two servers and of the players that log in between them. It holds along the acts of
a datagram, because each act is about a session at the endpoint; a login is taken apart into its eviction, which is
about another session, and the rest.
-/

namespace GameGateway

namespace Server

variable {α : Type} {s s' : Server α} {id : SessionId} {x : Session} {endpoint : Endpoint}
  {onRemoved : Listener α} {codec : Codec}

/-! ## Where a session is -/

/-- The session of a number is at an endpoint, listed or not. -/
def IsAt (s : Server α) (id : SessionId) (endpoint : Endpoint) : Prop :=
  ∃ x, s.session? id = some x ∧ x.endpoint = endpoint

theorem IsAt.put {j : SessionId} {y y' : Session} (h : IsAt s id endpoint) (hj : s.session? j = some y)
    (hendpoint : y'.endpoint = y.endpoint) : IsAt (s.put j y') id endpoint := by
  obtain ⟨x, hid, hx⟩ := h
  by_cases hne : id = j
  · subst hne
    obtain rfl := Option.some.inj (hid.symm.trans hj)
    exact ⟨y', session?_put hid y', hendpoint.trans hx⟩
  · exact ⟨x, (session?_put_of_ne hne s y').trans hid, hx⟩

/-- No operation moves a session. -/
theorem IsAt.operate (h : IsAt s id endpoint) (op : Op α) : IsAt (s.operate onRemoved codec op) id endpoint := by
  by_cases hop : ∃ j, op = .remove j
  · obtain ⟨j, rfl⟩ := hop
    rcases remove_cases onRemoved s j with ⟨heq, -⟩ | ⟨y, sent, hj, -, -, heq⟩
    · rwa [Server.operate, heq]
    · rw [Server.operate, heq]
      exact IsAt.put (s := { s with
        table := (s.table.remove y.endpoint j).1
        app := onRemoved ⟨j, leaving y, s.table⟩ s.app }) h hj (remains_removed y).endpoint
  · rcases operate_cases onRemoved codec s (not_exists.1 hop) with
      ⟨j, -, heq | ⟨y, y', seeds, sent, hj, -, hkeeps, heq⟩⟩ | ⟨-, ⟨e, now, henters⟩ | hrests⟩
    · rwa [heq]
    · rw [heq]
      exact IsAt.put (s := { s with seeds }) h hj hkeeps.endpoint
    · obtain ⟨x, hid, hx⟩ := h
      rw [henters.eq]
      refine ⟨x, ?_, hx⟩
      rw [session?, List.getElem?_append_left (List.getElem?_eq_some_iff.1 hid).1]
      exact hid
    · rwa [IsAt, session?, hrests.sessions]

/-- A session that the table gives for an endpoint is there. -/
theorem Roster.isAt (h : Roster s) (hget : s.table.get? endpoint = some id) : IsAt s id endpoint := by
  obtain ⟨x, hid, hx, -⟩ := (h.mem_iff endpoint id).1 (Table.mem_of_get? hget)
  exact ⟨x, hid, hx⟩

theorem Roster.isAt_openSession (h : Roster s) {now : Nat} (hopen : s.openSession endpoint now = .ok (id, s')) :
    IsAt s' id endpoint := by
  rcases of_openSession hopen with ⟨hget, rfl⟩ | ⟨-, rfl, rfl⟩
  · exact h.isAt hget
  · exact ⟨Session.create endpoint s.config now, by simp [session?], rfl⟩

end Server

namespace Service

open Server

variable {s s' s'' : Server Realm} {id : SessionId} {x x' : Session} {endpoint : Endpoint} {galaxyStatus : UInt8}
  {codec : Codec} {logins logins' : UInt64 → Prop}

/-! ## What a login reaches -/

/-- Of the sessions at other endpoints, exactly those that are not shutting down and whose player logs in are closed and
removed; all others are as they were. What is sent goes to the endpoint, or to those sessions. -/
structure Isolates (endpoint : Endpoint) (logins : UInt64 → Prop) (s s' : Server Realm) : Prop where
  kept : ∀ id x, s.session? id = some x → x.endpoint ≠ endpoint → ¬ (x.isClosed = false ∧ logins x.playerId) →
    s'.session? id = some x
  evicted : ∀ id x, s.session? id = some x → x.endpoint ≠ endpoint → x.isClosed = false ∧ logins x.playerId →
    ∃ x', s'.session? id = some x' ∧ x'.endpoint = x.endpoint ∧ x'.phase = .closed ∧ x'.isClosed = true ∧
      x'.removing = true
  known : ∀ id x', s'.session? id = some x' → x'.endpoint ≠ endpoint →
    ∃ x, s.session? id = some x ∧ x.endpoint = x'.endpoint
  sent : ∃ sent, s'.outbox = s.outbox ++ sent ∧ ∀ d ∈ sent, d.endpoint = endpoint ∨
    ∃ id x, s.session? id = some x ∧ x.endpoint = d.endpoint ∧ x.isClosed = false ∧ logins x.playerId

theorem Isolates.congr (h : Isolates endpoint logins s s') (hiff : ∀ player, logins player ↔ logins' player) :
    Isolates endpoint logins' s s' := by
  obtain rfl : logins = logins' := funext fun player => propext (hiff player)
  exact h

theorem isolates_refl (endpoint : Endpoint) (s : Server Realm) : Isolates endpoint (fun _ => False) s s where
  kept := fun _ _ hid _ _ => hid
  evicted := fun _ _ _ _ hlogin => hlogin.2.elim
  known := fun _ x' hid _ => ⟨x', hid, rfl⟩
  sent := ⟨[], by simp⟩

theorem Isolates.trans (h : Isolates endpoint logins s s') (h' : Isolates endpoint logins' s' s'') :
    Isolates endpoint (fun player => logins player ∨ logins' player) s s'' where
  kept := by
    intro id x hid hx hother
    have hkept := h.kept id x hid hx fun hboth => hother ⟨hboth.1, Or.inl hboth.2⟩
    exact h'.kept id x hkept hx fun hboth => hother ⟨hboth.1, Or.inr hboth.2⟩
  evicted := by
    rintro id x hid hx ⟨hopen, hlogin⟩
    by_cases hfirst : logins x.playerId
    · -- a session that is closed by then is not evicted again
      obtain ⟨x', hid', hendpoint, hphase, hclosed, hremoving⟩ := h.evicted id x hid hx ⟨hopen, hfirst⟩
      have hkept := h'.kept id x' hid' (by rwa [hendpoint]) fun hboth => by
        rw [hclosed] at hboth
        cases hboth.1
      exact ⟨x', hkept, hendpoint, hphase, hclosed, hremoving⟩
    · have hkept := h.kept id x hid hx fun hboth => hfirst hboth.2
      exact h'.evicted id x hkept hx ⟨hopen, hlogin.resolve_left hfirst⟩
  known := by
    intro id x'' hid'' hx''
    obtain ⟨x', hid', hendpoint'⟩ := h'.known id x'' hid'' hx''
    obtain ⟨x, hid, hendpoint⟩ := h.known id x' hid' (by rwa [hendpoint'])
    exact ⟨x, hid, hendpoint.trans hendpoint'⟩
  sent := by
    obtain ⟨first, houtbox, hfirst⟩ := h.sent
    obtain ⟨rest, houtbox', hrest⟩ := h'.sent
    refine ⟨first ++ rest, by rw [houtbox', houtbox, List.append_assoc], fun d hd => ?_⟩
    rcases List.mem_append.1 hd with hd | hd
    · rcases hfirst d hd with hd | ⟨id, x, hid, hx, hopen, hlogin⟩
      · exact Or.inl hd
      · exact Or.inr ⟨id, x, hid, hx, hopen, Or.inl hlogin⟩
    · rcases hrest d hd with hd | ⟨id, x', hid', hx', hopen, hlogin⟩
      · exact Or.inl hd
      · by_cases hhere : d.endpoint = endpoint
        · exact Or.inl hhere
        · right
          obtain ⟨x, hid, hendpoint⟩ := h.known id x' hid' (by rwa [hx'])
          have helsewhere : x.endpoint ≠ endpoint := by rwa [hendpoint, hx']
          by_cases hevicted : x.isClosed = false ∧ logins x.playerId
          · exact ⟨id, x, hid, hendpoint.trans hx', hevicted.1, Or.inl hevicted.2⟩
          · have hkept := h.kept id x hid helsewhere hevicted
            obtain rfl := Option.some.inj (hkept.symm.trans hid')
            exact ⟨id, x, hid, hx', hopen, Or.inr hlogin⟩

/-- A session at the endpoint changes, and what is sent goes there. -/
theorem isolates_local (hid : s.session? id = some x) (hx : x.endpoint = endpoint)
    (hendpoint : x'.endpoint = x.endpoint) (hsessions : s'.sessions = s.sessions.set id x')
    (houtbox : ∃ sent : List Outbound, s'.outbox = s.outbox ++ sent.map (Datagram.mk endpoint)) :
    Isolates endpoint (fun _ => False) s s' := by
  have hput : ∀ j, s'.session? j = (s.put id x').session? j := fun j => by
    rw [session?, hsessions]
    rfl
  refine ⟨fun j y hj hy _ => ?_, fun _ _ _ _ hlogin => hlogin.2.elim, fun j y hj hy => ?_, ?_⟩
  · have hne : j ≠ id := by
      rintro rfl
      obtain rfl := Option.some.inj (hid.symm.trans hj)
      exact hy hx
    rw [hput, session?_put_of_ne hne]
    exact hj
  · rw [hput] at hj
    rcases of_session?_put hid hj with ⟨-, rfl⟩ | ⟨-, hold⟩
    · exact absurd (hendpoint.trans hx) hy
    · exact ⟨y, hold, rfl⟩
  · obtain ⟨sent, hsent⟩ := houtbox
    refine ⟨_, hsent, fun d hd => ?_⟩
    obtain ⟨out, -, rfl⟩ := List.mem_map.1 hd
    exact Or.inl rfl

theorem isolates_works (hat : IsAt s id endpoint) (h : Works id s s') :
    Isolates endpoint (fun _ => False) s s' := by
  obtain ⟨x, hid, hx⟩ := hat
  rcases h with rfl | ⟨y, y', seeds, sent, hy, hremains, -, rfl⟩
  · exact isolates_refl endpoint s'
  · obtain rfl := Option.some.inj (hid.symm.trans hy)
    exact isolates_local hid hx hremains.endpoint rfl ⟨sent, by rw [← hx]; rfl⟩

theorem isolates_remove (hat : IsAt s id endpoint) :
    Isolates endpoint (fun _ => False) s (s.remove onRemoved id).1 := by
  obtain ⟨x, hid, hx⟩ := hat
  rcases remove_cases onRemoved s id with ⟨heq, -⟩ | ⟨y, sent, hy, -, -, heq⟩
  · rw [heq]
    exact isolates_refl endpoint s
  · obtain rfl := Option.some.inj (hid.symm.trans hy)
    rw [heq]
    exact isolates_local hid hx (remains_removed x).endpoint rfl ⟨sent, by rw [← hx]; rfl⟩

theorem isolates_enter (endpoint : Endpoint) (now : Nat) (s : Server Realm) :
    Isolates endpoint (fun _ => False) s (s.act (application galaxyStatus) codec (.enter endpoint now)) := by
  rcases openSession_cases s endpoint now with ⟨e, hopen⟩ | ⟨id, -, hopen⟩ | ⟨-, hopen⟩
  · simp only [act, hopen]
    exact isolates_refl endpoint s
  · simp only [act, hopen]
    exact isolates_refl endpoint s
  · simp only [act, hopen]
    refine ⟨fun j y hj _ _ => ?_, fun _ _ _ _ hlogin => hlogin.2.elim, fun j y hj hy => ?_, ⟨[], by simp⟩⟩
    · rw [session?, List.getElem?_append_left (List.getElem?_eq_some_iff.1 hj).1]
      exact hj
    · rcases of_getElem?_concat hj with hold | ⟨-, rfl⟩
      · exact ⟨y, hold, rfl⟩
      · exact absurd rfl hy

/-- What closing a session that is not shutting down does. -/
theorem closeSession_of_open (hroster : Roster s) (hid : s.session? id = some x) (hopen : x.isClosed = false)
    (reason : DisconnectReason) :
    ∃ x' sent, (s.closeSession onRemoved id reason).1.session? id = some x' ∧ x'.endpoint = x.endpoint ∧
      x'.phase = .closed ∧ x'.isClosed = true ∧ x'.removing = true ∧
      (s.closeSession onRemoved id reason).1.outbox = s.outbox ++ List.map (Datagram.mk x.endpoint) sent := by
  have hseated := hroster.not_removing hid hopen
  obtain ⟨y, sent, hy, hremains, houtbox⟩ : ∃ y sent, (s.shut id reason).1.session? id = some y ∧
      x.Remains y ∧ (s.shut id reason).1.outbox = s.outbox ++ List.map (Datagram.mk x.endpoint) sent := by
    simp only [shut, hid]
    exact ⟨_, _, session?_put hid _, x.remains_close reason, rfl⟩
  rcases remove_cases onRemoved (s.shut id reason).1 id with ⟨-, hremoving⟩ | ⟨z, farewell, hz, -, -, heq⟩
  · rw [hremains.removing.symm.trans (hremoving y hy)] at hseated
    cases hseated
  · obtain rfl := Option.some.inj (hy.symm.trans hz)
    have hleaving := remains_removed y
    rw [closeSession, heq]
    refine ⟨(leaving y).finish, sent ++ farewell, session?_put (by exact hy) _,
      hleaving.endpoint.trans hremains.endpoint, rfl, rfl, hleaving.removing, ?_⟩
    have hendpoint : y.endpoint = x.endpoint := hremains.endpoint
    simp [Server.post, Server.put, houtbox, hendpoint]

theorem isolates_evict (hroster : Roster s) (hone : OnePerPlayer s) (hat : IsAt s id endpoint)
    {player : UInt64} (hplayer : player ≠ 0) : Isolates endpoint (· = player) s (evict id player s) := by
  obtain ⟨x, hid, hx⟩ := hat
  have hfound : ∀ j y, s.session? j = some y → y.isClosed = false → y.playerId = player →
      s.findPlayer? player = some j := fun j y hj hopen hplays =>
    hone.findPlayer? hroster hplayer (isPlayedBy_iff.2 ⟨y, hj, hplays, hopen⟩)
  rcases evict_cases id player s with ⟨heq, hself⟩ | ⟨other, hne, hother, heq⟩
  · rw [heq]
    refine ⟨fun j y hj _ _ => hj, fun j y hj hy hevicted => ?_, fun j y hj _ => ⟨y, hj, rfl⟩, ⟨[], by simp⟩⟩
    obtain rfl := hself j (hfound j y hj hevicted.1 hevicted.2)
    obtain rfl := Option.some.inj (hid.symm.trans hj)
    exact absurd hx hy
  · obtain ⟨z, hz, hplays, hopen⟩ := isPlayedBy_iff.1 (isPlayedBy_of_findPlayer? hother)
    obtain ⟨z', sent, hz', hendpoint, hphase, hclosed, hremoving, houtbox⟩ :=
      closeSession_of_open hroster hz hopen .newConnectionAttempt
    rw [heq]
    refine ⟨fun j y hj _ hkept => ?_, fun j y hj _ hevicted => ?_, fun j y hj _ => ?_, _, houtbox, fun d hd => ?_⟩
    · have hne : j ≠ other := by
        rintro rfl
        obtain rfl := Option.some.inj (hz.symm.trans hj)
        exact hkept ⟨hopen, hplays⟩
      rw [session?_closeSession_of_ne onRemoved hne]
      exact hj
    · obtain rfl := Option.some.inj (hother.symm.trans (hfound j y hj hevicted.1 hevicted.2))
      obtain rfl := Option.some.inj (hz.symm.trans hj)
      exact ⟨z', hz', hendpoint, hphase, hclosed, hremoving⟩
    · by_cases hj' : j = other
      · subst hj'
        obtain rfl := Option.some.inj (hz'.symm.trans hj)
        exact ⟨z, hz, hendpoint.symm⟩
      · rw [session?_closeSession_of_ne onRemoved hj'] at hj
        exact ⟨y, hj, rfl⟩
    · obtain ⟨out, -, rfl⟩ := List.mem_map.1 hd
      exact Or.inr ⟨other, z, hz, rfl, hopen, hplays⟩

/-! ## Along the acts of a datagram -/

theorem LogsIn.unique {message : Bytes} {body body' : ClientId} (h : LogsIn message body)
    (h' : LogsIn message body') : body = body' := by
  obtain ⟨header, rest, hheader, -, hbody⟩ := h
  obtain ⟨header', rest', hheader', -, hbody'⟩ := h'
  obtain ⟨-, rfl⟩ := Prod.mk.inj (hheader.symm.trans hheader')
  exact Except.ok.inj (hbody.symm.trans hbody')

/-- An act brings a login of a player to the service. -/
def LogsInAs (realm : Realm) (player : UInt64) : Act → Prop
  | .dispatch _ message =>
    ∃ body account, LogsIn message body ∧ realm.authorize? body.sessionKey = some (account, player)
  | _ => False

theorem logsInAs_congr {r r' : Realm} (h : r'.accounts = r.accounts) (player : UInt64) (a : Act) :
    LogsInAs r' player a ↔ LogsInAs r player a := by
  cases a with
  | dispatch id message => simp only [LogsInAs, authorize?_congr h]
  | _ => exact Iff.rfl

theorem ne_zero_of_logsInAs {realm : Realm} {player : UInt64} {a : Act} (h : LogsInAs realm player a) :
    player ≠ 0 := by
  cases a with
  | dispatch id message =>
    obtain ⟨body, account, -, hauthorize⟩ := h
    exact Realm.ne_zero_of_authorize? hauthorize
  | _ => exact h.elim

/-- Acts that reach no other endpoint but through the logins among them. -/
def Confined (galaxyStatus : UInt8) (codec : Codec) (endpoint : Endpoint) (s : Server Realm) (acts : List Act) : Prop :=
  Isolates endpoint (fun player => ∃ a ∈ acts, LogsInAs s.app player a) s
    (s.perform (application galaxyStatus) codec acts)

theorem confined_nil (s : Server Realm) : Confined galaxyStatus codec endpoint s [] :=
  (isolates_refl endpoint s).congr fun player => by simp

theorem accounts_perform (galaxyStatus : UInt8) (codec : Codec) (s : Server Realm) (acts : List Act) :
    (s.perform (application galaxyStatus) codec acts).app.accounts = s.app.accounts :=
  perform_invariant (P := fun s' => s'.app.accounts = s.app.accounts) rfl
    (fun s' a h => (accounts_act galaxyStatus codec s' a).trans h) acts

theorem Confined.append {first rest : List Act} (h : Confined galaxyStatus codec endpoint s first)
    (h' : Confined galaxyStatus codec endpoint (s.perform (application galaxyStatus) codec first) rest) :
    Confined galaxyStatus codec endpoint s (first ++ rest) := by
  rw [Confined, perform_append]
  refine (h.trans h').congr fun player => ?_
  have hrealm := accounts_perform galaxyStatus codec s first
  simp only [logsInAs_congr hrealm, List.mem_append, or_and_right, exists_or]

/-- An act that is no dispatch. -/
theorem confined_singleton {a : Act} (hlogin : ∀ player, ¬ LogsInAs s.app player a)
    (h : Isolates endpoint (fun _ => False) s (s.act (application galaxyStatus) codec a)) :
    Confined galaxyStatus codec endpoint s [a] :=
  h.congr fun player => by simp [hlogin player]

theorem Confined.cons {a : Act} {acts : List Act} (h : Confined galaxyStatus codec endpoint s [a])
    (h' : Confined galaxyStatus codec endpoint (s.act (application galaxyStatus) codec a) acts) :
    Confined galaxyStatus codec endpoint s (a :: acts) :=
  h.append h'

theorem isAt_act (galaxyStatus : UInt8) (codec : Codec) (hat : IsAt s id endpoint) (a : Act) :
    IsAt (s.act (application galaxyStatus) codec a) id endpoint :=
  act_invariant (P := fun s => IsAt s id endpoint) (script galaxyStatus codec) hat (fun _ op h => h.operate op) a

theorem isAt_perform (galaxyStatus : UInt8) (codec : Codec) (hat : IsAt s id endpoint) (acts : List Act) :
    IsAt (s.perform (application galaxyStatus) codec acts) id endpoint :=
  perform_invariant (P := fun s => IsAt s id endpoint) hat (fun _ a h => isAt_act galaxyStatus codec h a) acts

theorem confined_remove (hat : IsAt s id endpoint) : Confined galaxyStatus codec endpoint s [.remove id] :=
  confined_singleton (fun _ h => h) (isolates_remove hat)

theorem confined_closing (hat : IsAt s id endpoint) (reason : DisconnectReason) :
    Confined galaxyStatus codec endpoint s (closing id reason) :=
  Confined.cons (confined_singleton (fun _ h => h) (isolates_works hat (works_shut id reason s)))
    (confined_remove (isAt_act galaxyStatus codec hat (.shut id reason)))

theorem confined_reaping (hat : IsAt s id endpoint) : Confined galaxyStatus codec endpoint s (s.reaping id) := by
  unfold reaping
  split
  · exact confined_remove hat
  · exact confined_nil s

/-- A message reaches other endpoints only as a login, through its eviction. -/
theorem confined_dispatch {message : Bytes} (hroster : Roster s) (hone : OnePerPlayer s) (hat : IsAt s id endpoint)
    (hopen : ∀ x, s.session? id = some x → x.isClosed = false) :
    Confined galaxyStatus codec endpoint s [.dispatch id message] := by
  obtain ⟨x, hid, hx⟩ := hat
  by_cases hlogin : ∃ body account player, LogsIn message body ∧
      s.app.authorize? body.sessionKey = some (account, player)
  · obtain ⟨body, account, player, hbody, hauthorize⟩ := hlogin
    have hevict := isolates_evict hroster hone ⟨x, hid, hx⟩ (Realm.ne_zero_of_authorize? hauthorize)
    have hself := (session?_evict id player s).trans hid
    have hact : s.act (application galaxyStatus) codec (.dispatch id message) =
        bindPlayer galaxyStatus id account player (evict id player s) := by
      simp only [act, dispatchMessage_of_logsIn hid (hopen x hid) hbody hauthorize]
    obtain ⟨reply, hbind⟩ :=
      bindPlayer_eq galaxyStatus account player hself ((hroster.isOver_eq hid).trans (hopen x hid))
    have hlocal : Isolates endpoint (fun _ => False) (evict id player s)
        (bindPlayer galaxyStatus id account player (evict id player s)) := by
      rw [hbind]
      exact isolates_local hself hx (remains_bound account player reply x).endpoint rfl ⟨[], by simp [Server.put]⟩
    rw [Confined, perform_cons, perform_nil, hact]
    refine (hevict.trans hlocal).congr fun other => ?_
    simp only [List.mem_singleton, exists_eq_left, LogsInAs, or_false]
    constructor
    · rintro rfl
      exact ⟨body, account, hbody, hauthorize⟩
    · rintro ⟨body', account', hbody', hauthorize'⟩
      rw [← hbody.unique hbody', hauthorize] at hauthorize'
      exact (Prod.mk.inj (Option.some.inj hauthorize')).2.symm
  · have hnone : ∀ player, ¬ LogsInAs s.app player (.dispatch id message) := by
      rintro player ⟨body, account, hbody, hauthorize⟩
      exact hlogin ⟨body, account, player, hbody, hauthorize⟩
    refine confined_singleton hnone ?_
    rcases act_dispatch_cases galaxyStatus codec s id message with
      heq | ⟨y, body, account, player, -, -, hbody, hauthorize, -⟩ | ⟨y, reply, hy, -, -, heq⟩
    · rw [heq]
      exact isolates_refl endpoint s
    · exact absurd ⟨body, account, player, hbody, hauthorize⟩ hlogin
    · obtain rfl := Option.some.inj (hid.symm.trans hy)
      rw [heq]
      exact isolates_local hid hx (x.remains_queue reply).endpoint rfl ⟨[], by simp [Server.put]⟩

theorem roster_onePerPlayer_perform (hroster : Roster s) (hone : OnePerPlayer s) (galaxyStatus : UInt8)
    (codec : Codec) (acts : List Act) :
    Roster (s.perform (application galaxyStatus) codec acts) ∧
      OnePerPlayer (s.perform (application galaxyStatus) codec acts) := by
  refine perform_invariant (P := fun s => Roster s ∧ OnePerPlayer s) ⟨hroster, hone⟩ ?_ acts
  rintro s a ⟨hroster, hone⟩
  exact ⟨hroster.act galaxyStatus codec a, hone.act hroster galaxyStatus codec a⟩

/-- A message that a handler took came on a session that was not shutting down. -/
theorem open_of_dispatchMessage {message : Bytes}
    (h : (application galaxyStatus).handlers.dispatchMessage id message s = .ok s')
    (hid : s.session? id = some x) : x.isClosed = false := by
  rcases hheader : Message.decodeHeader.run message with ⟨_ | header, rest⟩
  · simp [Registry.dispatchMessage, hheader] at h
  cases hclosed : x.isClosed with
  | false => rfl
  | true =>
    simp only [Registry.dispatchMessage, hheader, Registry.dispatch, hid, hclosed, if_true] at h
    split at h <;> cases h

theorem confined_dispatches (hroster : Roster s) (hone : OnePerPlayer s) (hat : IsAt s id endpoint)
    (messages : List Bytes) :
    Confined galaxyStatus codec endpoint s (dispatches (application galaxyStatus) id messages s) := by
  induction messages generalizing s with
  | nil => exact confined_nil s
  | cons message messages ih =>
    rw [dispatches]
    cases hdispatch : (application galaxyStatus).handlers.dispatchMessage id message s with
    | ok next =>
      have hact : s.act (application galaxyStatus) codec (.dispatch id message) = next := by
        simp only [act, hdispatch]
      refine Confined.cons (confined_dispatch hroster hone hat fun x hid => open_of_dispatchMessage hdispatch hid) ?_
      rw [hact]
      refine ih ?_ ?_ ?_
      · rw [← hact]
        exact hroster.act galaxyStatus codec _
      · rw [← hact]
        exact hone.act hroster galaxyStatus codec _
      · rw [← hact]
        exact isAt_act galaxyStatus codec hat _
    | error e =>
      cases e with
      | sessionClosed _ => exact confined_nil s
      | _ => exact ih hroster hone hat

theorem confined_receiving (hroster : Roster s) (hone : OnePerPlayer s) (hat : IsAt s id endpoint) (now : Nat)
    (bytes : Bytes) :
    Confined galaxyStatus codec endpoint s (s.receiving (application galaxyStatus) codec id now bytes) := by
  have haccept : Confined galaxyStatus codec endpoint s [.accept id now bytes] :=
    confined_singleton (fun _ h => h) (isolates_works hat (works_accept codec id now bytes s))
  have haccepted : IsAt (s.accept codec id now bytes) id endpoint :=
    isAt_act galaxyStatus codec hat (.accept id now bytes)
  obtain ⟨x, hid, -⟩ := hat
  simp only [receiving, hid]
  refine haccept.cons ?_
  cases (x.handleDrawing codec now s.seeds bytes).1.result with
  | error v => exact confined_closing haccepted .protocolViolation
  | ok messages =>
    have hroster' : Roster (s.accept codec id now bytes) := hroster.act galaxyStatus codec (.accept id now bytes)
    have hone' : OnePerPlayer (s.accept codec id now bytes) :=
      hone.act hroster galaxyStatus codec (.accept id now bytes)
    have hdispatched := isAt_perform galaxyStatus codec haccepted
      (dispatches (application galaxyStatus) id messages (s.accept codec id now bytes))
    change Confined galaxyStatus codec endpoint (s.accept codec id now bytes) _
    refine (confined_dispatches hroster' hone' haccepted messages).append ?_
    rw [perform_dispatches] at hdispatched ⊢
    exact confined_reaping hdispatched

/-- A datagram reaches no endpoint but its own, except through the logins in it. -/
theorem confined_datagram (hroster : Roster s) (hone : OnePerPlayer s) (now : Nat) (endpoint : Endpoint)
    (bytes : Bytes) :
    Confined galaxyStatus codec endpoint s
      (s.acts (application galaxyStatus) codec (.datagram now endpoint bytes)) := by
  have hfirst : Confined galaxyStatus codec endpoint s (s.superseding endpoint bytes) := by
    unfold superseding
    split
    · rename_i id hget
      split
      · exact confined_remove (hroster.isAt hget)
      · exact confined_nil s
    · exact confined_nil s
  obtain ⟨hroster', hone'⟩ := roster_onePerPlayer_perform hroster hone galaxyStatus codec (s.superseding endpoint bytes)
  have hsuperseded : s.perform (application galaxyStatus) codec (s.superseding endpoint bytes) =
      s.supersede (application galaxyStatus).onRemoved endpoint bytes := perform_superseding s endpoint bytes
  rw [Server.acts, ← hsuperseded]
  refine hfirst.append ?_
  generalize s.perform (application galaxyStatus) codec (s.superseding endpoint bytes) = s at hroster' hone'
  cases hopen : s.openSession endpoint now with
  | error e => exact confined_nil s
  | ok opened =>
    obtain ⟨id, opened⟩ := opened
    have hact : s.act (application galaxyStatus) codec (.enter endpoint now) = opened := by simp only [act, hopen]
    refine Confined.cons (confined_singleton (fun _ h => h) (isolates_enter endpoint now s)) ?_
    rw [hact]
    refine confined_receiving ?_ ?_ ?_ now bytes
    · rw [← hact]
      exact hroster'.act galaxyStatus codec _
    · rw [← hact]
      exact hone'.act hroster' galaxyStatus codec _
    · exact hroster'.isAt_openSession hopen

theorem roster_onePerPlayer_calls (config : ProtocolConfig) (limit : Nat) (seeds : List UInt32)
    (accounts : List DevAccount) (galaxyStatus : UInt8) (codec : Codec) (calls : List Call) :
    let s := (started config limit seeds accounts).calls (application galaxyStatus) codec calls
    Roster s ∧ OnePerPlayer s := by
  intro s
  refine calls_invariant (P := fun s => Roster s ∧ OnePerPlayer s)
    ⟨roster_started config limit seeds accounts, onePerPlayer_started config limit seeds accounts⟩ ?_ calls
  rintro s a ⟨hroster, hone⟩
  exact roster_onePerPlayer_perform hroster hone galaxyStatus codec [a]

/-- Whatever a datagram holds and whatever happened before, it sends to its own endpoint and to those of the sessions
that it evicts, and no other session or entry at another endpoint changes. A session there is evicted exactly if it is
not shutting down and its player logs in with the datagram; if no session was ever shut down past the server, every
session of that player is closed and in the table no more. -/
theorem datagram_leaves_other_endpoints (config : ProtocolConfig) (limit : Nat) (seeds : List UInt32)
    (accounts : List DevAccount) (galaxyStatus : UInt8) (codec : Codec) (calls : List Call) (now : Nat)
    (endpoint : Endpoint) (bytes : Bytes) :
    let app := application galaxyStatus
    let s := (started config limit seeds accounts).calls app codec calls
    let s' := s.handleDatagram app codec now endpoint bytes
    let logins := fun player => ∃ a ∈ s.acts app codec (.datagram now endpoint bytes), LogsInAs s.app player a
    (∃ sent, s'.outbox = s.outbox ++ sent ∧ ∀ d ∈ sent, d.endpoint = endpoint ∨
      ∃ id x, s.session? id = some x ∧ x.endpoint = d.endpoint ∧ x.isClosed = false ∧ logins x.playerId) ∧
    (∀ id x, s.session? id = some x → x.endpoint ≠ endpoint → ¬ (x.isClosed = false ∧ logins x.playerId) →
      s'.session? id = some x ∧ ∀ e, (e, id) ∈ s'.table.entries ↔ (e, id) ∈ s.table.entries) ∧
    (∀ id x, s.session? id = some x → x.endpoint ≠ endpoint → x.isClosed = false ∧ logins x.playerId →
      ∃ x', s'.session? id = some x' ∧ x'.endpoint = x.endpoint ∧ x'.phase = .closed ∧ id ∉ s'.table.ids) ∧
    (∀ id x', s'.session? id = some x' → x'.endpoint ≠ endpoint →
      ∃ x, s.session? id = some x ∧ x.endpoint = x'.endpoint) ∧
    ((∀ c ∈ calls, c.isServed = true) → ∀ id x, s.session? id = some x → x.endpoint ≠ endpoint →
      logins x.playerId → ∃ x', s'.session? id = some x' ∧ x'.phase = .closed ∧ id ∉ s'.table.ids) := by
  intro app s s' logins
  obtain ⟨hroster, hone⟩ := roster_onePerPlayer_calls config limit seeds accounts galaxyStatus codec calls
  have hstep : s' = s.perform app codec (s.acts app codec (.datagram now endpoint bytes)) :=
    step_eq_perform s (.datagram now endpoint bytes)
  have hisolates : Isolates endpoint logins s s' := by
    rw [hstep]
    exact confined_datagram hroster hone now endpoint bytes
  have hroster' : Roster s' := by
    rw [hstep]
    exact (roster_onePerPlayer_perform hroster hone galaxyStatus codec _).1
  refine ⟨hisolates.sent, fun id x hid hx hother => ?_, fun id x hid hx hevicted => ?_, hisolates.known,
    fun hserved id x hid hx hlogin => ?_⟩
  · have hkept := hisolates.kept id x hid hx hother
    refine ⟨hkept, fun e => ?_⟩
    rw [hroster'.mem_iff, hroster.mem_iff, hkept, hid]
  · obtain ⟨x', hid', hendpoint, hphase, -, hremoving⟩ := hisolates.evicted id x hid hx hevicted
    exact ⟨x', hid', hendpoint, hphase, hroster'.not_mem_ids hid' hremoving⟩
  · cases hopen : x.isClosed with
    | false =>
      obtain ⟨x', hid', -, hphase, -, hremoving⟩ := hisolates.evicted id x hid hx ⟨hopen, hlogin⟩
      exact ⟨x', hid', hphase, hroster'.not_mem_ids hid' hremoving⟩
    | true =>
      -- the session was removed before
      have hkept := hisolates.kept id x hid hx fun hboth => by
        rw [hopen] at hboth
        cases hboth.1
      have hremoving : x.removing = true := by
        cases hcase : x.removing with
        | true => rfl
        | false =>
          exact absurd ⟨x, hid, hcase, hopen⟩
            (tidy_calls config limit seeds accounts galaxyStatus codec hserved id)
      have hfinished := (orderly_calls config limit seeds accounts galaxyStatus codec calls).finished id x hid
      exact ⟨x, hkept, hfinished.2 hremoving, hroster'.not_mem_ids hkept hremoving⟩

/-- A player logs in, a second endpoint is nobody's, and the player logs in at a third one: the first session is
evicted, because of a login that the datagram holds, and the second one is as it was. -/
theorem datagram_leaves_other_endpoints_evicted :
    let login : Bytes := Packet.header .data 0 ++ Message.encode .clientId { sessionKey := "a" }
    let third : Endpoint := ⟨.v4 10 0 0 3, 5000⟩
    let codec : Codec := ⟨fun _ => none, fun _ _ => none⟩
    let s := (started { crcLength := 0, compression := false } 4 [] [⟨"a", 1, 500, 2⟩]).calls (application 1) codec
      [.event (.datagram 0 ⟨.v4 10 0 0 1, 5000⟩ login), .event (.datagram 0 ⟨.v4 10 0 0 2, 5000⟩ Packet.pong)]
    let s' := s.handleDatagram (application 1) codec 0 third login
    (∃ a ∈ s.acts (application 1) codec (.datagram 0 third login), LogsInAs s.app 500 a) ∧
      0 ∉ s'.table.ids ∧ s'.session? 1 = s.session? 1 := by
  intro login third codec s s'
  obtain ⟨-, hkept, hevicted, -⟩ := datagram_leaves_other_endpoints { crcLength := 0, compression := false } 4 []
    [⟨"a", 1, 500, 2⟩] 1 codec
    [.event (.datagram 0 ⟨.v4 10 0 0 1, 5000⟩ login), .event (.datagram 0 ⟨.v4 10 0 0 2, 5000⟩ Packet.pong)] 0 third
    login
  have hfirst : (s.session? 0).map (fun x => (x.endpoint, x.playerId, x.phase)) =
      some (⟨.v4 10 0 0 1, 5000⟩, 500, .connected) := by decide +kernel
  have hsecond : (s.session? 1).map (fun x => (x.endpoint, x.playerId)) = some (⟨.v4 10 0 0 2, 5000⟩, 0) := by
    decide +kernel
  have hclosed : (s'.session? 0).map Session.phase = some .closed := by decide +kernel
  obtain ⟨x, hx, hfields⟩ := Option.map_eq_some_iff.1 hfirst
  obtain ⟨y, hy, hyfields⟩ := Option.map_eq_some_iff.1 hsecond
  simp only [Prod.mk.injEq] at hfields hyfields
  have hxelsewhere : x.endpoint ≠ third := by
    rw [hfields.1]
    decide
  have hyelsewhere : y.endpoint ≠ third := by
    rw [hyfields.1]
    decide
  -- the first session is not as it was, so that its player has logged in
  have hlogin : x.isClosed = false ∧
      ∃ a ∈ s.acts (application 1) codec (.datagram 0 third login), LogsInAs s.app x.playerId a := by
    by_cases hboth : x.isClosed = false ∧
      ∃ a ∈ s.acts (application 1) codec (.datagram 0 third login), LogsInAs s.app x.playerId a
    · exact hboth
    · rw [(hkept 0 x hx hxelsewhere hboth).1, Option.map_some, hfields.2.2] at hclosed
      cases hclosed
  obtain ⟨_, -, -, -, hunlisted⟩ := hevicted 0 x hx hxelsewhere hlogin
  have hnobody : ¬ (y.isClosed = false ∧
      ∃ a ∈ s.acts (application 1) codec (.datagram 0 third login), LogsInAs s.app y.playerId a) := by
    rintro ⟨-, a, -, ha⟩
    exact ne_zero_of_logsInAs ha hyfields.2
  rw [hfields.2.1] at hlogin
  exact ⟨hlogin.2, hunlisted, (hkept 1 y hy hyelsewhere hnobody).1.trans hy.symm⟩

end Service

end GameGateway
