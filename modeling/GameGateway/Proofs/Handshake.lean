import GameGateway.Proofs.Activity
import GameGateway.Proofs.Upkeep

/-!
# Repeated and restarting handshakes

A request that repeats the connection of its session gets the answer of the negotiation once more, byte for byte, and
changes nothing but the sign of life. A request for another connection is a restart of the client: the session is
removed, and a new one takes its endpoint and answers, also when the table is full. `Service.requests_repeat_or_restart`
says this of every state that a service reaches.

## Implementation notes

What two peers agreed on is the connection, the filter and the size limit (`Session.SameTerms`). No call changes them
but a datagram whose request is negotiated, so that behind every list of calls a session that has a filter points back
to the call that gave it (`Server.Negotiates`). A restart is a removal and then the first datagram of an endpoint that
is not known (`Server.handleDatagram_of_superseded`).
-/

namespace GameGateway

namespace Session

variable {s s' s'' : Session} {codec : Codec} {now : Nat} {seed : UInt32} {datagram : Bytes} {request : SessionRequest}

/-! ## Terms -/

/-- A session on the same terms: the same connection, filter and size limit, at the same endpoint. It does not go back
to its first phase. -/
structure SameTerms (s s' : Session) : Prop where
  endpoint : s'.endpoint = s.endpoint
  connectionId : s'.connectionId = s.connectionId
  filter : s'.filter = s.filter
  maxUdpSize : s'.maxUdpSize = s.maxUdpSize
  woken : s.phase ≠ .uninitialized → s'.phase ≠ .uninitialized

theorem SameTerms.refl (s : Session) : SameTerms s s := ⟨rfl, rfl, rfl, rfl, id⟩

theorem SameTerms.trans (h : SameTerms s s') (h' : SameTerms s' s'') : SameTerms s s'' where
  endpoint := h'.endpoint.trans h.endpoint
  connectionId := h'.connectionId.trans h.connectionId
  filter := h'.filter.trans h.filter
  maxUdpSize := h'.maxUdpSize.trans h.maxUdpSize
  woken := h'.woken ∘ h.woken

/-- A session in another phase than the first. -/
theorem sameTerms_phase (phase : Phase) (hphase : phase ≠ .uninitialized) (s : Session) :
    SameTerms s { s with phase } :=
  ⟨rfl, rfl, rfl, rfl, fun _ => hphase⟩

theorem sameTerms_disconnect (s : Session) : SameTerms s s.disconnect :=
  (sameTerms_phase .disconnecting (by decide) s).trans ⟨rfl, rfl, rfl, rfl, id⟩

theorem sameTerms_finish (s : Session) : SameTerms s s.finish :=
  (sameTerms_phase .closed (by decide) s).trans ⟨rfl, rfl, rfl, rfl, id⟩

theorem sameTerms_close (reason : DisconnectReason) (s : Session) : SameTerms s (s.close reason).1 := by
  unfold close
  split
  · exact SameTerms.refl s
  · exact sameTerms_disconnect s

theorem sameTerms_queue (message : Bytes) (s : Session) : SameTerms s (s.queue message).1 := by
  unfold queue
  split
  · exact SameTerms.refl s
  · exact ⟨rfl, rfl, rfl, rfl, id⟩

theorem sameTerms_update (now : Nat) (s : Session) : SameTerms s (s.update now).session := by
  obtain ⟨sender, hsession⟩ := s.update_session now
  rw [hsession]
  exact ⟨rfl, rfl, rfl, rfl, id⟩

theorem sameTerms_react (now : Nat) (s : Session) (packet : Packet) : SameTerms s (s.react now packet).session := by
  cases packet with
  | disconnect connectionId =>
    simp only [react]
    split
    · exact sameTerms_disconnect s
    · exact SameTerms.refl s
  | _ => exact ⟨rfl, rfl, rfl, rfl, id⟩

theorem carried_sameTerms (now : Nat) : Carried now fun s s' _ => SameTerms s s' where
  nil := SameTerms.refl
  append := SameTerms.trans
  touch := fun _ => ⟨rfl, rfl, rfl, rfl, id⟩
  react := sameTerms_react now
  acknowledgement := SameTerms.refl

theorem sameTerms_awake (s : Session) : SameTerms s s.awake := by
  unfold awake
  split
  · exact sameTerms_phase .handshaking (by decide) s
  · exact SameTerms.refl s

theorem negotiates_awake (request : SessionRequest) (s : Session) :
    s.awake.negotiates request = s.negotiates request := by
  rw [negotiates, connectionId_awake, filter_awake, negotiates]

/-- A request that is not negotiated is answered on the terms that hold. -/
theorem greet_of_not_negotiates (h : s.negotiates request = false) (now : Nat) (seed : UInt32) :
    s.greet now seed request =
      { session := { s with lastActivity := now }
        sent := [⟨.passThrough, SessionRequest.response s.connectionId s.filter s.maxUdpSize⟩] } := by
  have hsame : s.connectionId = request.connectionId := by
    simpa using (Bool.or_eq_false_iff.1 h).1
  simp [greet, h, hsame]

/-- A datagram that draws no seed leaves the terms. -/
theorem sameTerms_handle (h : s.drawsSeed datagram = false) (codec : Codec) (now : Nat) (seed : UInt32) :
    SameTerms s (s.handle codec now seed datagram).session := by
  rcases handle_cases codec now seed datagram s with
    hcase | ⟨hopen, hcase | ⟨request, hparse, hcase⟩ | ⟨packet, -, hcase⟩⟩
  · rw [hcase]
    exact SameTerms.refl s
  · rw [hcase]
    exact sameTerms_awake s
  · have hkept : s.awake.negotiates request = false := by
      rw [negotiates_awake]
      simpa [drawsSeed, hopen, hparse] using h
    rw [hcase, greet_of_not_negotiates hkept]
    exact (sameTerms_awake s).trans ⟨rfl, rfl, rfl, rfl, id⟩
  · rw [hcase]
    exact (sameTerms_awake s).trans ((carried_sameTerms now).receive packet s.awake)

/-! ## Requests -/

/-- The answer to a request on the terms of a session. -/
def acceptance (s : Session) : Datagram :=
  ⟨s.endpoint, ⟨.passThrough, SessionRequest.response s.connectionId s.filter s.maxUdpSize⟩⟩

/-- A request is answered on the terms that hold then. -/
theorem sent_greet (now : Nat) (seed : UInt32) (request : SessionRequest) (s : Session) :
    (s.greet now seed request).sent.map (Datagram.mk s.endpoint) =
      [(s.greet now seed request).session.acceptance] := by
  cases hnegotiates : s.negotiates request with
  | true => simp [greet, hnegotiates, negotiate, acceptance]
  | false => simp [greet_of_not_negotiates hnegotiates, acceptance]

theorem phase_awake_ne (s : Session) : s.awake.phase ≠ .uninitialized := by
  unfold awake
  split
  · exact fun h => by cases h
  · assumption

theorem SameTerms.acceptance (h : SameTerms s s') : s'.acceptance = s.acceptance := by
  simp only [Session.acceptance, h.endpoint, h.connectionId, h.filter, h.maxUdpSize]

/-- A session that was created for a request and has answered it, and nothing else. -/
def opened (endpoint : Endpoint) (config : ProtocolConfig) (now : Nat) (seed : UInt32) (request : SessionRequest) :
    Session :=
  { create endpoint config now with
    phase := .handshaking
    connectionId := request.connectionId
    filter :=
      { crcSeed := seed
        crcLength := config.crcLength
        compression := config.compression
        compressionThreshold := config.compressionThreshold }
    maxUdpSize := max (min request.maxUdpSize config.maxUdpSize) minUdpSize }

theorem negotiates_create (endpoint : Endpoint) (config : ProtocolConfig) (created : Nat) (request : SessionRequest) :
    (create endpoint config created).negotiates request = true := by
  simp [negotiates, create]

theorem greet_create (endpoint : Endpoint) (config : ProtocolConfig) (created now : Nat) (seed : UInt32)
    (request : SessionRequest) :
    let s := opened endpoint config now seed request
    (create endpoint config created).awake.greet now seed request =
      { session := s, sent := [s.acceptance.outbound] } := by
  intro s
  have hnegotiates : (create endpoint config created).awake.negotiates request = true :=
    (negotiates_awake request _).trans (negotiates_create endpoint config created request)
  simp only [greet, hnegotiates, if_true]
  rfl

/-- A session that is not shutting down answers a complete request. -/
theorem handle_of_parse? (hopen : s.isOver = false) (hparse : SessionRequest.parse? datagram = some request)
    (codec : Codec) (now : Nat) (seed : UInt32) :
    s.handle codec now seed datagram = s.awake.greet now seed request := by
  obtain ⟨hopens, hlong⟩ := SessionRequest.isSome_parse?.1 (Option.isSome_iff_exists.2 ⟨request, hparse⟩)
  rw [handle_eq hopen (by omega), if_pos (SessionRequest.opens_iff.2 hopens), hparse]

theorem isSupersededBy_eq (hparse : SessionRequest.parse? datagram = some request) :
    s.isSupersededBy datagram = (s.filter != .passThrough && s.connectionId != request.connectionId) := by
  rw [isSupersededBy, hparse]

/-- The two decisions agree: a request is negotiated by a session that it does not supersede only if the session has no
filter yet. -/
theorem filter_of_negotiates (hparse : SessionRequest.parse? datagram = some request)
    (hstays : s.isSupersededBy datagram = false) (h : s.negotiates request = true) : s.filter = .passThrough := by
  rw [isSupersededBy_eq hparse] at hstays
  by_contra hfilter
  have hsame : s.connectionId = request.connectionId := by simpa [hfilter] using hstays
  simp [negotiates, hfilter, hsame] at h

end Session

namespace Table

variable {t : Table} {endpoint : Endpoint} {id : SessionId}

theorem get?_erase_self (endpoint : Endpoint) (t : Table) : (t.erase endpoint).get? endpoint = none := by
  rw [get?, erase, lookup_filter_key, if_pos rfl]

/-- Behind an erasure there is room, also if the table was full. -/
theorem isFull_erase (hget : t.get? endpoint = some id) (hsize : t.size ≤ t.limit) :
    (t.erase endpoint).isFull = false := by
  have hshorter : (t.erase endpoint).size < t.size := by
    simp only [size, erase]
    rw [List.length_filter_lt_length_iff_exists]
    exact ⟨(endpoint, id), mem_of_get? hget, by simp⟩
  have hlimit : (t.erase endpoint).limit = t.limit := rfl
  simp only [isFull, hlimit, decide_eq_false_iff_not]
  omega

end Table

namespace Server

section

variable {α : Type} {s s' s'' : Server α} {id : SessionId} {x x' : Session} {onRemoved : Listener α}
  {codec : Codec} {app : Application α} {endpoint : Endpoint} {bytes : Bytes} {request : SessionRequest}

/-! ## Terms that are kept -/

/-- A session that has a filter had it before, and on the same terms. -/
def KeepsTerms (s s' : Server α) : Prop :=
  ∀ id y, s'.session? id = some y → y.filter ≠ .passThrough → ∃ x, s.session? id = some x ∧ x.SameTerms y

theorem KeepsTerms.refl (s : Server α) : KeepsTerms s s := fun _ y hy _ => ⟨y, hy, Session.SameTerms.refl y⟩

theorem KeepsTerms.trans (h : KeepsTerms s s') (h' : KeepsTerms s' s'') : KeepsTerms s s'' := by
  intro id z hz hfilter
  obtain ⟨y, hy, hsame'⟩ := h' id z hz hfilter
  obtain ⟨x, hx, hsame⟩ := h id y hy (hsame'.filter ▸ hfilter)
  exact ⟨x, hx, hsame.trans hsame'⟩

theorem KeepsTerms.congr (h : KeepsTerms s s') (hsessions : s''.sessions = s'.sessions) : KeepsTerms s s'' := by
  intro id y hy
  rw [session?, hsessions] at hy
  exact h id y hy

theorem keepsTerms_put (hid : s.session? id = some x) (hsame : x.SameTerms x') : KeepsTerms s (s.put id x') := by
  intro j y hy _
  rcases of_session?_put hid hy with ⟨rfl, rfl⟩ | ⟨-, hj⟩
  · exact ⟨x, hid, hsame⟩
  · exact ⟨y, hj, Session.SameTerms.refl y⟩

theorem keepsTerms_withApp_put (hid : s.session? id = some x) (app : α) (hsame : x.SameTerms x') :
    KeepsTerms s ({ s with app }.put id x') :=
  (keepsTerms_put hid hsame).congr rfl

theorem sameTerms_removed (x : Session) : x.SameTerms (leaving x).finish := by
  have hmarked : x.SameTerms { x with removing := true } := ⟨rfl, rfl, rfl, rfl, id⟩
  exact (hmarked.trans (Session.sameTerms_close .application _)).trans (leaving x).sameTerms_finish

theorem keepsTerms_remove (onRemoved : Listener α) (id : SessionId) (s : Server α) :
    KeepsTerms s (s.remove onRemoved id).1 := by
  rcases remove_cases onRemoved s id with ⟨heq, -⟩ | ⟨x, sent, hid, -, -, heq⟩
  · rw [heq]
    exact KeepsTerms.refl s
  · rw [heq]
    exact (keepsTerms_put hid (sameTerms_removed x)).congr rfl

theorem keepsTerms_shut (id : SessionId) (reason : DisconnectReason) (s : Server α) :
    KeepsTerms s (s.shut id reason).1 := by
  unfold shut
  cases hid : s.session? id with
  | none => exact KeepsTerms.refl s
  | some x => exact (keepsTerms_put hid (x.sameTerms_close reason)).congr rfl

theorem keepsTerms_maintain (id : SessionId) (now : Nat) (s : Server α) : KeepsTerms s (s.maintain id now) := by
  unfold Server.maintain
  cases hid : s.session? id with
  | none => exact KeepsTerms.refl s
  | some x => exact (keepsTerms_put hid (x.sameTerms_update now)).congr rfl

/-- A session without a filter may be added. -/
theorem keepsTerms_concat (hsessions : s'.sessions = s.sessions ++ [x]) (hfilter : x.filter = .passThrough) :
    KeepsTerms s s' := by
  intro j y hy hfiltered
  rw [session?, hsessions] at hy
  rcases of_getElem?_concat hy with hold | ⟨-, rfl⟩
  · exact ⟨y, hold, Session.SameTerms.refl y⟩
  · exact absurd hfilter hfiltered

theorem keepsTerms_accept (h : SessionRequest.parse? bytes = none) (codec : Codec) (id : SessionId) (now : Nat)
    (s : Server α) : KeepsTerms s (s.accept codec id now bytes) := by
  unfold Server.accept
  cases hid : s.session? id with
  | none => exact KeepsTerms.refl s
  | some x =>
    have hdraws : x.drawsSeed bytes = false := by rw [Session.drawsSeed, h, Bool.and_false]
    exact (keepsTerms_put hid (x.sameTerms_handle hdraws codec now _)).congr rfl

/-! ## Calls with a request -/

/-- The complete request that an act brings to a session. -/
def Act.request? : Act → Option SessionRequest
  | .accept _ _ bytes => SessionRequest.parse? bytes
  | _ => none

/-- The complete request that a call brings. -/
def Call.request? : Call → Option SessionRequest
  | .event (.datagram _ _ bytes) => SessionRequest.parse? bytes
  | _ => none

theorem forall_serially {P : Act → Prop} {acts : SessionId → Server α → List Act} (h : ∀ id s, ∀ a ∈ acts id s, P a)
    (ids : List SessionId) (s : Server α) : ∀ a ∈ serially app codec acts ids s, P a := by
  induction ids generalizing s with
  | nil => simp [serially]
  | cons id ids ih =>
    intro a ha
    rw [serially] at ha
    rcases List.mem_append.1 ha with ha | ha
    · exact h id s a ha
    · exact ih _ a ha

theorem forall_dispatches {P : Act → Prop} (h : ∀ message, P (.dispatch id message)) (messages : List Bytes)
    (s : Server α) : ∀ a ∈ dispatches app id messages s, P a := by
  induction messages generalizing s with
  | nil => simp [dispatches]
  | cons message messages ih =>
    rw [dispatches]
    cases app.handlers.dispatchMessage id message s with
    | ok next =>
      rintro a (_ | ⟨_, ha⟩)
      · exact h message
      · exact ih next a ha
    | error e =>
      cases e with
      | sessionClosed endpoint => simp
      | _ => exact ih s

theorem request?_of_mem_closing {a : Act} {reason : DisconnectReason} (ha : a ∈ closing id reason) :
    a.request? = none := by
  simp only [closing, List.mem_cons, List.not_mem_nil, or_false] at ha
  rcases ha with rfl | rfl
  · rfl
  · rfl

theorem request?_of_mem_receiving {a : Act} {now : Nat} (h : SessionRequest.parse? bytes = none)
    (ha : a ∈ s.receiving app codec id now bytes) : a.request? = none := by
  unfold receiving at ha
  cases hid : s.session? id with
  | none => simp [hid] at ha
  | some x =>
    simp only [hid] at ha
    rcases List.mem_cons.1 ha with rfl | ha
    · exact h
    · cases hresult : (x.handleDrawing codec now s.seeds bytes).1.result with
      | error v =>
        simp only [hresult] at ha
        exact request?_of_mem_closing ha
      | ok messages =>
        simp only [hresult] at ha
        rcases List.mem_append.1 ha with ha | ha
        · exact forall_dispatches (P := fun a => a.request? = none) (fun _ => rfl) messages _ a ha
        · unfold reaping at ha
          split at ha
          · rw [List.mem_singleton.1 ha]
            rfl
          · cases ha

theorem request?_of_mem_maintaining {a : Act} {now : Nat} (ha : a ∈ s.maintaining id now) : a.request? = none := by
  unfold maintaining at ha
  cases hid : s.session? id with
  | none => simp [hid] at ha
  | some x =>
    simp only [hid] at ha
    rcases List.mem_cons.1 ha with rfl | ha
    · rfl
    · cases hhealth : (x.update now).health with
      | alive => simp [hhealth] at ha
      | timedOut | resendExhausted =>
        simp only [hhealth] at ha
        exact request?_of_mem_closing ha
      | disconnecting | closed =>
        simp only [hhealth] at ha
        rw [List.mem_singleton.1 ha]
        rfl

/-- A call without a request has no act with one. -/
theorem request?_of_mem_acts {c : Call} (hc : c.request? = none) {a : Act} (ha : a ∈ c.acts app codec s) :
    a.request? = none := by
  cases c with
  | create endpoint now =>
    rw [List.mem_singleton.1 ha]
    rfl
  | event e =>
    cases e with
    | datagram now endpoint bytes =>
      simp only [Call.acts, Server.acts] at ha
      rcases List.mem_append.1 ha with ha | ha
      · unfold superseding at ha
        split at ha
        · split at ha
          · rw [List.mem_singleton.1 ha]
            rfl
          · cases ha
        · cases ha
      · cases hopen : (s.supersede app.onRemoved endpoint bytes).openSession endpoint now with
        | error e => simp [hopen] at ha
        | ok opened =>
          simp only [hopen] at ha
          rcases List.mem_cons.1 ha with rfl | ha
          · rfl
          · exact request?_of_mem_receiving hc ha
    | tick now =>
      exact forall_serially (P := fun a => a.request? = none) (fun _ _ _ => request?_of_mem_maintaining) _ s a ha
    | closeAll =>
      exact forall_serially (P := fun a => a.request? = none) (fun _ _ _ => request?_of_mem_closing) _ s a ha
    | close id reason => exact request?_of_mem_closing ha
    | shut id reason | remove id | rehash entries =>
      rw [List.mem_singleton.1 ha]
      rfl

/-! ## Datagrams with a request -/

/-- A session that is not shutting down answers a request and stays; there is nothing to dispatch. -/
theorem receive_of_parse? (hid : s.session? id = some x) (hflagged : x.Flagged) (hopen : x.isOver = false)
    (hparse : SessionRequest.parse? bytes = some request) (app : Application α) (codec : Codec) (now : Nat) :
    let reaction := x.awake.greet now (s.seeds.headD 0) request
    s.receive app codec now id bytes =
      ({ s with seeds := if x.negotiates request then s.seeds.tail else s.seeds }.put id reaction.session).post
        x.endpoint reaction.sent := by
  intro reaction
  have hdrawing : x.handleDrawing codec now s.seeds bytes =
      (reaction, if x.negotiates request then s.seeds.tail else s.seeds) := by
    rw [Session.handleDrawing, Session.handle_of_parse? hopen hparse, Session.drawsSeed, hopen, hparse]
    rfl
  have hremains := (Session.remains_awake x).trans (Session.remains_greet now (s.seeds.headD 0) x.awake request)
  have hstays : reaction.session.isClosed = false := by
    rw [hremains.flagged hflagged, Session.isOver, Session.phase_greet]
    exact (Session.isOver_awake x).trans hopen
  have hresult : reaction.result = .ok [] := rfl
  have hself : (({ s with seeds := if x.negotiates request then s.seeds.tail else s.seeds }.put id
      reaction.session).post x.endpoint reaction.sent).session? id = some reaction.session := session?_put hid _
  simp only [receive, hid, hdrawing, hresult, Registry.dispatchAll, hself, Option.any_some, hstays, Bool.false_eq_true,
    if_false]

/-- The session at an endpoint receives a datagram that does not supersede it. -/
theorem handleDatagram_of_listed (hget : s.table.get? endpoint = some id) (hid : s.session? id = some x)
    (hstays : x.isSupersededBy bytes = false) (app : Application α) (codec : Codec) (now : Nat) :
    s.handleDatagram app codec now endpoint bytes = s.receive app codec now id bytes := by
  have hsupersede : s.supersede app.onRemoved endpoint bytes = s := by simp [supersede, hget, hid, hstays]
  simp [handleDatagram, hsupersede, openSession, hget]

/-- A restart is a removal and the first datagram of an unknown endpoint. -/
theorem handleDatagram_of_superseded (hget : s.table.get? endpoint = some id) (hid : s.session? id = some x)
    (hsuperseded : x.isSupersededBy bytes = true) (app : Application α)
    (hgone : (s.remove app.onRemoved id).1.table.get? endpoint = none) (codec : Codec) (now : Nat) :
    s.handleDatagram app codec now endpoint bytes =
      (s.remove app.onRemoved id).1.handleDatagram app codec now endpoint bytes := by
  have hfirst : s.supersede app.onRemoved endpoint bytes = (s.remove app.onRemoved id).1 := by
    simp [supersede, hget, hid, hsuperseded]
  have hagain : (s.remove app.onRemoved id).1.supersede app.onRemoved endpoint bytes =
      (s.remove app.onRemoved id).1 := by
    simp [supersede, hgone]
  simp only [handleDatagram, hfirst, hagain]

/-- A request from an unknown endpoint opens a session if there is room. -/
theorem handleDatagram_of_unknown (hvacant : s.table.get? endpoint = none) (hroom : s.table.isFull = false)
    (hparse : SessionRequest.parse? bytes = some request) (app : Application α) (codec : Codec) (now : Nat) :
    let y := Session.opened endpoint s.config now (s.seeds.headD 0) request
    s.handleDatagram app codec now endpoint bytes =
      { s with
        sessions := s.sessions ++ [y]
        table := s.table.insert endpoint s.sessions.length
        seeds := s.seeds.tail
        outbox := s.outbox ++ [y.acceptance] } := by
  intro y
  have hsupersede : s.supersede app.onRemoved endpoint bytes = s := by simp [supersede, hvacant]
  have hopened : s.openSession endpoint now = .ok (s.sessions.length,
      { s with
        sessions := s.sessions ++ [Session.create endpoint s.config now]
        table := s.table.insert endpoint s.sessions.length }) := by
    simp [openSession, hvacant, hroom]
  simp only [handleDatagram, hsupersede, hopened]
  rw [receive_of_parse? (x := Session.create endpoint s.config now) (by simp [session?])
    (Session.flagged_create endpoint s.config now) rfl hparse]
  simp only [Session.greet_create, Session.negotiates_create, if_true]
  simp [Server.put, post, y, Session.acceptance, Session.opened, Session.create]

/-! ## Removal of an open session -/

/-- The removal of a session that is not shutting down: its peer and the application are told once, and its endpoint is
free. -/
theorem Roster.remove_of_open (h : Roster s) (hid : s.session? id = some x) (hopen : x.isOver = false)
    (onRemoved : Listener α) :
    (s.remove onRemoved id).1 =
      { s with
        sessions := s.sessions.set id (leaving x).finish
        table := s.table.erase x.endpoint
        outbox := s.outbox ++ [⟨x.endpoint, x.outbound (Packet.farewell x.connectionId .application)⟩]
        app := onRemoved ⟨id, leaving x, s.table⟩ s.app } := by
  have hremoving := h.not_removing hid ((h.isOver_eq hid).symm.trans hopen)
  have hclose : ({ x with removing := true } : Session).close .application =
      (leaving x, [x.outbound (Packet.farewell x.connectionId .application)], true) := by
    have hmarked : ({ x with removing := true } : Session).isOver = false := hopen
    simp [leaving, Session.close, hmarked, Session.outbound]
  have htable : s.table.remove x.endpoint id = (s.table.erase x.endpoint, true) := by
    simp [Table.remove, h.get?_endpoint hid hremoving]
  simp [Server.remove, hid, hremoving, hclose, htable, Server.put, post]

/-- A request for another connection: the session at its endpoint is removed and a new one answers, also when the table
is full. -/
theorem Roster.handleDatagram_of_restart (h : Roster s) (hget : s.table.get? x.endpoint = some id)
    (hid : s.session? id = some x) (hopen : x.isOver = false) (hsize : s.table.size ≤ s.table.limit)
    (hsuperseded : x.isSupersededBy bytes = true) (hparse : SessionRequest.parse? bytes = some request)
    (app : Application α) (codec : Codec) (now : Nat) :
    let y := Session.opened x.endpoint s.config now (s.seeds.headD 0) request
    s.handleDatagram app codec now x.endpoint bytes = { s with
      sessions := s.sessions.set id (leaving x).finish ++ [y]
      table := (s.table.erase x.endpoint).insert x.endpoint s.sessions.length
      seeds := s.seeds.tail
      outbox := s.outbox ++ [⟨x.endpoint, x.outbound (Packet.farewell x.connectionId .application)⟩, y.acceptance]
      app := app.onRemoved ⟨id, leaving x, s.table⟩ s.app } := by
  intro y
  have hremoved := h.remove_of_open hid hopen app.onRemoved
  have hgone : (s.remove app.onRemoved id).1.table.get? x.endpoint = none := by
    rw [hremoved]
    exact Table.get?_erase_self x.endpoint s.table
  have hroom : (s.remove app.onRemoved id).1.table.isFull = false := by
    rw [hremoved]
    exact Table.isFull_erase hget hsize
  rw [handleDatagram_of_superseded hget hid hsuperseded app hgone, handleDatagram_of_unknown hgone hroom hparse,
    hremoved]
  simp [y]

/-! ## Where terms come from -/

/-- In this call the request for a connection is accepted: a session that had no filter, or was not there, comes to be
on the terms of the given one, and the answer to the request is the last datagram that is sent. -/
structure Negotiates (app : Application α) (codec : Codec) (s : Server α) (c : Call) (id : SessionId) (x : Session) :
    Prop where
  asked : ∃ now bytes request, c = .event (.datagram now x.endpoint bytes) ∧
    SessionRequest.parse? bytes = some request ∧ request.connectionId = x.connectionId
  fresh : ∀ y, s.session? id = some y → y.filter = .passThrough
  agreed : ∃ y, (s.call app codec c).session? id = some y ∧ y.SameTerms x ∧ y.phase ≠ .uninitialized
  answered : ∃ sent, (s.call app codec c).outbox = s.outbox ++ sent ++ [x.acceptance]

/-- The session points back to the call that it has its terms from. -/
def Origin (app : Application α) (codec : Codec) (start : Server α) (past : List Call) (id : SessionId) (x : Session) :
    Prop :=
  ∃ before c after, past = before ++ c :: after ∧ Negotiates app codec (start.calls app codec before) c id x

/-- A session that a request opens has its terms from this call; all other sessions keep theirs. -/
theorem negotiates_of_unknown {now : Nat} {y : Session}
    (hcall : s.handleDatagram app codec now endpoint bytes = s'.handleDatagram app codec now endpoint bytes)
    (hkeeps : KeepsTerms s s') (hlength : s'.sessions.length = s.sessions.length)
    (houtbox : ∃ sent, s'.outbox = s.outbox ++ sent) (hvacant : s'.table.get? endpoint = none)
    (hroom : s'.table.isFull = false) (hparse : SessionRequest.parse? bytes = some request)
    (hy : (s.handleDatagram app codec now endpoint bytes).session? id = some y) (hfilter : y.filter ≠ .passThrough) :
    (∃ x, s.session? id = some x ∧ x.SameTerms y) ∨
      Negotiates app codec s (.event (.datagram now endpoint bytes)) id y := by
  have hopened := handleDatagram_of_unknown hvacant hroom hparse app codec now
  have hafter := hcall.trans hopened
  have hself := hy
  rw [hafter] at hy
  rcases of_getElem?_concat hy with hold | ⟨rfl, rfl⟩
  · exact Or.inl (hkeeps id y hold hfilter)
  · right
    obtain ⟨sent, hsent⟩ := houtbox
    refine ⟨⟨now, bytes, request, rfl, hparse, rfl⟩, fun z hz => ?_, ⟨_, hself, Session.SameTerms.refl _, ?_⟩, sent, ?_⟩
    · have hlt := (List.getElem?_eq_some_iff.1 hz).1
      omega
    · exact fun hphase => by cases hphase
    · simp only [call, step, hafter, hsent]

/-- A session at whose endpoint a request comes has its terms from this call, if it had none; all other sessions keep
theirs. -/
theorem negotiates_of_listed {now : Nat} {y : Session} {j : SessionId} (hget : s.table.get? x.endpoint = some id)
    (hid : s.session? id = some x) (hflagged : x.Flagged) (hopen : x.isOver = false)
    (hstays : x.isSupersededBy bytes = false) (hparse : SessionRequest.parse? bytes = some request)
    (hy : (s.handleDatagram app codec now x.endpoint bytes).session? j = some y) :
    (∃ x, s.session? j = some x ∧ x.SameTerms y) ∨
      Negotiates app codec s (.event (.datagram now x.endpoint bytes)) j y := by
  have hafter := (handleDatagram_of_listed hget hid hstays app codec now).trans
    (receive_of_parse? hid hflagged hopen hparse app codec now)
  have hself := hy
  rw [hafter] at hy
  rcases of_session?_put (s := { s with seeds := _ }) hid hy with ⟨rfl, rfl⟩ | ⟨-, hj⟩
  · cases hnegotiates : x.negotiates request with
    | false =>
      left
      have hkept := (Session.negotiates_awake request x).trans hnegotiates
      refine ⟨x, hid, ?_⟩
      rw [Session.greet_of_not_negotiates hkept]
      exact (Session.sameTerms_awake x).trans ⟨rfl, rfl, rfl, rfl, id⟩
    | true =>
      right
      have hendpoint := (Session.remains_greet now (s.seeds.headD 0) x.awake request).endpoint.trans
        (Session.remains_awake x).endpoint
      refine ⟨⟨now, bytes, request, by rw [hendpoint], hparse, ?_⟩, fun z hz => ?_,
        ⟨_, hself, Session.SameTerms.refl _, ?_⟩, [], ?_⟩
      · rw [← Session.negotiates_awake] at hnegotiates
        simp [Session.greet, hnegotiates, Session.negotiate]
      · rw [← Option.some.inj (hid.symm.trans hz)]
        exact Session.filter_of_negotiates hparse hstays hnegotiates
      · rw [Session.phase_greet]
        exact x.phase_awake_ne
      · have hsent := Session.sent_greet now (s.seeds.headD 0) request x.awake
        rw [(Session.remains_awake x).endpoint] at hsent
        simp only [call, step, hafter, post, hsent, List.append_nil]
        rfl
  · exact Or.inl ⟨y, hj, Session.SameTerms.refl y⟩

/-- A listed session is at its endpoint and, between calls, not shutting down. -/
theorem Tidy.listed (h : Tidy s) (hroster : Roster s) (hget : s.table.get? endpoint = some id) :
    ∃ x, s.session? id = some x ∧ x.endpoint = endpoint ∧ x.isOver = false := by
  obtain ⟨x, hid, hx, hremoving⟩ := (hroster.mem_iff endpoint id).1 (Table.mem_of_get? hget)
  refine ⟨x, hid, hx, ?_⟩
  cases hopen : x.isOver with
  | false => rfl
  | true => exact absurd ⟨x, hid, hremoving, (hroster.isOver_eq hid).symm.trans hopen⟩ (h id)

/-- What a request does to the terms of a session. -/
theorem negotiates_of_request {most now : Nat} {y : Session} {j : SessionId} (hroster : Roster s) (htidy : Tidy s)
    (hroomy : Roomy most s) (hparse : SessionRequest.parse? bytes = some request)
    (hy : (s.handleDatagram app codec now endpoint bytes).session? j = some y) (hfilter : y.filter ≠ .passThrough) :
    (∃ x, s.session? j = some x ∧ x.SameTerms y) ∨
      Negotiates app codec s (.event (.datagram now endpoint bytes)) j y := by
  cases hget : s.table.get? endpoint with
  | none =>
    cases hfull : s.table.isFull with
    | true =>
      rw [handleDatagram_of_isFull hget hfull] at hy
      exact Or.inl ⟨y, hy, Session.SameTerms.refl y⟩
    | false => exact negotiates_of_unknown rfl (KeepsTerms.refl s) rfl ⟨[], by simp⟩ hget hfull hparse hy hfilter
  | some id =>
    obtain ⟨x, hid, rfl, hopen⟩ := htidy.listed hroster hget
    cases hsuperseded : x.isSupersededBy bytes with
    | false => exact negotiates_of_listed hget hid (hroster.flagged id x hid) hopen hsuperseded hparse hy
    | true =>
      have hremoved := hroster.remove_of_open hid hopen app.onRemoved
      have hgone : (s.remove app.onRemoved id).1.table.get? x.endpoint = none := by
        rw [hremoved]
        exact Table.get?_erase_self x.endpoint s.table
      have hroom : (s.remove app.onRemoved id).1.table.isFull = false := by
        rw [hremoved]
        exact Table.isFull_erase hget (hroomy.limit ▸ hroomy.size)
      refine negotiates_of_unknown (handleDatagram_of_superseded hget hid hsuperseded app hgone codec now)
        (keepsTerms_remove app.onRemoved id s) ?_ ?_ hgone hroom hparse hy hfilter
      · rw [hremoved]
        exact List.length_set
      · rw [hremoved]
        exact ⟨_, rfl⟩

theorem Negotiates.sameTerms {c : Call} (h : Negotiates app codec s c id x) (hsame : x.SameTerms x') :
    Negotiates app codec s c id x' where
  asked := by
    rw [hsame.endpoint, hsame.connectionId]
    exact h.asked
  fresh := h.fresh
  agreed := by
    obtain ⟨y, hy, hyx, hwoken⟩ := h.agreed
    exact ⟨y, hy, hyx.trans hsame, hwoken⟩
  answered := by
    rw [hsame.acceptance]
    exact h.answered

end

end Server

namespace Service

open Server

variable {s : Server Realm} {id : SessionId} {x : Session} {galaxyStatus : UInt8} {codec : Codec}

/-! ## The terms in a service -/

theorem keepsTerms_evict (id : SessionId) (player : UInt64) (s : Server Realm) : KeepsTerms s (evict id player s) := by
  rcases evict_cases id player s with ⟨heq, -⟩ | ⟨other, -, -, heq⟩
  · rw [heq]
    exact KeepsTerms.refl s
  · rw [heq]
    exact (keepsTerms_shut other .newConnectionAttempt s).trans (keepsTerms_remove onRemoved other _)

theorem sameTerms_bound (account : UInt32) (player : UInt64) (message : Bytes) (x : Session) :
    x.SameTerms (bound account player message x) := by
  have hconnected : x.SameTerms { x with phase := .connected, accountId := account, playerId := player } :=
    (Session.sameTerms_phase .connected (by decide) x).trans ⟨rfl, rfl, rfl, rfl, id⟩
  exact hconnected.trans (Session.sameTerms_queue message _)

theorem keepsTerms_act (galaxyStatus : UInt8) (codec : Codec) {a : Act} (ha : a.request? = none) (s : Server Realm) :
    KeepsTerms s (s.act (application galaxyStatus) codec a) := by
  cases a with
  | enter endpoint now =>
    rcases openSession_cases s endpoint now with ⟨e, hopen⟩ | ⟨id, -, hopen⟩ | ⟨-, hopen⟩
    · simp only [act, hopen]
      exact KeepsTerms.refl s
    · simp only [act, hopen]
      exact KeepsTerms.refl s
    · simp only [act, hopen]
      exact keepsTerms_concat rfl rfl
  | accept id now bytes => exact keepsTerms_accept ha codec id now s
  | dispatch id message =>
    rcases act_dispatch_cases galaxyStatus codec s id message with
      heq | ⟨x, body, account, player, hid, -, -, -, heq⟩ | ⟨x, reply, hid, -, -, heq⟩
    · rw [heq]
      exact KeepsTerms.refl s
    · have hself := (session?_evict id player s).trans hid
      obtain ⟨y, hbind, hbound⟩ := bindPlayer_eq_put galaxyStatus account player hself
      have hterms : x.SameTerms y := by
        rcases hbound with rfl | ⟨reply, rfl⟩
        · exact Session.SameTerms.refl y
        · exact sameTerms_bound account player reply x
      rw [heq, hbind]
      exact (keepsTerms_evict id player s).trans (keepsTerms_withApp_put hself _ hterms)
    · rw [heq]
      exact keepsTerms_withApp_put hid _ (x.sameTerms_queue reply)
  | maintain id now => exact keepsTerms_maintain id now s
  | shut id reason => exact keepsTerms_shut id reason s
  | remove id => exact keepsTerms_remove onRemoved id s
  | rehash entries => exact (KeepsTerms.refl s).congr (rests_rehash entries s).sessions

theorem keepsTerms_perform (galaxyStatus : UInt8) (codec : Codec) {acts : List Act} (h : ∀ a ∈ acts, a.request? = none)
    (s : Server Realm) : KeepsTerms s (s.perform (application galaxyStatus) codec acts) := by
  induction acts generalizing s with
  | nil => exact KeepsTerms.refl s
  | cons a acts ih =>
    have hfirst := keepsTerms_act galaxyStatus codec (h a List.mem_cons_self) s
    exact hfirst.trans (ih (fun b hb => h b (List.mem_cons_of_mem a hb)) _)

/-- Behind every list of calls a session that has a filter is awake, and points back to the call that it has its terms
from. -/
theorem origin_calls (config : ProtocolConfig) (limit : Nat) (seeds : List UInt32) (accounts : List DevAccount)
    (galaxyStatus : UInt8) (codec : Codec) {calls : List Call} (hserved : ∀ c ∈ calls, c.isServed = true) :
    let app := application galaxyStatus
    let start := started config limit seeds accounts
    ∀ id x, (start.calls app codec calls).session? id = some x → x.filter ≠ .passThrough →
      x.phase ≠ .uninitialized ∧ Origin app codec start calls id x := by
  intro app start
  induction calls using List.reverseRecOn with
  | nil =>
    intro id x hid
    simp [start, Server.calls, started, create, session?] at hid
  | append_singleton calls c ih =>
    intro id y hy hfilter
    have hpast : ∀ d ∈ calls, d.isServed = true := fun d hd => hserved d (List.mem_append_left _ hd)
    have hlast : start.calls app codec (calls ++ [c]) = (start.calls app codec calls).call app codec c := by
      simp [Server.calls]
    rw [hlast] at hy
    have hcases : (∃ x, (start.calls app codec calls).session? id = some x ∧ x.SameTerms y) ∨
        Negotiates app codec (start.calls app codec calls) c id y := by
      cases hrequest : c.request? with
      | none =>
        left
        have hacts : ∀ a ∈ c.acts app codec (start.calls app codec calls), a.request? = none :=
          fun a => request?_of_mem_acts hrequest
        have hkeeps := keepsTerms_perform galaxyStatus codec hacts (start.calls app codec calls)
        rw [← call_eq_perform] at hkeeps
        exact hkeeps id y hy hfilter
      | some request =>
        rcases c with (⟨now, endpoint, bytes⟩ | _ | _ | _ | _ | _ | _) | _
        · exact negotiates_of_request (orderly_calls config limit seeds accounts galaxyStatus codec calls).toRoster
            (tidy_calls config limit seeds accounts galaxyStatus codec hpast)
            (roomy_calls config limit seeds accounts galaxyStatus codec calls) hrequest hy hfilter
        all_goals cases hrequest
    rcases hcases with ⟨x, hx, hsame⟩ | hnegotiates
    · obtain ⟨hwoken, before, d, after, hsplit, hnegotiates⟩ := ih hpast id x hx (hsame.filter ▸ hfilter)
      exact ⟨hsame.woken hwoken, before, d, after ++ [c], by simp [hsplit], hnegotiates.sameTerms hsame⟩
    · obtain ⟨z, hz, -, hwoken⟩ := hnegotiates.agreed
      obtain rfl := Option.some.inj (hy.symm.trans hz)
      exact ⟨hwoken, calls, c, [], rfl, hnegotiates⟩

/-- A session that has a filter gets a complete request. If the request is for the connection of the session, it keeps
the session: the answer is the one that was sent by the call that the session has its terms from, and nothing changes
but the sign of life. If it is for another connection, the session is removed and a new one answers, whether or not the
table is full. -/
theorem requests_repeat_or_restart (config : ProtocolConfig) (limit : Nat) (seeds : List UInt32)
    (accounts : List DevAccount) (galaxyStatus : UInt8) (codec : Codec) (calls : List Call)
    (hserved : ∀ c ∈ calls, c.isServed = true) (now : Nat) (endpoint : Endpoint) (bytes : Bytes) (id : SessionId)
    (x : Session) (request : SessionRequest) :
    let app := application galaxyStatus
    let start := started config limit seeds accounts
    let s := start.calls app codec calls
    let s' := s.handleDatagram app codec now endpoint bytes
    s.table.get? endpoint = some id → s.session? id = some x → x.filter ≠ .passThrough →
    SessionRequest.parse? bytes = some request →
    x.endpoint = endpoint ∧
    (request.connectionId = x.connectionId →
      s' = { s.put id { x with lastActivity := now } with outbox := s.outbox ++ [x.acceptance] } ∧
      Origin app codec start calls id x) ∧
    (request.connectionId ≠ x.connectionId →
      let closed := (leaving x).finish
      let y := Session.opened endpoint config now (s.seeds.headD 0) request
      s' = { s with
        sessions := s.sessions.set id closed ++ [y]
        table := (s.table.erase endpoint).insert endpoint s.sessions.length
        seeds := s.seeds.tail
        outbox := s.outbox ++ [⟨endpoint, x.outbound (Packet.farewell x.connectionId .application)⟩, y.acceptance]
        app := onRemoved ⟨id, leaving x, s.table⟩ s.app } ∧
      s'.session? id = some closed ∧ x.removing = false ∧ closed.removing = true ∧ closed.phase = .closed ∧
      s'.sessionAt? endpoint = some y ∧ y.phase = .handshaking ∧ y.connectionId = request.connectionId ∧
      y.sender = {} ∧ y.receiver = {} ∧ y.playerId = 0) := by
  intro app start s s' hget hid hfilter hparse
  have hroster : Roster s := (orderly_calls config limit seeds accounts galaxyStatus codec calls).toRoster
  have hroomy : Roomy limit s := roomy_calls config limit seeds accounts galaxyStatus codec calls
  have htidy : Tidy s := tidy_calls config limit seeds accounts galaxyStatus codec hserved
  have hconfig : s.config = config := (configured_calls config limit seeds accounts galaxyStatus codec calls).server
  obtain ⟨hwoken, horigin⟩ := origin_calls config limit seeds accounts galaxyStatus codec hserved id x hid hfilter
  obtain ⟨_, hx, hendpoint, hopen⟩ := htidy.listed hroster hget
  obtain rfl := Option.some.inj (hid.symm.trans hx)
  subst hendpoint
  refine ⟨rfl, fun hsame => ⟨?_, horigin⟩, ?_⟩
  · have hstays : x.isSupersededBy bytes = false := by
      rw [Session.isSupersededBy_eq hparse, hsame]
      simp
    have hkept : x.negotiates request = false := by simp [Session.negotiates, hsame, hfilter]
    have hawake : x.awake = x := if_neg hwoken
    have hreceive := receive_of_parse? hid (hroster.flagged id x hid) hopen hparse app codec now
    rw [hawake, Session.greet_of_not_negotiates hkept, hkept] at hreceive
    exact (handleDatagram_of_listed hget hid hstays app codec now).trans hreceive
  · intro hother closed y
    have hsuperseded : x.isSupersededBy bytes = true := by
      rw [Session.isSupersededBy_eq hparse]
      simpa [hfilter] using hother.symm
    have hopened : Session.opened x.endpoint s.config now (s.seeds.headD 0) request = y := by rw [hconfig]
    have hafter := hroster.handleDatagram_of_restart hget hid hopen (hroomy.limit ▸ hroomy.size) hsuperseded hparse app
      codec now
    dsimp only at hafter
    rw [hopened] at hafter
    have hlt : id < s.sessions.length := (List.getElem?_eq_some_iff.1 hid).1
    have hclosed : s'.session? id = some closed := by
      simp [s', hafter, session?, List.getElem?_append_left, hlt, closed]
    have hat : s'.table.get? x.endpoint = some s.sessions.length := by
      have hgone := Table.get?_erase_self x.endpoint s.table
      rw [Table.get?] at hgone
      simp [s', hafter, Table.get?, Table.insert, List.lookup_append, hgone]
    have hnew : s'.sessionAt? x.endpoint = some y := by
      rw [sessionAt?, hat]
      simp [s', hafter, session?, y]
    have hseated : x.removing = false := hroster.not_removing hid ((hroster.isOver_eq hid).symm.trans hopen)
    exact ⟨hafter, hclosed, hseated, (remains_removed x).removing, rfl, hnew, rfl, rfl, rfl, rfl, rfl⟩

/-- A table for one: a player is in game on connection 7, and asks for it once more; then it asks for connection 8. -/
theorem requests_repeat_or_restart_full :
    let endpoint : Endpoint := ⟨.v4 10 0 0 1, 5000⟩
    let request (connectionId : UInt8) : Bytes := [0, 1, 0, 0, 0, 2, 0, 0, 0, connectionId, 0, 0, 2, 0]
    let codec : Codec := ⟨fun _ => none, fun _ _ => none⟩
    let filter : FilterParams := { crcSeed := 9, compression := true, compressionThreshold := 32 }
    let login : Bytes := Packet.header .data 0 ++ Message.encode .clientId { sessionKey := "a" }
    let calls : List Call := [.event (.datagram 0 endpoint (request 7)),
      .event (.datagram 1 endpoint (Filter.encode codec filter login))]
    let start := started { crcLength := 0 } 1 [9, 11] [⟨"a", 1, 500, 2⟩]
    let s := start.calls (application 1) codec calls
    ∃ x, s.session? 0 = some x ∧ x.playerId = 500 ∧ s.table.isFull = true ∧
      s.handleDatagram (application 1) codec 5 endpoint (request 7) =
        { s.put 0 { x with lastActivity := 5 } with outbox := s.outbox ++ [x.acceptance] } ∧
      Origin (application 1) codec start calls 0 x ∧
      (s.handleDatagram (application 1) codec 5 endpoint (request 8)).sessionAt? endpoint =
        some (Session.opened endpoint { crcLength := 0 } 5 11 ⟨8, 512⟩) := by
  intro endpoint request codec filter login calls start s
  have hserved : ∀ c ∈ calls, c.isServed = true := by decide
  have hget : s.table.get? endpoint = some 0 := by decide +kernel
  have hseed : s.seeds.headD 0 = 11 := by decide +kernel
  have hfields : (s.session? 0).map (fun x => (x.filter, x.connectionId, x.playerId)) = some (filter, 7, 500) := by
    decide +kernel
  obtain ⟨x, hid, hx⟩ := Option.map_eq_some_iff.1 hfields
  simp only [Prod.mk.injEq] at hx
  have hfilter : x.filter ≠ .passThrough := by
    rw [hx.1]
    decide
  obtain ⟨-, hrepeat, -⟩ := requests_repeat_or_restart { crcLength := 0 } 1 [9, 11] [⟨"a", 1, 500, 2⟩] 1 codec calls
    hserved 5 endpoint (request 7) 0 x ⟨7, 512⟩ hget hid hfilter (by decide +kernel)
  obtain ⟨-, -, hrestart⟩ := requests_repeat_or_restart { crcLength := 0 } 1 [9, 11] [⟨"a", 1, 500, 2⟩] 1 codec calls
    hserved 5 endpoint (request 8) 0 x ⟨8, 512⟩ hget hid hfilter (by decide +kernel)
  obtain ⟨hkept, horigin⟩ := hrepeat hx.2.1.symm
  have hother : (8 : UInt32) ≠ x.connectionId := by
    rw [hx.2.1]
    decide
  obtain ⟨-, -, -, -, -, hnew, -⟩ := hrestart hother
  refine ⟨x, hid, hx.2.2, by decide +kernel, hkept, horigin, ?_⟩
  rw [← hseed]
  exact hnew

end Service

end GameGateway
