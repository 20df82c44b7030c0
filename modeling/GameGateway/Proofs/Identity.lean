import GameGateway.Proofs.Answers

/-!
# Whose a session is

No datagram, maintenance pass, queueing or shutdown changes the endpoint, the player or the account of a
session, opens it again or connects it: `Session.Remains` holds of every call but `Session.connect`. No call at
all parts the flag of sessions that shut down from their phase. A session whose sending side is as it was created
keeps it so, and none of its datagrams is on a channel.

## Implementation notes

The connection that a session is on is no part of `Session.Remains`: a request to open a connection may name
another one at any time, and nothing else does (`Session.handle_of_connectionId_ne`).
-/

namespace GameGateway

namespace Session

/-- The session is held by the same player; it is not opened again or connected, and its flag is not lowered. -/
structure SamePlayer (s s' : Session) : Prop where
  playerId : s'.playerId = s.playerId
  accountId : s'.accountId = s.accountId
  isOpen : s'.isOver = false → s.isOver = false
  connected : s'.isOver = false → (s'.phase = .connected ↔ s.phase = .connected)
  raised : s.isClosed = true → s'.isClosed = true

/-- The flag of a session says what its phase says. -/
def Flagged (s : Session) : Prop := s.isClosed = s.isOver

/-- What every call but a login leaves of a session. -/
structure Remains (s s' : Session) : Prop extends SamePlayer s s' where
  endpoint : s'.endpoint = s.endpoint
  removing : s'.removing = s.removing
  flagged : s.Flagged → s'.Flagged

variable {s s' s'' : Session}

theorem SamePlayer.refl (s : Session) : SamePlayer s s := ⟨rfl, rfl, id, fun _ => Iff.rfl, id⟩

theorem SamePlayer.trans (h : SamePlayer s s') (h' : SamePlayer s' s'') : SamePlayer s s'' where
  playerId := h'.playerId.trans h.playerId
  accountId := h'.accountId.trans h.accountId
  isOpen := fun hopen => h.isOpen (h'.isOpen hopen)
  connected := fun hopen => (h'.connected hopen).trans (h.connected (h'.isOpen hopen))
  raised := fun hraised => h'.raised (h.raised hraised)

theorem SamePlayer.isOver (h : SamePlayer s s') (hclosed : s.isOver = true) :
    s'.isOver = true := by
  cases hopen : s'.isOver with
  | true => rfl
  | false =>
    rw [h.isOpen hopen] at hclosed
    cases hclosed

theorem SamePlayer.isClosed (h : SamePlayer s s') (hopen : s'.isClosed = false) : s.isClosed = false := by
  cases hraised : s.isClosed with
  | false => rfl
  | true =>
    rw [h.raised hraised] at hopen
    cases hopen

/-- A session that is shut down. -/
theorem SamePlayer.ofClosed (hplayer : s'.playerId = s.playerId) (haccount : s'.accountId = s.accountId)
    (hclosed : s'.isOver = true) (hraised : s'.isClosed = true) : SamePlayer s s' where
  playerId := hplayer
  accountId := haccount
  isOpen := fun hopen => by rw [hclosed] at hopen; cases hopen
  connected := fun hopen => by rw [hclosed] at hopen; cases hopen
  raised := fun _ => hraised

theorem Remains.refl (s : Session) : Remains s s := ⟨SamePlayer.refl s, rfl, rfl, id⟩

theorem Remains.trans (h : Remains s s') (h' : Remains s' s'') : Remains s s'' where
  toSamePlayer := h.toSamePlayer.trans h'.toSamePlayer
  endpoint := h'.endpoint.trans h.endpoint
  removing := h'.removing.trans h.removing
  flagged := fun hflagged => h'.flagged (h.flagged hflagged)

/-- A change that leaves the phase, the flag and what names the peer. -/
theorem Remains.ofPhase (hphase : s'.phase = s.phase) (hflag : s'.isClosed = s.isClosed)
    (hplayer : s'.playerId = s.playerId) (haccount : s'.accountId = s.accountId)
    (hendpoint : s'.endpoint = s.endpoint) (hremoving : s'.removing = s.removing) : Remains s s' where
  playerId := hplayer
  accountId := haccount
  isOpen := fun hopen => by simpa only [Session.isOver, hphase] using hopen
  connected := fun _ => by rw [hphase]
  raised := hflag.trans
  endpoint := hendpoint
  removing := hremoving
  flagged := fun hflagged => by rw [Flagged, hflag, hflagged, Session.isOver, Session.isOver, hphase]

/-! ## The calls of the transport -/

theorem remains_disconnect (s : Session) : Remains s s.disconnect :=
  ⟨SamePlayer.ofClosed rfl rfl rfl rfl, rfl, rfl, fun _ => rfl⟩

theorem remains_close (reason : DisconnectReason) (s : Session) : Remains s (s.close reason).1 := by
  unfold close
  split
  · exact Remains.refl s
  · exact remains_disconnect s

theorem close_of_open (h : s.isOver = false) (reason : DisconnectReason) :
    s.close reason = (s.disconnect, [s.outbound (Packet.farewell s.connectionId reason)], true) := by
  simp [close, h]

theorem remains_finish (s : Session) : Remains s s.finish :=
  ⟨SamePlayer.ofClosed rfl rfl rfl rfl, rfl, rfl, fun _ => rfl⟩

theorem remains_queue (message : Bytes) (s : Session) : Remains s (s.queue message).1 := by
  unfold queue
  split
  · exact Remains.refl s
  · exact .ofPhase rfl rfl rfl rfl rfl rfl

theorem remains_react (now : Nat) (s : Session) (packet : Packet) :
    Remains s (s.react now packet).session := by
  cases packet with
  | disconnect connectionId =>
    simp only [react]
    split
    · exact remains_disconnect s
    · exact Remains.refl s
  | ping => exact Remains.refl s
  | sequenced channel sequence payload => exact .ofPhase rfl rfl rfl rfl rfl rfl
  | acknowledge sequence => exact .ofPhase rfl rfl rfl rfl rfl rfl
  | outOfOrder sequence => exact .ofPhase rfl rfl rfl rfl rfl rfl

theorem carried_remains (now : Nat) : Carried now fun s s' _ => Remains s s' where
  nil := Remains.refl
  append := Remains.trans
  touch := fun _ => .ofPhase rfl rfl rfl rfl rfl rfl
  react := remains_react now
  acknowledgement := Remains.refl

theorem remains_awake (s : Session) : Remains s s.awake := by
  unfold awake
  split
  · rename_i hphase
    have hopen : s.isOver = false := by simp [isOver, hphase]
    refine ⟨⟨rfl, rfl, fun _ => hopen, fun _ => ?_, id⟩, rfl, rfl, fun hflagged => ?_⟩
    · simp [hphase]
    · exact hflagged.trans hopen
  · exact Remains.refl s

theorem remains_greet (now : Nat) (seed : UInt32) (s : Session) (request : SessionRequest) :
    Remains s (s.greet now seed request).session := by
  simp only [greet]
  split
  · exact .ofPhase rfl rfl rfl rfl rfl rfl
  · exact .ofPhase rfl rfl rfl rfl rfl rfl

theorem remains_handle (codec : Codec) (now : Nat) (seed : UInt32) (datagram : Bytes) (s : Session) :
    Remains s (s.handle codec now seed datagram).session :=
  (carried_remains now).handle remains_awake (remains_greet now seed) codec datagram s

/-- A maintenance pass changes the sending side at most. -/
theorem update_session (now : Nat) (s : Session) :
    ∃ sender, (s.update now).session = { s with sender } := by
  rcases update_cases now s with ⟨-, -, -, h | h⟩ | ⟨-, -, h⟩
  · exact ⟨s.sender, h⟩
  · exact ⟨s.looked now, h⟩
  · exact ⟨(s.flushed now).1, by rw [h]⟩

theorem remains_update (now : Nat) (s : Session) : Remains s (s.update now).session := by
  obtain ⟨sender, h⟩ := update_session now s
  rw [h]
  exact .ofPhase rfl rfl rfl rfl rfl rfl

/-! ## The flag and the phase -/

theorem flagged_create (endpoint : Endpoint) (config : ProtocolConfig) (now : Nat) :
    (create endpoint config now).Flagged := rfl

theorem connect_of_open (accountId : UInt32) (playerId : UInt64) (hopen : s.isOver = false) :
    s.connect accountId playerId = ({ s with phase := .connected, accountId, playerId }, true) := by
  rw [connect, hopen]
  rfl

theorem Flagged.connect (h : s.Flagged) (accountId : UInt32) (playerId : UInt64) :
    (s.connect accountId playerId).1.Flagged := by
  cases hopen : s.isOver with
  | true =>
    rw [Session.connect, hopen]
    exact h
  | false =>
    rw [connect_of_open accountId playerId hopen]
    -- the call leaves the flag as it is, so that it has to be down before
    exact h.trans hopen

theorem History.flagged_step {h : History} (hflagged : h.session.Flagged) (codec : Codec) (event : Event) :
    (h.step codec event).session.Flagged := by
  cases event with
  | queue message => exact (remains_queue message h.session).flagged hflagged
  | connect accountId playerId => exact hflagged.connect accountId playerId
  | close reason => exact (remains_close reason h.session).flagged hflagged
  | update now => exact (remains_update now h.session).flagged hflagged
  | handle now seed datagram => exact (remains_handle codec now seed datagram h.session).flagged hflagged
  | finish => exact (remains_finish h.session).flagged hflagged

/-- Behind every run of a fresh session its flag says what its phase says. -/
theorem History.flagged_run (codec : Codec) (endpoint : Endpoint) (config : ProtocolConfig) (now : Nat)
    (events : List Event) : ((start endpoint config now).run codec events).session.Flagged :=
  run_preserves (P := fun h => h.session.Flagged) (fun _ event hflagged => flagged_step hflagged codec event)
    (flagged_create endpoint config now) events

/-! ## The connection -/

theorem connectionId_close (reason : DisconnectReason) (s : Session) :
    (s.close reason).1.connectionId = s.connectionId := by
  unfold close
  split <;> rfl

theorem connectionId_queue (message : Bytes) (s : Session) :
    (s.queue message).1.connectionId = s.connectionId := by
  unfold queue
  split <;> rfl

theorem isOver_queue (message : Bytes) (s : Session) : (s.queue message).1.isOver = s.isOver := by
  unfold queue
  split <;> rfl

theorem isClosed_queue (message : Bytes) (s : Session) : (s.queue message).1.isClosed = s.isClosed := by
  unfold queue
  split <;> rfl

theorem connectionId_react (now : Nat) (s : Session) (packet : Packet) :
    (s.react now packet).session.connectionId = s.connectionId := by
  cases packet with
  | disconnect connectionId =>
    simp only [react]
    split <;> rfl
  | _ => rfl

theorem carried_connectionId (now : Nat) : Carried now fun s s' _ => s'.connectionId = s.connectionId where
  nil := fun _ => rfl
  append := fun hfirst hrest => hrest.trans hfirst
  touch := fun _ => rfl
  react := connectionId_react now
  acknowledgement := fun _ => rfl

theorem connectionId_reactAll (now : Nat) (s : Session) (packets : List Packet) :
    (s.reactAll now packets).session.connectionId = s.connectionId :=
  (carried_connectionId now).reactAll s packets

theorem connectionId_receive (now : Nat) (packet : Bytes) (s : Session) :
    (s.receive now packet).session.connectionId = s.connectionId :=
  (carried_connectionId now).receive packet s

theorem connectionId_awake (s : Session) : s.awake.connectionId = s.connectionId := by
  unfold awake
  split <;> rfl

/-- Only a request changes the connection; it brings no message and shuts nothing down. -/
theorem handle_of_connectionId_ne {codec : Codec} {now : Nat} {seed : UInt32} {datagram : Bytes}
    {s : Session} (h : (s.handle codec now seed datagram).session.connectionId ≠ s.connectionId) :
    s.isOver = false ∧ (s.handle codec now seed datagram).result = .ok [] ∧
      (s.handle codec now seed datagram).session.isOver = false := by
  rcases handle_cases codec now seed datagram s with
    hcase | ⟨hopen, hcase | ⟨request, -, hcase⟩ | ⟨packet, -, hcase⟩⟩
  · rw [hcase] at h
    exact absurd rfl h
  · rw [hcase] at h
    exact absurd (connectionId_awake s) h
  · have hphase : (s.awake.greet now seed request).session.phase = s.awake.phase := by
      simp only [greet]
      split <;> rfl
    rw [hcase]
    refine ⟨hopen, rfl, ?_⟩
    rw [Session.isOver, hphase]
    exact (isOver_awake s).trans hopen
  · rw [hcase] at h
    exact absurd ((connectionId_receive now packet s.awake).trans (connectionId_awake s)) h

/-! ## Sessions without anything to send -/

/-- What a call leaves and sends of a session that has nothing to send. -/
def Quiet (s : Session) (sent : List Outbound) : Prop :=
  s.sender = {} ∧ ∀ out ∈ sent, ¬ Packet.OnChannel out.packet

theorem quiet_nil (h : s.sender = {}) : Quiet s [] := ⟨h, by simp⟩

theorem quiet_close (reason : DisconnectReason) (h : s.sender = {}) :
    Quiet (s.close reason).1 (s.close reason).2.1 := by
  unfold close
  split
  · exact quiet_nil h
  · constructor
    · rw [disconnect, h]
      rfl
    · intro out hout
      rw [List.mem_singleton.1 hout]
      exact Packet.not_onChannel_farewell s.connectionId reason

theorem sender_react (now : Nat) (packet : Packet) (h : s.sender = {}) :
    (s.react now packet).session.sender = {} := by
  cases packet with
  | disconnect connectionId =>
    simp only [react]
    split
    · rw [disconnect, h]
      rfl
    · exact h
  | ping => exact h
  | sequenced channel sequence payload => exact h
  | acknowledge sequence =>
    simp only [react, h]
    rfl
  | outOfOrder sequence =>
    simp only [react, h]
    rfl

theorem carried_sender (now : Nat) : Carried now fun s s' _ => s.sender = {} → s'.sender = {} where
  nil := fun _ => id
  append := fun hfirst hrest hsender => hrest (hfirst hsender)
  touch := fun _ => id
  react := fun _ packet => sender_react now packet
  acknowledgement := fun _ => id

/-- With nothing in flight there is nothing to send once more. -/
theorem quiet_handle (codec : Codec) (now : Nat) (seed : UInt32) (datagram : Bytes)
    (h : s.sender = {}) :
    Quiet (s.handle codec now seed datagram).session (s.handle codec now seed datagram).sent := by
  constructor
  · apply (carried_sender now).handle _ _ codec datagram s h
    · intro s hsender
      exact (sender_awake s).trans hsender
    · intro s request hsender
      exact (sender_greet now seed request s).trans hsender
  · intro out hout
    rcases answers_handle codec now seed datagram s out hout with hanswer | hdata
    · exact hanswer.not_onChannel
    · rw [h] at hdata
      cases hdata

theorem quiet_update (now : Nat) (h : s.sender = {}) :
    Quiet (s.update now).session (s.update now).sent := by
  have hlooked : s.looked now = {} := by
    rw [looked, lookThrough, h]
    rfl
  have hflushed : s.flushed now = ({}, []) := by
    rw [flushed, hlooked, Sender.flush, Sender.flushFrom]
    split <;> rfl
  rcases update_cases now s with ⟨-, hsent, -, hcase | hcase⟩ | ⟨-, -, hcase⟩
  · rw [hsent, hcase]
    exact quiet_nil h
  · rw [hsent, hcase]
    exact quiet_nil hlooked
  · have hdue : (s.lookThrough now).due = [] := by
      rw [lookThrough, h]
      rfl
    rw [hcase, hflushed, hdue]
    exact quiet_nil rfl

end Session

end GameGateway
