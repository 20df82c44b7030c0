import GameGateway.Proofs.Framing
import GameGateway.Session

/-!
# Histories of a session

A history is a session with the record of what it took, framed, sent and passed on since it was created. An
event is one call; `Session.update_cases` and `Session.handle_cases` say all that the two calls with many
outcomes can do, and `Session.Keeps` what every call but a queueing and a flush leaves of the sending side.
`Session.Carried` is what an invariant of datagrams has to show, one packet at a time.

## Implementation notes

The record is no part of a session: a session forgets the packets that were released. Times and seeds are
part of the events, so that a statement over all lists of events is one over all clocks and random sources.
-/

namespace GameGateway.Session

/-- A call of a session. -/
inductive Event
  | queue (message : Bytes)
  | connect (accountId : UInt32) (playerId : UInt64)
  | close (reason : DisconnectReason)
  | update (now : Nat)
  | handle (now : Nat) (seed : UInt32) (datagram : Bytes)
  | finish

/-- The packets that a maintenance pass frames. -/
def framed (now : Nat) (s : Session) : List Bytes :=
  if (s.update now).health = .alive then (s.flushed now).2 else []

/-- A session and what it has done. -/
structure History where
  session : Session
  /-- The messages that were taken for sending. -/
  accepted : List Bytes := []
  /-- The packets that were framed, in the order of their framing. -/
  framed : List Bytes := []
  /-- The datagrams that were sent. -/
  sent : List Outbound := []
  /-- The messages from the peer that were passed on. -/
  delivered : List Bytes := []
  /-- The violations by the peer. -/
  violations : List Violation := []

namespace History

/-- The history of a session that was just created. -/
def start (endpoint : Endpoint) (config : ProtocolConfig) (now : Nat) : History :=
  { session := create endpoint config now }

/-- Records what came of a datagram. -/
def react (h : History) (reaction : Reaction) : History :=
  { h with
    session := reaction.session
    sent := h.sent ++ reaction.sent
    delivered := h.delivered ++ (reaction.result.toOption.getD [])
    violations :=
      h.violations ++ match reaction.result with
        | .ok _ => []
        | .error v => [v] }

/-- The history after one more call. -/
def step (codec : Codec) (h : History) : Event → History
  | .queue message =>
    let queued := h.session.queue message
    { h with
      session := queued.1
      accepted := if queued.2 then h.accepted ++ [message] else h.accepted }
  | .connect accountId playerId => { h with session := (h.session.connect accountId playerId).1 }
  | .close reason =>
    let closed := h.session.close reason
    { h with session := closed.1, sent := h.sent ++ closed.2.1 }
  | .update now =>
    let tick := h.session.update now
    { h with
      session := tick.session
      framed := h.framed ++ h.session.framed now
      sent := h.sent ++ tick.sent }
  | .handle now seed datagram => h.react (h.session.handle codec now seed datagram)
  | .finish => { h with session := h.session.finish }

/-- The history after a list of calls. -/
def run (codec : Codec) (h : History) (events : List Event) : History := events.foldl (step codec) h

/-- No call forgets a framed packet. -/
theorem length_framed_step (codec : Codec) (h : History) (event : Event) :
    h.framed.length ≤ (h.step codec event).framed.length := by
  cases event with
  | update now =>
    apply List.IsPrefix.length_le
    exact List.prefix_append _ _
  | _ => exact Nat.le_refl _

/-- What every call carries over every run carries over. -/
theorem run_preserves {P : History → Prop} {codec : Codec} (hstep : ∀ h event, P h → P (h.step codec event))
    {h : History} (hP : P h) (events : List Event) : P (h.run codec events) := by
  induction events generalizing h with
  | nil => exact hP
  | cons event events ih => exact ih (hstep h event hP)

end History

/-! ## What the calls do -/

/-- A maintenance pass gives up or flushes. When it gives up it frames and sends nothing, and has at most
looked the packets in flight through. -/
theorem update_cases (now : Nat) (s : Session) :
    (s.framed now = [] ∧ (s.update now).sent = [] ∧ (s.update now).health ≠ .alive ∧
      ((s.update now).session = s ∨ (s.update now).session = { s with sender := s.looked now })) ∨
    (s.isOver = false ∧ s.framed now = (s.flushed now).2 ∧
      s.update now =
        { session := { s with sender := (s.flushed now).1 }
          sent := ((s.lookThrough now).due ++ (s.flushed now).2).map s.outbound }) := by
  by_cases hclosed : s.phase = .closed
  · left
    simp [framed, update, hclosed]
  by_cases hleaving : s.phase = .disconnecting
  · left
    simp [framed, update, hleaving]
  by_cases htimed : s.isTimedOut now
  · left
    simp [framed, update, hclosed, hleaving, htimed]
  by_cases hexhausted : (s.lookThrough now).exhausted
  · left
    simp [framed, update, hclosed, hleaving, htimed, hexhausted]
  · right
    have hopen : s.isOver = false := by simp [isOver, hclosed, hleaving]
    simp [framed, update, hclosed, hleaving, htimed, hexhausted, hopen]

/-- A datagram is ignored, or answered as a request, or acted on as a packet. -/
theorem handle_cases (codec : Codec) (now : Nat) (seed : UInt32) (datagram : Bytes) (s : Session) :
    s.handle codec now seed datagram = { session := s } ∨
    s.isOver = false ∧
      (s.handle codec now seed datagram = { session := s.awake } ∨
        (∃ request, SessionRequest.parse? datagram = some request ∧
          s.handle codec now seed datagram = s.awake.greet now seed request) ∨
        ∃ packet, Filter.decode codec s.awake.filter datagram = .ok packet ∧
          s.handle codec now seed datagram = s.awake.receive now packet) := by
  unfold handle
  split
  · exact Or.inl rfl
  · rename_i hready
    obtain ⟨hopen, -⟩ := not_or.1 hready
    refine Or.inr ⟨by simpa using hopen, ?_⟩
    split
    · cases hparse : SessionRequest.parse? datagram with
      | none => exact Or.inl rfl
      | some request => exact Or.inr (Or.inl ⟨request, rfl, rfl⟩)
    · dsimp only
      cases hdecode : Filter.decode codec s.awake.filter datagram with
      | error e => exact Or.inl rfl
      | ok packet => exact Or.inr (Or.inr ⟨packet, rfl, rfl⟩)

/-! ## From packets to datagrams -/

/-- What holds between a session, what it becomes and what it sends on the way, whatever packets do it. -/
structure Carried (now : Nat) (R : Session → Session → List Outbound → Prop) : Prop where
  nil : ∀ s, R s s []
  append : ∀ {s s' s'' sent sent'}, R s s' sent → R s' s'' sent' → R s s'' (sent ++ sent')
  touch : ∀ s, R s { s with lastActivity := now } []
  react : ∀ s packet, R s (s.react now packet).session (s.react now packet).sent
  acknowledgement : ∀ s, R s s [s.acknowledgement]

namespace Carried

variable {now : Nat} {R : Session → Session → List Outbound → Prop}

theorem reactAll (h : Carried now R) (s : Session) (packets : List Packet) :
    R s (s.reactAll now packets).session (s.reactAll now packets).sent := by
  induction packets generalizing s with
  | nil => exact h.nil s
  | cons packet packets ih =>
    simp only [Session.reactAll]
    split
    · exact h.react s packet
    · exact h.append (h.react s packet) (ih _)

theorem receive (h : Carried now R) (packet : Bytes) (s : Session) :
    R s (s.receive now packet).session (s.receive now packet).sent := by
  have hall := h.append (h.touch s) (h.reactAll { s with lastActivity := now } (Packet.leaves packet))
  simp only [Session.receive]
  split
  · exact hall
  · split
    · exact h.append hall (h.acknowledgement _)
    · exact hall

/-- A datagram does what packets do, unless it wakes the session up or is answered as a request. -/
theorem handle {seed : UInt32} (h : Carried now R) (awake : ∀ s, R s s.awake [])
    (greet : ∀ s request, R s (s.greet now seed request).session (s.greet now seed request).sent) (codec : Codec)
    (datagram : Bytes) (s : Session) :
    R s (s.handle codec now seed datagram).session (s.handle codec now seed datagram).sent := by
  rcases handle_cases codec now seed datagram s with
    hcase | ⟨-, hcase | ⟨request, -, hcase⟩ | ⟨packet, -, hcase⟩⟩
  · rw [hcase]
    exact h.nil s
  · rw [hcase]
    exact awake s
  · rw [hcase]
    exact h.append (awake s) (greet s.awake request)
  · rw [hcase]
    exact h.append (awake s) (h.receive packet s.awake)

end Carried

/-! ## What the calls leave -/

/-- The filter and the size limit are those of the start, or those of some negotiation. -/
def Agreed (s : Session) : Prop :=
  (s.filter = .passThrough ∧ s.maxUdpSize = s.config.maxUdpSize) ∨
    ∃ seed asked, s.filter =
        { crcSeed := seed
          crcLength := s.config.crcLength
          compression := s.config.compression
          compressionThreshold := s.config.compressionThreshold } ∧
      s.maxUdpSize = max (min asked s.config.maxUdpSize) minUdpSize

/-- What every call other than a queueing and a flush leaves of the sending side. It may release packets
and send others again; what waits stays, unless the session starts to shut down. -/
structure Keeps (s s' : Session) : Prop where
  config : s'.config = s.config
  next : s'.sender.next = s.sender.next
  unacked : (s'.sender.unacked.map SentPacket.key).Sublist (s.sender.unacked.map SentPacket.key)
  waiting : s'.isOver = false →
    s'.sender.queued = s.sender.queued ∧ s'.sender.fragments = s.sender.fragments
  closed : s.isOver = true → s'.isOver = true
  agreed : s.Agreed → s'.Agreed

variable {s s' s'' : Session}

theorem Keeps.refl (s : Session) : Keeps s s where
  config := rfl
  next := rfl
  unacked := List.Sublist.refl _
  waiting := fun _ => ⟨rfl, rfl⟩
  closed := id
  agreed := id

theorem Keeps.isOpen (h : Keeps s s') (hopen : s'.isOver = false) : s.isOver = false := by
  cases hclosed : s.isOver with
  | false => rfl
  | true =>
    rw [h.closed hclosed] at hopen
    cases hopen

theorem Keeps.trans (h : Keeps s s') (h' : Keeps s' s'') : Keeps s s'' where
  config := h'.config.trans h.config
  next := h'.next.trans h.next
  unacked := h'.unacked.trans h.unacked
  waiting := fun hopen =>
    ⟨(h'.waiting hopen).1.trans (h.waiting (h'.isOpen hopen)).1,
      (h'.waiting hopen).2.trans (h.waiting (h'.isOpen hopen)).2⟩
  closed := fun hclosed => h'.closed (h.closed hclosed)
  agreed := fun hagreed => h'.agreed (h.agreed hagreed)

/-- Changing the sender alone, by releasing packets and sending others again. -/
theorem Keeps.ofSender {sender : Sender} (hnext : sender.next = s.sender.next)
    (hqueued : sender.queued = s.sender.queued) (hfragments : sender.fragments = s.sender.fragments)
    (hunacked : (sender.unacked.map SentPacket.key).Sublist (s.sender.unacked.map SentPacket.key)) :
    Keeps s { s with sender } where
  config := rfl
  next := hnext
  unacked := hunacked
  waiting := fun _ => ⟨hqueued, hfragments⟩
  closed := id
  agreed := id

theorem keeps_disconnect (s : Session) : Keeps s s.disconnect where
  config := rfl
  next := rfl
  unacked := List.nil_sublist _
  waiting := by simp [isOver, disconnect]
  closed := fun _ => rfl
  agreed := id

theorem keeps_looked (now : Nat) (s : Session) : Keeps s { s with sender := s.looked now } :=
  Keeps.ofSender rfl rfl rfl (by simp [looked, lookThrough, Sender.map_key_resend])

theorem keeps_react (now : Nat) (s : Session) (packet : Packet) :
    Keeps s (s.react now packet).session := by
  cases packet with
  | disconnect connectionId =>
    simp only [react]
    split
    · exact keeps_disconnect s
    · exact Keeps.refl s
  | ping => exact Keeps.refl s
  | sequenced channel sequence payload => exact ⟨rfl, rfl, .refl _, fun _ => ⟨rfl, rfl⟩, id, id⟩
  | acknowledge sequence =>
    exact Keeps.ofSender rfl rfl rfl (Sender.map_key_acknowledge_sublist sequence s.sender)
  | outOfOrder sequence =>
    exact Keeps.ofSender rfl rfl rfl (Sender.map_key_outOfOrder_sublist sequence now s.sender)

theorem carried_keeps (now : Nat) : Carried now fun s s' _ => Keeps s s' where
  nil := Keeps.refl
  append := Keeps.trans
  touch := fun _ => ⟨rfl, rfl, .refl _, fun _ => ⟨rfl, rfl⟩, id, id⟩
  react := keeps_react now
  acknowledgement := Keeps.refl

theorem keeps_reactAll (now : Nat) (s : Session) (packets : List Packet) :
    Keeps s (s.reactAll now packets).session :=
  (carried_keeps now).reactAll s packets

theorem keeps_awake (s : Session) : Keeps s s.awake := by
  unfold awake
  split
  · rename_i hphase
    refine ⟨rfl, rfl, .refl _, fun _ => ⟨rfl, rfl⟩, fun hclosed => ?_, id⟩
    simp [isOver, hphase] at hclosed
  · exact Keeps.refl s

theorem keeps_greet (now : Nat) (seed : UInt32) (s : Session) (request : SessionRequest) :
    Keeps s (s.greet now seed request).session := by
  simp only [greet]
  split
  · refine ⟨rfl, rfl, .refl _, fun _ => ⟨rfl, rfl⟩, id, fun _ => ?_⟩
    exact Or.inr ⟨seed, request.maxUdpSize, rfl, rfl⟩
  · exact ⟨rfl, rfl, .refl _, fun _ => ⟨rfl, rfl⟩, id, id⟩

theorem keeps_handle (codec : Codec) (now : Nat) (seed : UInt32) (datagram : Bytes) (s : Session) :
    Keeps s (s.handle codec now seed datagram).session :=
  (carried_keeps now).handle keeps_awake (keeps_greet now seed) codec datagram s

theorem keeps_connect (accountId : UInt32) (playerId : UInt64) (s : Session) :
    Keeps s (s.connect accountId playerId).1 := by
  unfold connect
  split
  · exact Keeps.refl s
  · rename_i hopen
    exact ⟨rfl, rfl, .refl _, fun _ => ⟨rfl, rfl⟩, fun hclosed => absurd hclosed hopen, id⟩

theorem keeps_close (reason : DisconnectReason) (s : Session) : Keeps s (s.close reason).1 := by
  unfold close
  split
  · exact Keeps.refl s
  · exact keeps_disconnect s

theorem keeps_finish (s : Session) : Keeps s s.finish where
  config := rfl
  next := rfl
  unacked := List.nil_sublist _
  waiting := by simp [isOver, finish]
  closed := fun _ => rfl
  agreed := id

/-! ## Phases and fields -/

theorem phase_react (now : Nat) (packet : Packet) (s : Session) :
    (s.react now packet).session.phase = s.phase ∨
      (s.react now packet).session.phase = .disconnecting := by
  cases packet with
  | disconnect connectionId =>
    simp only [react]
    split
    · exact Or.inr rfl
    · exact Or.inl rfl
  | _ => exact Or.inl rfl

theorem carried_phase (now : Nat) :
    Carried now fun s s' _ => s'.phase = s.phase ∨ s'.phase = .disconnecting where
  nil := fun _ => Or.inl rfl
  append := by
    rintro s s' s'' _ _ hfirst (hsame | hleaving)
    · rw [hsame]
      exact hfirst
    · exact Or.inr hleaving
  touch := fun _ => Or.inl rfl
  react := fun s packet => phase_react now packet s
  acknowledgement := fun _ => Or.inl rfl

theorem phase_receive (now : Nat) (packet : Bytes) (s : Session) :
    (s.receive now packet).session.phase = s.phase ∨ (s.receive now packet).session.phase = .disconnecting :=
  (carried_phase now).receive packet s

theorem phase_greet (now : Nat) (seed : UInt32) (request : SessionRequest) (s : Session) :
    (s.greet now seed request).session.phase = s.phase := by
  simp only [greet]
  split <;> rfl

theorem sender_awake (s : Session) : s.awake.sender = s.sender := by
  unfold awake
  split <;> rfl

theorem sender_greet (now : Nat) (seed : UInt32) (request : SessionRequest) (s : Session) :
    (s.greet now seed request).session.sender = s.sender := by
  simp only [greet]
  split <;> rfl

theorem isOver_awake (s : Session) : s.awake.isOver = s.isOver := by
  unfold awake
  split
  · rename_i hphase
    simp only [isOver, hphase]
    rfl
  · rfl

theorem phase_awake_ne_closed (h : s.phase ≠ .closed) : s.awake.phase ≠ .closed := by
  unfold awake
  split
  · simp
  · exact h

theorem carried_ne_closed (now : Nat) : Carried now fun s s' _ => s.phase ≠ .closed → s'.phase ≠ .closed where
  nil := fun _ => id
  append := fun hfirst hrest hphase => hrest (hfirst hphase)
  touch := fun _ => id
  react := by
    intro s packet hphase
    rcases phase_react now packet s with hsame | hleaving
    · rw [hsame]
      exact hphase
    · rw [hleaving]
      simp
  acknowledgement := fun _ => id

/-- No datagram closes a session; only its removal does. -/
theorem phase_handle_ne_closed (codec : Codec) (now : Nat) (seed : UInt32) (datagram : Bytes)
    (h : s.phase ≠ .closed) : (s.handle codec now seed datagram).session.phase ≠ .closed := by
  apply (carried_ne_closed now).handle
  · exact fun _ => phase_awake_ne_closed
  · intro s request hphase
    rw [phase_greet]
    exact hphase
  · exact h

theorem phase_ne_closed (h : s.isOver = false) : s.phase ≠ .closed := by
  intro hphase
  simp [isOver, hphase] at h

/-- A session that is shutting down takes no datagram. -/
theorem handleDrawing_of_closed (codec : Codec) (now : Nat) (seeds : List UInt32) (datagram : Bytes)
    (h : s.isOver = true) : s.handleDrawing codec now seeds datagram = ({ session := s }, seeds) := by
  simp [handleDrawing, handle, drawsSeed, h]

/-- A session that is shutting down has nothing to maintain. -/
theorem update_of_closed (now : Nat) (h : s.isOver = true) :
    (s.update now).session = s ∧ (s.update now).sent = [] := by
  have hphase : s.phase = .closed ∨ s.phase = .disconnecting := by
    simpa [isOver, or_comm] using h
  unfold update
  rcases hphase with hclosed | hleaving
  · simp [hclosed]
  · simp [hleaving]

end GameGateway.Session
