import GameGateway.Proofs.Conservation
import GameGateway.Proofs.Progress

/-!
# Packets in flight

Whatever a peer sends and whenever it sends it, the packets in flight are some of the packets that were framed, in the
order of their framing and each under the number of its place, and never more of them than the window has places. What
a session sends on the channels is, at every call, some of the packets in flight as they were framed and behind them
the packets that the call frames; all else that it sends are answers to datagrams and its farewell:
`History.Transmits`.

## Implementation notes

A session does not remember what it framed; `History.framed` does. Notices that repeat numbers, name numbers of packets
long released or come with numbers that were never used are all covered: a notice takes packets out of flight or sends
them again, and `Session.Answers` says that it does nothing else.
-/

namespace GameGateway

namespace Packet

variable {packet : Bytes}

theorem onChannel_of_header {channel : Channel} {sequence : UInt16} (h : header channel sequence <+: packet) :
    OnChannel packet :=
  ⟨channel, (List.prefix_append _ _).trans h⟩

end Packet

namespace Sender

variable {framed : List Bytes} {s : Sender}

/-- Every framed packet opens with the number of its place. -/
theorem Ledger.header_prefix (h : Ledger framed s) {i : Nat} {packet : Bytes} (hi : framed[i]? = some packet) :
    ∃ channel, Packet.header channel (UInt16.ofNat i) <+: packet := by
  refine ⟨(Item.ofPacket packet).channel, (Item.ofPacket packet).payload, ?_⟩
  exact (h.packet i packet hi).symm

/-- A packet in flight is one of the framed packets under the number of its place. -/
theorem Ledger.place (h : Ledger framed s) {p : SentPacket} (hp : p ∈ s.unacked) :
    ∃ i, framed[i]? = some p.data ∧ p.sequence = UInt16.ofNat i :=
  mem_numbered.1 (h.unacked.subset (List.mem_map_of_mem hp))

theorem Ledger.header_prefix_unacked (h : Ledger framed s) {p : SentPacket} (hp : p ∈ s.unacked) :
    ∃ channel, Packet.header channel p.sequence <+: p.data := by
  obtain ⟨i, hi, hsequence⟩ := h.place hp
  rw [hsequence]
  exact h.header_prefix hi

theorem Ledger.onChannel (h : Ledger framed s) {packet : Bytes} (hpacket : packet ∈ framed) :
    Packet.OnChannel packet := by
  obtain ⟨i, hi⟩ := List.mem_iff_getElem?.1 hpacket
  obtain ⟨channel, hheader⟩ := h.header_prefix hi
  exact Packet.onChannel_of_header hheader

end Sender

namespace Session

variable {s s' : Session}

/-! ## The window -/

/-- There are no more packets in flight than the window has places. -/
def WithinWindow (s : Session) : Prop := s.sender.unacked.length ≤ s.config.windowSize.toNat

theorem WithinWindow.keeps (h : s.WithinWindow) (hkeeps : Keeps s s') : s'.WithinWindow := by
  have hlength := hkeeps.unacked.length_le
  rw [List.length_map, List.length_map] at hlength
  rw [WithinWindow, hkeeps.config]
  exact Nat.le_trans hlength h

theorem WithinWindow.flush (h : s.WithinWindow) (now : Nat) :
    WithinWindow { s with sender := (s.flushed now).1 } := by
  have hlooked := h.keeps (keeps_looked now s)
  exact (Sender.flush_flushes s.budget s.config.windowSize.toNat now (s.looked now)).unacked_le hlooked

namespace History

variable {h h' : History}

theorem withinWindow_step (hwindow : h.session.WithinWindow) (codec : Codec) (event : Event) :
    (h.step codec event).session.WithinWindow := by
  cases event with
  | queue message =>
    simp only [step, Session.queue]
    split
    · exact hwindow
    · exact hwindow
  | connect accountId playerId => exact hwindow.keeps (keeps_connect accountId playerId h.session)
  | close reason => exact hwindow.keeps (keeps_close reason h.session)
  | update now =>
    simp only [step]
    rcases update_cases now h.session with ⟨-, -, -, hs | hs⟩ | ⟨-, -, hs⟩
    · rw [hs]
      exact hwindow
    · rw [hs]
      exact hwindow.keeps (keeps_looked now h.session)
    · rw [hs]
      exact hwindow.flush now
  | handle now seed datagram => exact hwindow.keeps (keeps_handle codec now seed datagram h.session)
  | finish => exact hwindow.keeps (keeps_finish h.session)

theorem withinWindow_run (hwindow : h.session.WithinWindow) (codec : Codec) (events : List Event) :
    (h.run codec events).session.WithinWindow :=
  run_preserves (P := fun h => h.session.WithinWindow)
    (fun _ event hwindow => withinWindow_step hwindow codec event) hwindow events

/-! ## What is sent -/

/-- Of what a call sends, the packets on the channels are packets in flight, each as it was framed, and behind them the
packets that the call frames; the others answer a datagram, or tell the peer that the connection is shut down. -/
def Transmits (h h' : History) : Prop :=
  ∃ sent again new, h'.sent = h.sent ++ sent ∧ h'.framed = h.framed ++ new ∧
    (sent.map Outbound.packet).filter (fun packet => Packet.OnChannel packet) = again ++ new ∧
    (∀ packet ∈ again, ∃ p ∈ h.session.sender.unacked, ∃ i,
      p.key = (UInt16.ofNat i, packet) ∧ h.framed[i]? = some packet) ∧
    ∀ out ∈ sent, ¬ Packet.OnChannel out.packet →
      Packet.IsAnswer out.packet ∨ ∃ reason, out.packet = Packet.farewell h.session.connectionId reason

theorem transmits_silent (hsent : h'.sent = h.sent) (hframed : h'.framed = h.framed) : h.Transmits h' :=
  ⟨[], [], [], by simp [hsent], by simp [hframed], rfl, by simp, by simp⟩

/-- A packet in flight is sent again as it was framed. -/
theorem framed_of_mem_unacked (hledger : Sender.Ledger h.framed h.session.sender) {packet : Bytes}
    (hpacket : packet ∈ h.session.sender.unacked.map SentPacket.data) :
    ∃ p ∈ h.session.sender.unacked, ∃ i, p.key = (UInt16.ofNat i, packet) ∧ h.framed[i]? = some packet := by
  obtain ⟨p, hp, rfl⟩ := List.mem_map.1 hpacket
  obtain ⟨i, hi, hsequence⟩ := hledger.place hp
  exact ⟨p, hp, i, Prod.ext hsequence rfl, hi⟩

/-- What answers a datagram is on no channel, and what does not is in flight. -/
theorem transmits_answers (hledger : Sender.Ledger h.framed h.session.sender) {sent : List Outbound}
    (hanswers : Answers h.session sent) (hsent : h'.sent = h.sent ++ sent) (hframed : h'.framed = h.framed) :
    h.Transmits h' := by
  refine ⟨sent, (sent.map Outbound.packet).filter (fun packet => Packet.OnChannel packet), [], hsent, by simp [hframed],
    by simp, ?_, ?_⟩
  · intro packet hpacket
    obtain ⟨hmem, hchannel⟩ := List.mem_filter.1 hpacket
    obtain ⟨out, hout, rfl⟩ := List.mem_map.1 hmem
    apply framed_of_mem_unacked hledger
    exact (hanswers out hout).resolve_left fun hanswer => hanswer.not_onChannel (of_decide_eq_true hchannel)
  · intro out hout hchannel
    exact Or.inl ((hanswers out hout).resolve_right fun hdata =>
      hchannel (hledger.onChannel (hledger.mem_framed hdata)))

/-- A report of a gap makes a session send packets in flight and nothing else. -/
theorem framed_of_outOfOrder (hledger : Sender.Ledger h.framed h.session.sender) {now : Nat} {sequence : UInt16}
    {out : Outbound} (hout : out ∈ (h.session.react now (.outOfOrder sequence)).sent) :
    ∃ p ∈ h.session.sender.unacked, ∃ i,
      p.key = (UInt16.ofNat i, out.packet) ∧ h.framed[i]? = some out.packet := by
  obtain ⟨packet, hpacket, rfl⟩ := List.mem_map.1 hout
  exact framed_of_mem_unacked hledger ((Sender.outOfOrder_sublist sequence now h.session.sender).subset hpacket)

/-- Behind an update what was framed is in order too. -/
theorem ledger_flushed (hledger : Sender.Ledger h.framed h.session.sender) (now : Nat) :
    Sender.Ledger (h.framed ++ (h.session.flushed now).2) (h.session.flushed now).1 :=
  (Sender.flush_flushes h.session.budget h.session.config.windowSize.toNat now (h.session.looked now)).ledger
    (hledger.of_sublist rfl (keeps_looked now h.session).unacked)

theorem mem_unacked_of_due {now : Nat} {packet : Bytes} (hpacket : packet ∈ (h.session.lookThrough now).due) :
    packet ∈ h.session.sender.unacked.map SentPacket.data :=
  (Sender.due_resend_sublist _ now _ h.session.sender.unacked).subset hpacket

/-- A maintenance pass sends packets on the channels and nothing else. -/
theorem onChannel_update (hledger : Sender.Ledger h.framed h.session.sender) (now : Nat) :
    ∀ out ∈ (h.session.update now).sent, Packet.OnChannel out.packet := by
  intro out hout
  rcases update_cases now h.session with ⟨-, hsent, -, -⟩ | ⟨-, -, hs⟩
  · rw [hsent] at hout
    cases hout
  · rw [hs] at hout
    obtain ⟨packet, hpacket, rfl⟩ := List.mem_map.1 hout
    rcases List.mem_append.1 hpacket with hagain | hnew
    · exact hledger.onChannel (hledger.mem_framed (mem_unacked_of_due hagain))
    · exact (ledger_flushed hledger now).onChannel (List.mem_append_right _ hnew)

/-- A maintenance pass that flushes sends what is due, as it was framed, and then what it frames. -/
theorem transmits_update (hledger : Sender.Ledger h.framed h.session.sender) (codec : Codec) (now : Nat) :
    h.Transmits (h.step codec (.update now)) := by
  have hchannel := onChannel_update hledger now
  rcases update_cases now h.session with ⟨hframed, hsent, -, -⟩ | ⟨-, hframed, hs⟩
  · apply transmits_silent
    · simp only [step, hsent, List.append_nil]
    · simp only [step, hframed, List.append_nil]
  · have hpackets : (h.session.update now).sent.map Outbound.packet =
        (h.session.lookThrough now).due ++ (h.session.flushed now).2 := by
      rw [hs, List.map_map]
      exact List.map_id _
    refine ⟨(h.session.update now).sent, (h.session.lookThrough now).due, (h.session.flushed now).2, rfl, ?_, ?_, ?_,
      ?_⟩
    · simp only [step, hframed]
    · rw [← hpackets, List.filter_eq_self]
      intro packet hpacket
      obtain ⟨out, hout, rfl⟩ := List.mem_map.1 hpacket
      exact decide_eq_true (hchannel out hout)
    · intro packet hpacket
      exact framed_of_mem_unacked hledger (mem_unacked_of_due hpacket)
    · intro out hout hother
      exact absurd (hchannel out hout) hother

/-- A session that is closed tells its peer so, on no channel, or it sends nothing. -/
theorem transmits_close (codec : Codec) (reason : DisconnectReason) (h : History) :
    h.Transmits (h.step codec (.close reason)) := by
  cases hopen : h.session.isOver with
  | true =>
    have hrefused : h.session.close reason = (h.session, [], false) := if_pos hopen
    apply transmits_silent
    · simp only [step, hrefused, List.append_nil]
    · rfl
  | false =>
    have hclose := close_of_open hopen reason
    have hchannel : ¬ Packet.OnChannel (h.session.outbound (Packet.farewell h.session.connectionId reason)).packet :=
      Packet.not_onChannel_farewell h.session.connectionId reason
    refine ⟨[h.session.outbound (Packet.farewell h.session.connectionId reason)], [], [],
      by simp only [step, hclose], by simp [step], by simp [hchannel], by simp, ?_⟩
    intro out hout _
    rw [List.mem_singleton.1 hout]
    exact Or.inr ⟨reason, rfl⟩

theorem transmits_step (hledger : Sender.Ledger h.framed h.session.sender) (codec : Codec) (event : Event) :
    h.Transmits (h.step codec event) := by
  cases event with
  | queue message => exact transmits_silent rfl rfl
  | connect accountId playerId => exact transmits_silent rfl rfl
  | close reason => exact transmits_close codec reason h
  | update now => exact transmits_update hledger codec now
  | handle now seed datagram =>
    exact transmits_answers hledger (answers_handle codec now seed datagram h.session) rfl rfl
  | finish => exact transmits_silent rfl rfl

/-- Whatever a peer sends: the packets in flight are within the window; the framed packets carry the numbers of their
places, and the next number is how many there are; every packet in flight opens with the opcode of a channel and its own
number; the packets in flight are some of the framed ones, in order; whatever is sent again is sent as it was framed,
and what is neither new nor sent again is an answer or the farewell; and a report of a gap makes the session send again
and nothing else. -/
theorem flight_as_framed (codec : Codec) (endpoint : Endpoint) (config : ProtocolConfig) (now : Nat)
    (events : List Event) :
    let h := (start endpoint config now).run codec events
    h.session.sender.unacked.length ≤ config.windowSize.toNat ∧
    h.session.sender.next = UInt16.ofNat h.framed.length ∧
    (∀ i packet, h.framed[i]? = some packet → ∃ channel, Packet.header channel (UInt16.ofNat i) <+: packet) ∧
    (∀ p ∈ h.session.sender.unacked, ∃ channel, Packet.header channel p.sequence <+: p.data) ∧
    (h.session.sender.unacked.map SentPacket.key).Sublist (Sender.numbered h.framed) ∧
    (∀ event, h.Transmits (h.step codec event)) ∧
    ∀ now sequence, ∀ out ∈ (h.session.react now (.outOfOrder sequence)).sent, ∃ p ∈ h.session.sender.unacked, ∃ i,
      p.key = (UInt16.ofNat i, out.packet) ∧ h.framed[i]? = some out.packet := by
  intro h
  have hsound : Sound config h.accepted h.framed h.session := (sound_create endpoint config now).run codec events
  have hwindow : h.session.WithinWindow := withinWindow_run (Nat.zero_le _) codec events
  have hledger := hsound.ledger
  refine ⟨?_, hledger.next, ?_, ?_, hledger.unacked, ?_, ?_⟩
  · rw [← hsound.config_eq]
    exact hwindow
  · intro i packet hi
    exact hledger.header_prefix hi
  · intro p hp
    exact hledger.header_prefix_unacked hp
  · intro event
    exact transmits_step hledger codec event
  · intro now sequence out hout
    exact framed_of_outOfOrder hledger hout

end History

end Session

end GameGateway
