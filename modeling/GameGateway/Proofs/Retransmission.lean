import GameGateway.Proofs.Numbering

/-!
# Retransmissions

A packet in flight counts how often it was sent again, and keeps the time at which it was sent last. Both agree with
what a session has sent, as long as its maintenance passes do not give up: `Logbook.resends_counted`. What a maintenance
pass sends again, and when it gives up, can therefore be said of the datagrams that were sent, without looking into the
session.

## Implementation notes

The sendings of a logbook are not read off the datagrams, because the same bytes can come from two packets whose numbers
are a circle apart. `Logbook.Follows.stamps_run` says that they are the datagrams on the channels, one for one and in
order.
-/

namespace GameGateway

/-! ## Datagrams on the channels -/

/-- The packets on the channels among some datagrams. -/
def channelled (sent : List Outbound) : List Bytes :=
  (sent.map Outbound.packet).filter fun packet => Packet.OnChannel packet

theorem channelled_append (sent sent' : List Outbound) :
    channelled (sent ++ sent') = channelled sent ++ channelled sent' := by
  rw [channelled, List.map_append, List.filter_append]
  rfl

theorem channelled_eq_nil {sent : List Outbound} (h : ∀ out ∈ sent, ¬ Packet.OnChannel out.packet) :
    channelled sent = [] := by
  apply List.filter_eq_nil_iff.2
  intro packet hpacket
  obtain ⟨out, hout, rfl⟩ := List.mem_map.1 hpacket
  rw [decide_eq_true_iff]
  exact h out hout

theorem channelled_answers {sent : List Outbound} (h : ∀ out ∈ sent, Packet.IsAnswer out.packet) :
    channelled sent = [] :=
  channelled_eq_nil fun out hout => (h out hout).not_onChannel

theorem channelled_eq_self {sent : List Outbound} (h : ∀ out ∈ sent, Packet.OnChannel out.packet) :
    channelled sent = sent.map Outbound.packet := by
  apply List.filter_eq_self.2
  intro packet hpacket
  obtain ⟨out, hout, rfl⟩ := List.mem_map.1 hpacket
  exact decide_eq_true (h out hout)

theorem map_packet_outbound (s : Session) (packets : List Bytes) :
    (packets.map s.outbound).map Outbound.packet = packets := by
  rw [List.map_map]
  exact List.map_id packets

/-- A sending with its time and its packet. -/
def Sending.stamp (framed : List Bytes) (x : Sending) : Option Nat × Option Bytes := (some x.time, framed[x.number]?)

theorem Sending.map_stamp_append {framed : List Bytes} {sendings : List Sending}
    (h : ∀ x ∈ sendings, x.number < framed.length) (packets : List Bytes) :
    sendings.map (stamp (framed ++ packets)) = sendings.map (stamp framed) := by
  apply List.map_congr_left
  intro x hx
  rw [stamp, stamp, List.getElem?_append_left (h x hx)]

/-- Packets that were sent at a time. -/
def stampAt (now : Nat) (packets : List Bytes) : List (Option Nat × Option Bytes) :=
  packets.map fun packet => (some now, some packet)

theorem Numbered.stamp_sendingsAt {framed : List Bytes} {flight entries : List (Nat × SentPacket)}
    (h : Numbered framed flight) (hentries : entries ⊆ flight) (now : Nat) :
    (sendingsAt now entries).map (Sending.stamp framed) = stampAt now (entries.map fun entry => entry.2.data) := by
  rw [sendingsAt, stampAt, List.map_map, List.map_map]
  apply List.map_congr_left
  intro entry hentry
  have hplace := (h.place entry (hentries hentry)).1
  simp only [Function.comp_apply, Sending.stamp, hplace]

/-! ## Accounts -/

/-- When the packet of a number was sent, from first to last. -/
def sentTimes (sendings : List Sending) (number : Nat) : List Nat :=
  (sendings.filter fun x => x.number = number).map Sending.time

theorem sentTimes_append (sendings sendings' : List Sending) (number : Nat) :
    sentTimes (sendings ++ sendings') number = sentTimes sendings number ++ sentTimes sendings' number := by
  rw [sentTimes, List.filter_append, List.map_append]
  rfl

theorem length_sentTimes_le (sendings : List Sending) (number : Nat) :
    (sentTimes sendings number).length ≤ sendings.length := by
  rw [sentTimes, List.length_map]
  exact List.length_filter_le _ _

theorem sentTimes_eq_nil {sendings : List Sending} {number : Nat} (h : ∀ x ∈ sendings, x.number ≠ number) :
    sentTimes sendings number = [] := by
  rw [sentTimes, List.map_eq_nil_iff, List.filter_eq_nil_iff]
  intro x hx
  rw [decide_eq_true_iff]
  exact h x hx

theorem sentTimes_sendingsAt {entries : List (Nat × SentPacket)}
    (h : entries.Pairwise fun entry entry' => entry.1 < entry'.1) {entry : Nat × SentPacket} (hentry : entry ∈ entries)
    (now : Nat) : sentTimes (sendingsAt now entries) entry.1 = [now] := by
  induction entries with
  | nil => cases hentry
  | cons first rest ih =>
    obtain ⟨hfirst, hrest⟩ := List.pairwise_cons.1 h
    have hcons : sentTimes (sendingsAt now (first :: rest)) entry.1 =
        sentTimes [⟨first.1, now⟩] entry.1 ++ sentTimes (sendingsAt now rest) entry.1 :=
      sentTimes_append [⟨first.1, now⟩] _ entry.1
    rw [hcons]
    rcases List.mem_cons.1 hentry with rfl | hentry
    · have hothers : sentTimes (sendingsAt now rest) entry.1 = [] := by
        apply sentTimes_eq_nil
        intro x hx
        obtain ⟨other, hother, rfl⟩ := List.mem_map.1 hx
        exact Nat.ne_of_gt (hfirst other hother)
      rw [hothers]
      simp [sentTimes]
    · have hother : sentTimes [⟨first.1, now⟩] entry.1 = [] := by
        apply sentTimes_eq_nil
        intro x hx
        rw [List.mem_singleton.1 hx]
        exact Nat.ne_of_lt (hfirst entry hentry)
      rw [hother, ih hrest hentry]
      rfl

theorem sentTimes_sentAgain {kept : List (Nat × SentPacket)} (h : kept.Pairwise fun entry entry' => entry.1 < entry'.1)
    {entry : Nat × SentPacket} (hentry : entry ∈ kept) (now : Nat) (due : SentPacket → Bool) :
    sentTimes (sentAgain now due kept) entry.1 = if due entry.2 then [now] else [] := by
  split
  · rename_i hdue
    exact sentTimes_sendingsAt (h.filter _) (List.mem_filter.2 ⟨hentry, hdue⟩) now
  · rename_i hdue
    apply sentTimes_eq_nil
    intro x hx hnumber
    obtain ⟨other, hother, rfl⟩ := List.mem_map.1 hx
    obtain ⟨hmem, hagain⟩ := List.mem_filter.1 hother
    -- the ascending numbers are distinct
    have hnodup : (kept.map Prod.fst).Nodup := (List.pairwise_map.2 h).imp Nat.ne_of_lt
    obtain rfl : other = entry := List.inj_on_of_nodup_map hnodup hmem hentry hnumber
    exact hdue hagain

theorem sentTimes_fresh_of_lt {number start : Nat} (h : number < start) (now : Nat) (packets : List Bytes) :
    sentTimes (sendingsAt now (freshFlight now start packets)) number = [] := by
  apply sentTimes_eq_nil
  intro x hx
  obtain ⟨entry, hentry, rfl⟩ := List.mem_map.1 hx
  obtain ⟨i, packet, -, rfl⟩ := mem_freshFlight.1 hentry
  exact Nat.ne_of_gt (Nat.lt_of_lt_of_le h (Nat.le_add_right _ i))

/-- A packet that was just framed was sent once. -/
theorem sentTimes_append_fresh {framed : List Bytes} {flight : List (Nat × SentPacket)} {sendings : List Sending}
    (hlisted : Listed framed flight sendings) {now : Nat} {packets : List Bytes} {entry : Nat × SentPacket}
    (hentry : entry ∈ freshFlight now framed.length packets) :
    sentTimes (sendings ++ sendingsAt now (freshFlight now framed.length packets)) entry.1 = [now] := by
  rw [sentTimes_append, sentTimes_sendingsAt (increasing_freshFlight now _ packets) hentry, sentTimes_eq_nil]
  · rfl
  · intro x hx
    obtain ⟨i, packet, -, rfl⟩ := mem_freshFlight.1 hentry
    exact Nat.ne_of_lt (Nat.lt_of_lt_of_le (hlisted.number_lt x hx) (Nat.le_add_right _ i))

/-- Every packet in flight was sent again as often as it counts, and for the last time when it says. -/
def Accounted (flight : List (Nat × SentPacket)) (sendings : List Sending) : Prop :=
  ∀ entry ∈ flight, ∃ earlier,
    sentTimes sendings entry.1 = earlier ++ [entry.2.sentAt] ∧ entry.2.resends = UInt32.ofNat earlier.length

namespace Accounted

variable {flight kept : List (Nat × SentPacket)} {sendings : List Sending}

theorem release (h : Accounted flight sendings) (hkept : kept.Sublist flight) : Accounted kept sendings :=
  fun entry hentry => h entry (hkept.subset hentry)

theorem pass (h : Accounted flight sendings) (hkept : kept.Sublist flight)
    (hincreasing : flight.Pairwise fun entry entry' => entry.1 < entry'.1) (now : Nat) (due : SentPacket → Bool) :
    Accounted (kept.map (sendAgain now due)) (sendings ++ sentAgain now due kept) := by
  intro entry' hentry'
  obtain ⟨entry, hentry, rfl⟩ := List.mem_map.1 hentry'
  obtain ⟨earlier, htimes, hresends⟩ := h entry (hkept.subset hentry)
  have hagain := sentTimes_sentAgain (hincreasing.sublist hkept) hentry now due
  simp only [sendAgain]
  rw [sentTimes_append, htimes, hagain]
  cases hdue : due entry.2 with
  | true =>
    refine ⟨earlier ++ [entry.2.sentAt], rfl, ?_⟩
    rw [List.length_append, List.length_singleton, UInt32.ofNat_add, ← hresends]
    rfl
  | false => exact ⟨earlier, List.append_nil _, hresends⟩

theorem fresh {framed : List Bytes} (h : Accounted flight sendings) (hlisted : Listed framed flight sendings)
    (now : Nat) (packets : List Bytes) :
    Accounted (flight ++ freshFlight now framed.length packets)
      (sendings ++ sendingsAt now (freshFlight now framed.length packets)) := by
  intro entry hentry
  rcases List.mem_append.1 hentry with hold | hnew
  · obtain ⟨earlier, htimes, hresends⟩ := h entry hold
    refine ⟨earlier, ?_, hresends⟩
    rw [sentTimes_append, sentTimes_fresh_of_lt (hlisted.numbered.lt_length hold), List.append_nil]
    exact htimes
  · rw [sentTimes_append_fresh hlisted hnew]
    obtain ⟨i, packet, -, rfl⟩ := mem_freshFlight.1 hnew
    exact ⟨[], rfl, rfl⟩

end Accounted

/-- Packets in flight whose books are in order. -/
structure Booked (framed : List Bytes) (flight : List (Nat × SentPacket)) (sendings : List Sending) : Prop where
  listed : Listed framed flight sendings
  accounted : Accounted flight sendings

/-- A look through the packets in flight ends early exactly where one is due that was sent again as often as is
allowed. -/
theorem Sender.exhausted_iff {delay now : Nat} {limit : UInt32} {packets : List SentPacket} :
    (resend delay now limit packets).exhausted = true ↔
      ∃ p ∈ packets, isDue delay now p = true ∧ limit ≤ p.resends := by
  induction packets with
  | nil => simp [resend]
  | cons p rest ih =>
    simp only [resend, List.mem_cons, exists_eq_or_imp]
    split
    · split
      · simp [*]
      · rw [ih]
        simp [*]
    · rw [ih]
      simp [*]

namespace Session

variable {s : Session} {framed : List Bytes} {numbers : List Nat}

theorem resendExhausted_iff {now : Nat} : (s.update now).health = .resendExhausted ↔
    s.isOver = false ∧ s.isTimedOut now = false ∧ (s.lookThrough now).exhausted = true := by
  rw [health_update]
  split_ifs with hclosed hleaving htimed hexhausted
  · simp [isOver, hclosed]
  · simp [isOver, hleaving]
  · simp [htimed]
  · simp [isOver, hclosed, hleaving, htimed, hexhausted]
  · simp [hexhausted]

/-- Of the datagrams that answer a packet those on the channels are the packets that it makes the session send again. -/
theorem channelled_react (hledger : Sender.Ledger framed s.sender)
    (hlength : numbers.length = s.sender.unacked.length) (now : Nat) (packet : Packet) :
    channelled (s.react now packet).sent =
      ((s.stays now numbers packet).filter fun entry => packet.recalls entry.2).map fun entry => entry.2.data := by
  cases packet with
  | outOfOrder sequence =>
    have hchannel : ∀ out ∈ (s.react now (.outOfOrder sequence)).sent, Packet.OnChannel out.packet := by
      intro out hout
      obtain ⟨packet, hpacket, rfl⟩ := List.mem_map.1 hout
      apply hledger.onChannel
      exact hledger.mem_framed ((Sender.outOfOrder_sublist sequence now s.sender).subset hpacket)
    rw [channelled_eq_self hchannel]
    simp only [react, Sender.outOfOrder, stays]
    rw [map_packet_outbound, ← map_snd_flight hlength, List.filter_map, List.filter_map, List.map_map]
    rfl
  | _ =>
    rw [channelled_answers (isAnswer_react now s (by simp))]
    simp [Packet.recalls]

/-- The sendings on the way through packets from the peer are the datagrams on the channels. -/
theorem stamp_track (hledger : Sender.Ledger framed s.sender) (hlength : numbers.length = s.sender.unacked.length)
    (hnumbered : Numbered framed (s.flight numbers)) (now : Nat) (packets : List Packet) :
    (s.track now numbers packets).again.map (Sending.stamp framed) =
      stampAt now (channelled (s.reactAll now packets).sent) := by
  induction packets generalizing s numbers with
  | nil => rfl
  | cons packet packets ih =>
    have hkept := stays_sublist now s numbers packet
    have hfirst : (sentAgain now packet.recalls (s.stays now numbers packet)).map (Sending.stamp framed) =
        stampAt now (channelled (s.react now packet).sent) := by
      rw [channelled_react hledger hlength]
      apply hnumbered.stamp_sendingsAt
      exact (List.filter_sublist.trans hkept).subset
    have hkeeps := keeps_react now s packet
    have hlength' : ((s.stays now numbers packet).map Prod.fst).length =
        (s.react now packet).session.sender.unacked.length := by
      rw [unacked_react hlength, List.length_map, List.length_map]
    have hnumbered' := hnumbered.sendAgain hkept now packet.recalls
    rw [← flight_react hlength] at hnumbered'
    have hrest := ih (hledger.of_sublist hkeeps.next hkeeps.unacked) hlength' hnumbered'
    simp only [track, reactAll]
    cases (s.react now packet).result with
    | error v => exact hfirst
    | ok messages =>
      rw [List.map_append, hfirst, hrest, channelled_append]
      exact List.map_append.symm

theorem channelled_acknowledgement (s : Session) : channelled [s.acknowledgement] = [] := by
  apply channelled_answers
  intro out hout
  rw [List.mem_singleton.1 hout]
  exact Packet.isAnswer_append (by decide) _

/-- The datagrams on the channels that answer a datagram come from its packets. -/
theorem channelled_handle (codec : Codec) (now : Nat) (seed : UInt32) (datagram : Bytes) (s : Session) :
    channelled (s.handle codec now seed datagram).sent =
      channelled ((s.touched now).reactAll now (s.taken codec datagram)).sent := by
  obtain ⟨htaken, hcase | hcase | ⟨request, hcase⟩⟩ | ⟨-, packet, htaken, hcase⟩ :=
    handle_taken_cases codec now seed datagram s
  · rw [htaken, hcase]
    rfl
  · rw [htaken, hcase]
    rfl
  · rw [htaken, hcase]
    apply channelled_answers
    intro out hout
    simp only [greet, SessionRequest.response, List.append_assoc] at hout
    rw [List.mem_singleton.1 hout]
    exact Packet.isAnswer_append (by decide) _
  · have htouched : ({ s.awake with lastActivity := now } : Session) = s.touched now := rfl
    rw [hcase, ← htaken, receive, htouched]
    split
    · rfl
    · split
      · rw [channelled_append, channelled_acknowledgement, List.append_nil]
      · rfl

/-- The time of a call. -/
def Event.time? : Event → Option Nat
  | .update now => some now
  | .handle now _ _ => some now
  | _ => none

namespace History

/-- The datagrams on the channels that a call sends, with its time. -/
def transmitted (codec : Codec) (h : History) (event : Event) : List (Option Nat × Bytes) :=
  (channelled ((h.step codec event).sent.drop h.sent.length)).map fun packet => (event.time?, packet)

/-- The datagrams on the channels that a list of calls sends, with their times. -/
def transmissions (codec : Codec) (h : History) : List Event → List (Option Nat × Bytes)
  | [] => []
  | event :: events => h.transmitted codec event ++ (h.step codec event).transmissions codec events

/-- Every call of a run is as a condition asks. -/
def Throughout (codec : Codec) (C : History → Event → Prop) : History → List Event → Prop
  | _, [] => True
  | h, event :: events => C h event ∧ (h.step codec event).Throughout codec C events

end History

namespace Logbook

variable {config : ProtocolConfig} {b : Logbook}

/-- The sendings with their times and packets. -/
def stamps (b : Logbook) : List (Option Nat × Option Bytes) := b.sendings.map (Sending.stamp b.framed)

theorem transmitted_of_sent {codec : Codec} {h : History} {event : Event} (sent : List Outbound)
    (hsent : (h.step codec event).sent = h.sent ++ sent) :
    h.transmitted codec event = (channelled sent).map fun packet => (event.time?, packet) := by
  rw [History.transmitted, hsent, List.drop_left]

/-- A maintenance pass that flushes sends again what is due, in order, and then what it frames. -/
theorem sent_update (hlength : b.numbers.length = b.session.sender.unacked.length) {now : Nat}
    (halive : (b.session.update now).health = .alive) :
    (b.session.update now).sent =
      ((b.flight.filter fun entry => b.session.isDue now entry.2).map (fun entry => entry.2.data) ++
        b.session.framed now).map b.session.outbound := by
  obtain ⟨-, -, hexhausted⟩ := alive_iff.1 halive
  obtain ⟨-, -, hgaveUp, -⟩ | ⟨-, hframed, hupdate⟩ := update_cases now b.session
  · exact absurd halive hgaveUp
  rw [hframed, hupdate, (lookThrough_of_not_exhausted hexhausted).2, ← map_snd_flight hlength, List.filter_map,
    List.map_map]
  rfl

/-- What a maintenance pass sends are the sendings that it enters. -/
theorem Follows.stamps_update (hfollows : b.Follows config) (codec : Codec) (now : Nat) :
    (b.step codec (.update now)).stamps = b.stamps ++ stampAt now (channelled (b.session.update now).sent) := by
  rw [channelled_eq_self (History.onChannel_update hfollows.sound.ledger now)]
  by_cases halive : (b.session.update now).health = .alive
  · have hnumbered := hfollows.numbered.append_fresh now (b.session.framed now)
    have hold := Sending.map_stamp_append hfollows.listed.number_lt (b.session.framed now)
    have hagain : (sentAgain now (b.session.isDue now) b.flight).map
          (Sending.stamp (b.framed ++ b.session.framed now)) =
        stampAt now ((b.flight.filter fun entry => b.session.isDue now entry.2).map fun entry => entry.2.data) := by
      apply hnumbered.stamp_sendingsAt
      intro entry hentry
      exact List.mem_append_left _ (List.mem_of_mem_filter hentry)
    have hnew := hnumbered.stamp_sendingsAt (List.subset_append_right _ _) now
    rw [map_data_freshFlight] at hnew
    have hframed : (b.step codec (.update now)).framed = b.framed ++ b.session.framed now := rfl
    rw [sent_update hfollows.length halive, map_packet_outbound, stamps, hframed, sendings_flushed codec halive,
      List.map_append, List.map_append, hold, hagain, hnew, List.append_assoc]
    exact congrArg (b.stamps ++ ·) List.map_append.symm
  · have hnothing : b.session.framed now = [] := if_neg halive
    have hframed : (b.step codec (.update now)).framed = b.framed := by
      simp only [Logbook.step, History.step, hnothing, List.append_nil]
    have hsendings : (b.step codec (.update now)).sendings = b.sendings := by
      simp only [Logbook.step, overdue, if_neg halive, hnothing, freshFlight, sendingsAt, List.zipIdx_nil,
        List.map_nil, List.append_nil]
    obtain ⟨-, hnone, -, -⟩ | ⟨-, -, hs⟩ := update_cases now b.session
    · rw [stamps, hframed, hsendings, hnone]
      exact (List.append_nil _).symm
    · exact absurd (congrArg Tick.health hs) halive

theorem Follows.stamps_handle (hfollows : b.Follows config) (codec : Codec) (now : Nat) (seed : UInt32)
    (datagram : Bytes) :
    (b.step codec (.handle now seed datagram)).stamps =
      b.stamps ++ stampAt now (channelled (b.session.handle codec now seed datagram).sent) := by
  have htouched : (b.session.touched now).sender = b.session.sender := sender_awake b.session
  have hnumbered : Numbered b.framed ((b.session.touched now).flight b.numbers) := by
    rw [Session.flight, htouched]
    exact hfollows.numbered
  have htrack := stamp_track (htouched ▸ hfollows.sound.ledger) (htouched ▸ hfollows.length) hnumbered now
    (b.session.taken codec datagram)
  rw [channelled_handle, ← htrack]
  exact List.map_append

/-- The sendings of a call are the datagrams on the channels. -/
theorem Follows.stamps_step (hfollows : b.Follows config) (codec : Codec) (event : Event) :
    (b.step codec event).stamps =
      b.stamps ++ (b.toHistory.transmitted codec event).map fun x => (x.1, some x.2) := by
  have hsilent : ∀ sent, (b.toHistory.step codec event).sent = b.sent ++ sent →
      (∀ out ∈ sent, ¬ Packet.OnChannel out.packet) → (b.step codec event).framed = b.framed →
      (b.step codec event).sendings = b.sendings → (b.step codec event).stamps =
        b.stamps ++ (b.toHistory.transmitted codec event).map fun x => (x.1, some x.2) := by
    intro sent hsent hnone hframed hsendings
    rw [stamps, hframed, hsendings, transmitted_of_sent sent hsent, channelled_eq_nil hnone]
    exact (List.append_nil _).symm
  cases event with
  | queue message => exact hsilent [] (List.append_nil _).symm (by simp) rfl rfl
  | connect accountId playerId => exact hsilent [] (List.append_nil _).symm (by simp) rfl rfl
  | finish => exact hsilent [] (List.append_nil _).symm (by simp) rfl rfl
  | close reason =>
    apply hsilent _ rfl _ rfl rfl
    intro out hout
    unfold Session.close at hout
    split at hout
    · cases hout
    · rw [List.mem_singleton.1 hout]
      exact Packet.not_onChannel_farewell b.session.connectionId reason
  | handle now seed datagram =>
    rw [transmitted_of_sent (b.session.handle codec now seed datagram).sent rfl, List.map_map]
    exact hfollows.stamps_handle codec now seed datagram
  | update now =>
    rw [transmitted_of_sent (b.session.update now).sent rfl, List.map_map]
    exact hfollows.stamps_update codec now

/-- The sendings of a run are the datagrams on the channels, in order. -/
theorem Follows.stamps_run (hfollows : b.Follows config) (codec : Codec) (events : List Event) :
    (b.run codec events).stamps =
      b.stamps ++ (b.toHistory.transmissions codec events).map fun x => (x.1, some x.2) := by
  induction events generalizing b with
  | nil => exact (List.append_nil _).symm
  | cons event events ih =>
    have hrest := ih (hfollows.step codec event)
    rw [hfollows.stamps_step, toHistory_step, List.append_assoc, ← List.map_append] at hrest
    exact hrest

/-! ## Runs whose maintenance passes do not give up -/

/-- A maintenance pass flushes, or leaves the session as it was. -/
def Settled (h : History) : Event → Prop
  | .update now => (h.session.update now).health = .alive ∨ (h.session.update now).session = h.session
  | _ => True

theorem flight_of_settled {codec : Codec} {now : Nat} (halive : (b.session.update now).health ≠ .alive)
    (hsession : (b.session.update now).session = b.session) : (b.step codec (.update now)).flight = b.flight := by
  have hstep : (b.step codec (.update now)).session = b.session := hsession
  rw [flight, numbers_gaveUp halive, hstep]
  rfl

/-- The books stay in order along settled calls. -/
theorem carries_booked (codec : Codec) {event : Event} (hsettled : Settled b.toHistory event) :
    Carries codec b event Booked where
  release := fun hkept h => ⟨(carries_listed codec b event).release hkept h.listed, h.accounted.release hkept⟩
  pass := fun _ hkept h => ⟨h.listed.pass hkept _ _, h.accounted.pass hkept h.listed.numbered.increasing _ _⟩
  fresh := fun packets _ h => ⟨h.listed.fresh _ packets, h.accounted.fresh h.listed _ packets⟩
  gaveUp := by
    rintro now rfl halive h
    rw [flight_of_settled halive (hsettled.resolve_left halive)]
    exact h

theorem booked_start (endpoint : Endpoint) (config : ProtocolConfig) (now : Nat) :
    Booked (start endpoint config now).framed (start endpoint config now).flight
      (start endpoint config now).sendings where
  listed := (follows_start endpoint config now).listed
  accounted := by
    intro entry hentry
    cases hentry

/-- A maintenance pass does not give up. -/
def StaysAlive (h : History) : Event → Prop
  | .update now => (h.session.update now).health = .alive
  | _ => True

theorem settled_of_staysAlive {h : History} {event : Event} (halive : StaysAlive h event) : Settled h event := by
  cases event with
  | update now => exact Or.inl halive
  | _ => trivial

theorem Follows.booked_run (hfollows : b.Follows config) {codec : Codec} {events : List Event}
    (halive : b.toHistory.Throughout codec StaysAlive events) (h : Booked b.framed b.flight b.sendings) :
    Booked (b.run codec events).framed (b.run codec events).flight (b.run codec events).sendings := by
  induction events generalizing b with
  | nil => exact h
  | cons event events ih =>
    obtain ⟨hfirst, hrest⟩ := halive
    rw [← toHistory_step] at hrest
    obtain ⟨-, hstep⟩ :=
      (carries_booked codec (settled_of_staysAlive hfirst)).step hfollows.sound.ledger.next hfollows.length h
    exact ih (hfollows.step codec event) hrest hstep

/-- The packet of a number was sent for the last time at least a delay ago. -/
def isOverdue (delay now : Nat) (sendings : List Sending) (number : Nat) : Bool :=
  (sentTimes sendings number).getLast?.any fun last => delay ≤ now - last

theorem isOverdue_eq_isDue {flight : List (Nat × SentPacket)} {sendings : List Sending}
    (h : Accounted flight sendings) {entry : Nat × SentPacket} (hentry : entry ∈ flight) (delay now : Nat) :
    isOverdue delay now sendings entry.1 = Sender.isDue delay now entry.2 := by
  obtain ⟨earlier, htimes, -⟩ := h entry hentry
  rw [isOverdue, htimes, List.getLast?_concat]
  rfl

theorem length_sentTimes {flight : List (Nat × SentPacket)} {sendings : List Sending} (h : Accounted flight sendings)
    {entry : Nat × SentPacket} (hentry : entry ∈ flight) (hbound : (sentTimes sendings entry.1).length ≤ 4294967296) :
    (sentTimes sendings entry.1).length = entry.2.resends.toNat + 1 ∧
      (sentTimes sendings entry.1).getLast? = some entry.2.sentAt := by
  obtain ⟨earlier, htimes, hresends⟩ := h entry hentry
  rw [htimes, List.length_append, List.length_singleton] at hbound ⊢
  rw [hresends, UInt32.toNat_ofNat_of_lt' (Nat.lt_of_succ_le hbound), List.getLast?_concat]
  exact ⟨rfl, rfl⟩

/-- A maintenance pass that does not give up sends again what is overdue. -/
theorem Follows.sent_overdue (hfollows : b.Follows config) (hbooks : Accounted b.flight b.sendings) {now : Nat}
    (halive : (b.session.update now).health = .alive) :
    (b.session.update now).sent =
      ((b.flight.filter fun entry => isOverdue config.resendDelayMs.toNat now b.sendings entry.1).map
        (fun entry => entry.2.data) ++ b.session.framed now).map b.session.outbound := by
  have hagain : (b.flight.filter fun entry => isOverdue config.resendDelayMs.toNat now b.sendings entry.1) =
      b.flight.filter fun entry => b.session.isDue now entry.2 := by
    apply List.filter_congr
    intro entry hentry
    rw [isOverdue_eq_isDue hbooks hentry, isDue, hfollows.sound.config_eq]
  rw [sent_update hfollows.length halive, hagain]

/-- A maintenance pass gives up exactly on a packet that is overdue and was sent again as often as is allowed. -/
theorem Follows.exhausted_iff_overdue (hfollows : b.Follows config) (hbooks : Accounted b.flight b.sendings)
    (hbound : ∀ number, (sentTimes b.sendings number).length ≤ 4294967296) (now : Nat) :
    (b.session.lookThrough now).exhausted = true ↔ ∃ entry ∈ b.flight,
      isOverdue config.resendDelayMs.toNat now b.sendings entry.1 = true ∧
        config.maxResends.toNat ≤ (sentTimes b.sendings entry.1).length - 1 := by
  calc
    (b.session.lookThrough now).exhausted = true ↔ ∃ entry ∈ b.flight,
        Sender.isDue config.resendDelayMs.toNat now entry.2 = true ∧ config.maxResends ≤ entry.2.resends := by
      rw [lookThrough, Sender.exhausted_iff, ← map_snd_flight hfollows.length, hfollows.sound.config_eq]
      simp only [List.mem_map, exists_exists_and_eq_and]
      rfl
    _ ↔ _ := by
      apply exists_congr
      intro entry
      apply and_congr_right
      intro hentry
      rw [isOverdue_eq_isDue hbooks hentry, (length_sentTimes hbooks hentry (hbound entry.1)).1, Nat.add_sub_cancel,
        UInt32.le_iff_toNat_le]

/-- Along maintenance passes that do not give up, where no packet is sent more than `2 ^ 32` times: the sendings of
the logbook are the datagrams on the channels with their times, in order; a packet in flight counts its sendings but the
first and knows the last; a maintenance pass that does not give up sends again, once each and in order, exactly the
packets in flight whose last sending is at least the resend delay ago, and then what it frames; and one of a session
that is neither shutting down nor timed out gives up exactly when such a packet was sent again as often as is
allowed. -/
theorem resends_counted (codec : Codec) (endpoint : Endpoint) (config : ProtocolConfig) (created : Nat)
    (events : List Event)
    (halive : (History.start endpoint config created).Throughout codec StaysAlive events)
    (hbound : ∀ number,
      (sentTimes ((start endpoint config created).run codec events).sendings number).length ≤ 4294967296) :
    let b := (start endpoint config created).run codec events
    let s := b.session
    let overdue := fun now number => isOverdue config.resendDelayMs.toNat now b.sendings number
    b.toHistory = (History.start endpoint config created).run codec events ∧
    b.flight.map Prod.snd = s.sender.unacked ∧
    (b.flight.Pairwise fun entry entry' => entry.1 < entry'.1) ∧
    (∀ entry ∈ b.flight, b.framed[entry.1]? = some entry.2.data ∧ entry.2.sequence = UInt16.ofNat entry.1) ∧
    ((History.start endpoint config created).transmissions codec events).map (fun x => (x.1, some x.2)) =
      b.sendings.map (fun x => (some x.time, b.framed[x.number]?)) ∧
    (∀ entry ∈ b.flight, (sentTimes b.sendings entry.1).length = entry.2.resends.toNat + 1 ∧
      (sentTimes b.sendings entry.1).getLast? = some entry.2.sentAt) ∧
    ∀ now,
      ((s.update now).health = .alive → ∃ new,
        (b.toHistory.step codec (.update now)).framed = b.framed ++ new ∧
        (s.update now).sent =
          ((b.flight.filter fun entry => overdue now entry.1).map (fun entry => entry.2.data) ++ new).map s.outbound) ∧
      (s.isOver = false → s.isTimedOut now = false →
        ((s.update now).health = .resendExhausted ↔ ∃ entry ∈ b.flight,
          overdue now entry.1 = true ∧ config.maxResends.toNat ≤ (sentTimes b.sendings entry.1).length - 1)) := by
  intro b s overdue
  have hstart := follows_start endpoint config created
  have hfollows : b.Follows config := hstart.run codec events
  have hbooked : Booked b.framed b.flight b.sendings :=
    hstart.booked_run halive (booked_start endpoint config created)
  have hbooks := hbooked.accounted
  refine ⟨toHistory_run codec _ events, map_snd_flight hfollows.length, hfollows.numbered.increasing,
    hfollows.numbered.place, (hstart.stamps_run codec events).symm, ?_, ?_⟩
  · intro entry hentry
    exact length_sentTimes hbooks hentry (hbound entry.1)
  · intro now
    refine ⟨fun hpass => ⟨s.framed now, rfl, hfollows.sent_overdue hbooks hpass⟩, ?_⟩
    intro hopen htimed
    calc
      (s.update now).health = .resendExhausted ↔ (s.lookThrough now).exhausted = true := by
        rw [resendExhausted_iff]
        exact ⟨fun h => h.2.2, fun h => ⟨hopen, htimed, h⟩⟩
      _ ↔ _ := hfollows.exhausted_iff_overdue hbooks hbound now

/-- Two packets, the first of which was sent again as often as is allowed and is due once more. -/
theorem resends_counted_exhausted :
    let codec : Codec := ⟨fun _ => none, fun _ _ => none⟩
    let config : ProtocolConfig := { resendDelayMs := 10, maxResends := 2 }
    let events : List Event := [.queue [1], .update 0, .queue [2], .update 4, .update 10, .update 20]
    let b := (start ⟨.v4 127 0 0 1, 20260⟩ config 0).run codec events
    (History.start ⟨.v4 127 0 0 1, 20260⟩ config 0).Throughout codec StaysAlive events ∧
    (∀ number, (sentTimes b.sendings number).length ≤ 4294967296) ∧
    b.flight = [(0, ⟨0, [0, 9, 0, 0, 1], 20, 2⟩), (1, ⟨1, [0, 9, 0, 1, 2], 20, 1⟩)] ∧
    sentTimes b.sendings 0 = [0, 10, 20] ∧ (b.session.update 30).health = .resendExhausted := by
  intro codec config events b
  have halive : (History.start ⟨.v4 127 0 0 1, 20260⟩ config 0).Throughout codec StaysAlive events :=
    ⟨trivial, by cbv, trivial, by cbv, by cbv, by cbv, trivial⟩
  have hsendings : b.sendings = [⟨0, 0⟩, ⟨1, 4⟩, ⟨0, 10⟩, ⟨0, 20⟩, ⟨1, 20⟩] := by cbv
  have hflight : b.flight = [(0, ⟨0, [0, 9, 0, 0, 1], 20, 2⟩), (1, ⟨1, [0, 9, 0, 1, 2], 20, 1⟩)] := by cbv
  have hbound : ∀ number, (sentTimes b.sendings number).length ≤ 4294967296 := by
    intro number
    apply Nat.le_trans (length_sentTimes_le b.sendings number)
    rw [hsendings]
    decide
  obtain ⟨-, -, -, -, -, -, hpasses⟩ := resends_counted codec ⟨.v4 127 0 0 1, 20260⟩ config 0 events halive hbound
  refine ⟨halive, hbound, hflight, by rw [hsendings]; decide, ?_⟩
  apply ((hpasses 30).2 (by cbv) (by cbv)).2
  refine ⟨(0, ⟨0, [0, 9, 0, 0, 1], 20, 2⟩), ?_, ?_⟩
  · exact hflight ▸ List.mem_cons_self
  · change isOverdue _ _ b.sendings _ = true ∧ _ ≤ (sentTimes b.sendings _).length - 1
    rw [hsendings]
    decide

end Logbook

end Session

end GameGateway
