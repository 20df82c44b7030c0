import GameGateway.Proofs.Retransmission

/-!
# Giving up

A maintenance pass that gives up in the middle of the packets in flight has changed nothing: no packet before the one
that it gives up on was due. This is so because of the order of the packets in flight, in which none was sent again less
often than one behind it, and of two that were sent again equally often the first was sent no later. Flushes,
maintenance passes and reports keep this order while the clock does not go back and reports name framed packets within
half a circle: `Logbook.carries_patient`.

## Implementation notes

The order is kept in terms of how often a packet was sent, which grows without bound, and read off the counters of the
packets only where these have not gone around.
-/

namespace GameGateway

/-! ## The order of the packets in flight -/

/-- A packet was sent more often than another, or as often and for the last time no later. -/
def Outranks (sendings : List Sending) (entry entry' : Nat × SentPacket) : Prop :=
  (sentTimes sendings entry'.1).length < (sentTimes sendings entry.1).length ∨
    (sentTimes sendings entry.1).length = (sentTimes sendings entry'.1).length ∧ entry.2.sentAt ≤ entry'.2.sentAt

/-- Sending packets again never overtakes: where one is due, so is every packet before it, unless that was sent more
often. -/
def InTurn (flight : List (Nat × SentPacket)) (sendings : List Sending) (due : SentPacket → Bool) : Prop :=
  ∀ entry ∈ flight, ∀ entry' ∈ flight, entry.1 < entry'.1 → Outranks sendings entry entry' → due entry'.2 = true →
    due entry.2 = true ∨ (sentTimes sendings entry'.1).length < (sentTimes sendings entry.1).length

theorem inTurn_isDue (flight : List (Nat × SentPacket)) (sendings : List Sending) (delay now : Nat) :
    InTurn flight sendings (Sender.isDue delay now) := by
  intro entry _ entry' _ _ houtranks hdue
  rcases houtranks with hmore | ⟨-, hlater⟩
  · exact Or.inr hmore
  · left
    simp only [Sender.isDue, decide_eq_true_eq] at hdue ⊢
    omega

theorem length_sentTimes_sentAgain (sendings : List Sending) {kept : List (Nat × SentPacket)}
    (h : kept.Pairwise fun entry entry' => entry.1 < entry'.1) {entry : Nat × SentPacket} (hentry : entry ∈ kept)
    (now : Nat) (due : SentPacket → Bool) :
    (sentTimes (sendings ++ sentAgain now due kept) entry.1).length =
      (sentTimes sendings entry.1).length + if due entry.2 then 1 else 0 := by
  rw [sentTimes_append, List.length_append, sentTimes_sentAgain h hentry]
  split
  · rfl
  · rfl

variable {framed : List Bytes} {flight kept : List (Nat × SentPacket)} {sendings : List Sending} {now : Nat}

/-- A pass keeps the order when it sends in turn and not before anything that was sent. -/
theorem ranked_pass {due : SentPacket → Bool} (hkept : kept.Sublist flight)
    (hincreasing : flight.Pairwise fun entry entry' => entry.1 < entry'.1)
    (hranked : flight.Pairwise (Outranks sendings)) (hpast : ∀ entry ∈ flight, entry.2.sentAt ≤ now)
    (hturn : InTurn flight sendings due) :
    (kept.map (sendAgain now due)).Pairwise (Outranks (sendings ++ sentAgain now due kept)) := by
  rw [List.pairwise_map]
  have hkeptIncreasing := hincreasing.sublist hkept
  apply ((hincreasing.and hranked).sublist hkept).imp_of_mem
  rintro entry entry' hentry hentry' ⟨hlt, houtranks⟩
  have hcount := length_sentTimes_sentAgain sendings hkeptIncreasing hentry now due
  have hcount' := length_sentTimes_sentAgain sendings hkeptIncreasing hentry' now due
  have hcalled := hturn entry (hkept.subset hentry) entry' (hkept.subset hentry') hlt houtranks
  have hbefore := hpast entry (hkept.subset hentry)
  simp only [Outranks, sendAgain] at houtranks ⊢
  rw [hcount, hcount']
  cases hdue : due entry.2 with
  | true =>
    cases hdue' : due entry'.2 with
    | true =>
      simp only [if_true, Sender.resent]
      omega
    | false =>
      simp only [if_true, Bool.false_eq_true, if_false]
      omega
  | false =>
    cases hdue' : due entry'.2 with
    | true =>
      -- the one behind catches up at most, and is then the one that was sent last
      have hmore := (hcalled hdue').resolve_left (by rw [hdue]; decide)
      simp only [if_true, Bool.false_eq_true, if_false, Sender.resent]
      omega
    | false =>
      simp only [Bool.false_eq_true, if_false]
      omega

/-- Packets that were just framed come last. -/
theorem ranked_fresh (hbooked : Booked framed flight sendings) (hranked : flight.Pairwise (Outranks sendings))
    (hpast : ∀ entry ∈ flight, entry.2.sentAt ≤ now) (packets : List Bytes) :
    (flight ++ freshFlight now framed.length packets).Pairwise
      (Outranks (sendings ++ sendingsAt now (freshFlight now framed.length packets))) := by
  have hold : ∀ entry ∈ flight,
      sentTimes (sendings ++ sendingsAt now (freshFlight now framed.length packets)) entry.1 =
        sentTimes sendings entry.1 := by
    intro entry hentry
    rw [sentTimes_append, sentTimes_fresh_of_lt (hbooked.listed.numbered.lt_length hentry), List.append_nil]
  have hnew : ∀ entry ∈ freshFlight now framed.length packets,
      (sentTimes (sendings ++ sendingsAt now (freshFlight now framed.length packets))
        entry.1).length = 1 ∧ entry.2.sentAt = now := by
    intro entry hentry
    rw [sentTimes_append_fresh hbooked.listed hentry]
    obtain ⟨i, packet, -, rfl⟩ := mem_freshFlight.1 hentry
    exact ⟨rfl, rfl⟩
  rw [List.pairwise_append]
  refine ⟨?_, ?_, ?_⟩
  · apply hranked.imp_of_mem
    intro entry entry' hentry hentry' houtranks
    rw [Outranks, hold entry hentry, hold entry' hentry']
    exact houtranks
  · apply (increasing_freshFlight now framed.length packets).imp_of_mem
    intro entry entry' hentry hentry' _
    obtain ⟨hcount, htime⟩ := hnew entry hentry
    obtain ⟨hcount', htime'⟩ := hnew entry' hentry'
    exact Or.inr ⟨hcount.trans hcount'.symm, Nat.le_of_eq (htime.trans htime'.symm)⟩
  · intro entry hentry entry' hentry'
    obtain ⟨hcount', htime'⟩ := hnew entry' hentry'
    obtain ⟨earlier, htimes, -⟩ := hbooked.accounted entry hentry
    have hbefore := hpast entry hentry
    rw [Outranks, hold entry hentry, hcount', htimes, List.length_append, List.length_singleton, htime']
    omega

/-! ## What the counters say -/

/-- Of two packets the first was sent again more often, or as often and for the last time no later. -/
def Precedes (p q : SentPacket) : Prop := q.resends < p.resends ∨ p.resends = q.resends ∧ p.sentAt ≤ q.sentAt

instance : DecidableRel Precedes := fun p q =>
  inferInstanceAs (Decidable (q.resends < p.resends ∨ p.resends = q.resends ∧ p.sentAt ≤ q.sentAt))

theorem precedes_of_outranks {entry entry' : Nat × SentPacket} (h : Outranks sendings entry entry')
    (hcount : (sentTimes sendings entry.1).length = entry.2.resends.toNat + 1)
    (hcount' : (sentTimes sendings entry'.1).length = entry'.2.resends.toNat + 1) : Precedes entry.2 entry'.2 := by
  rw [Outranks, hcount, hcount'] at h
  rcases h with hmore | ⟨hsame, hlater⟩
  · exact Or.inl (UInt32.lt_iff_toNat_lt.2 (Nat.lt_of_succ_lt_succ hmore))
  · exact Or.inr ⟨UInt32.toNat_inj.1 (Nat.succ.inj hsame), hlater⟩

theorem Precedes.resends_le {p q : SentPacket} (h : Precedes p q) : q.resends ≤ p.resends := by
  rcases h with hmore | ⟨hsame, -⟩
  · exact UInt32.le_of_lt hmore
  · rw [hsame]
    exact UInt32.le_refl _

/-- Nothing before the first packet that may not be sent again is due: it would not be the first. -/
theorem Sender.packets_of_exhausted {delay now : Nat} {limit : UInt32} {packets : List SentPacket}
    (horder : packets.Pairwise Precedes) (h : (resend delay now limit packets).exhausted = true) :
    (resend delay now limit packets).packets = packets := by
  induction packets with
  | nil => rfl
  | cons p rest ih =>
    obtain ⟨hfirst, hrest⟩ := List.pairwise_cons.1 horder
    cases hdue : isDue delay now p with
    | true =>
      by_cases hlimit : limit ≤ p.resends
      · simp only [resend, hdue, hlimit, if_true]
      · simp only [resend, hdue, hlimit, if_true, if_false] at h
        obtain ⟨q, hq, -, hexceeded⟩ := exhausted_iff.1 h
        exact absurd (UInt32.le_trans hexceeded (hfirst q hq).resends_le) hlimit
    | false =>
      simp only [resend, hdue, Bool.false_eq_true, if_false] at h ⊢
      rw [ih hrest h]

namespace Session

/-- A maintenance pass that gives up leaves the session as it was and sends nothing. -/
theorem update_of_gaveUp {s : Session} (horder : s.sender.unacked.Pairwise Precedes)
    (h : (s.update now).health ≠ .alive) : (s.update now).session = s ∧ (s.update now).sent = [] := by
  have hlooked : (s.lookThrough now).exhausted = true → s.looked now = s.sender := by
    intro hexhausted
    rw [looked, lookThrough, Sender.packets_of_exhausted horder hexhausted]
  unfold update at h ⊢
  dsimp only at h ⊢
  split_ifs at h ⊢ with hclosed hleaving htimed hexhausted
  · exact ⟨rfl, rfl⟩
  · exact ⟨rfl, rfl⟩
  · exact ⟨rfl, rfl⟩
  · rw [hlooked hexhausted]
    exact ⟨rfl, rfl⟩
  · exact absurd rfl h

/-- A call brings no report but of packets that were framed. -/
def NamesFramed (codec : Codec) (h : History) : Event → Prop
  | .handle _ _ datagram => ∀ sequence, Packet.outOfOrder sequence ∈ h.session.taken codec datagram →
      ∃ number, number < h.framed.length ∧ sequence = UInt16.ofNat number
  | _ => True

namespace History

theorem sent_prefix_step (codec : Codec) (h : History) (event : Event) : h.sent <+: (h.step codec event).sent := by
  cases event with
  | close reason => exact List.prefix_append _ _
  | update now => exact List.prefix_append _ _
  | handle now seed datagram => exact List.prefix_append _ _
  | _ => exact List.prefix_refl _

/-- All datagrams on the channels were sent by some call. -/
theorem channelled_run (codec : Codec) (h : History) (events : List Event) :
    channelled (h.run codec events).sent = channelled h.sent ++ (h.transmissions codec events).map Prod.snd := by
  induction events generalizing h with
  | nil => exact (List.append_nil _).symm
  | cons event events ih =>
    obtain ⟨sent, hsent⟩ := sent_prefix_step codec h event
    have hrest := ih (h.step codec event)
    rw [← hsent, channelled_append] at hrest
    have hpackets : (h.transmitted codec event).map Prod.snd = channelled sent := by
      rw [Logbook.transmitted_of_sent sent hsent.symm, List.map_map]
      exact List.map_id _
    rw [transmissions, List.map_append, hpackets, ← List.append_assoc]
    exact hrest

end History

namespace Logbook

variable {config : ProtocolConfig} {codec : Codec} {b : Logbook} {event : Event} {events : List Event}

/-- No packet in flight was sent later than any of some times. -/
def Past (times : List Nat) (flight : List (Nat × SentPacket)) : Prop :=
  ∀ entry ∈ flight, ∀ time ∈ times, entry.2.sentAt ≤ time

/-- The books are in order and so are the packets in flight, before some times. -/
structure Patient (times : List Nat) (framed : List Bytes) (flight : List (Nat × SentPacket))
    (sendings : List Sending) : Prop where
  booked : Booked framed flight sendings
  ranked : flight.Pairwise (Outranks sendings)
  past : Past times flight

theorem Past.sendAgain {times : List Nat} {flight kept : List (Nat × SentPacket)} (h : Past times flight)
    (hkept : kept.Sublist flight) (hnow : ∀ time ∈ times, now ≤ time) (due : SentPacket → Bool) :
    Past times (kept.map (sendAgain now due)) := by
  intro entry' hentry' time htime
  obtain ⟨entry, hentry, rfl⟩ := List.mem_map.1 hentry'
  simp only [GameGateway.sendAgain]
  split
  · exact hnow time htime
  · exact h entry (hkept.subset hentry) time htime

theorem Past.fresh {times : List Nat} {flight : List (Nat × SentPacket)} (h : Past times flight)
    (hnow : ∀ time ∈ times, now ≤ time) (start : Nat) (packets : List Bytes) :
    Past times (flight ++ freshFlight now start packets) := by
  intro entry hentry time htime
  rcases List.mem_append.1 hentry with hold | hnew
  · exact h entry hold time htime
  · obtain ⟨i, packet, -, rfl⟩ := mem_freshFlight.1 hnew
    exact hnow time htime

theorem time?_of_recalls {due : SentPacket → Bool} (h : b.Recalls codec now due event) : event.time? = some now := by
  cases event with
  | update time => exact congrArg some h.1
  | handle time seed datagram => exact congrArg some h.1
  | _ => cases h

/-- A call sends packets again in turn. -/
theorem inTurn_of_recalls (hnamed : NamesFramed codec b.toHistory event) (hframed : b.framed.length ≤ 32768)
    {due : SentPacket → Bool} (hrecalls : b.Recalls codec now due event) {flight : List (Nat × SentPacket)}
    (hnumbered : Numbered b.framed flight) (sendings : List Sending) : InTurn flight sendings due := by
  cases event with
  | update time =>
    obtain ⟨rfl, rfl⟩ := hrecalls
    exact inTurn_isDue flight sendings _ time
  | handle time seed datagram =>
    obtain ⟨rfl, packet, hpacket, rfl⟩ := hrecalls
    cases packet with
    | outOfOrder sequence =>
      obtain ⟨number, hlt, rfl⟩ := hnamed sequence hpacket
      have hnear : Near b.framed flight number := ⟨fun _ _ => by omega, hlt, by omega⟩
      intro entry hentry entry' hentry' hbefore _ hdue'
      have hdue : Sender.isBefore (UInt16.ofNat number) entry'.2 = true := hdue'
      rw [hnear.isBefore hnumbered hentry', decide_eq_true_iff] at hdue
      left
      rw [Packet.recalls, hnear.isBefore hnumbered hentry, decide_eq_true_iff]
      exact Nat.lt_trans hbefore hdue
    | _ =>
      intro entry _ entry' _ _ _ hdue
      cases hdue
  | _ => cases hrecalls

/-- Calls whose times do not go back keep the order, along with the books. -/
theorem carries_patient (hnamed : NamesFramed codec b.toHistory event) (hframed : b.framed.length ≤ 32768)
    (hsettled : Settled b.toHistory event) {times : List Nat}
    (hclock : ∀ now, event.time? = some now → now ∈ times ∧ ∀ time ∈ times, now ≤ time) :
    Carries codec b event (Patient times) where
  release := by
    intro flight kept sendings hkept h
    exact ⟨(carries_booked codec hsettled).release hkept h.booked, h.ranked.sublist hkept,
      fun entry hentry => h.past entry (hkept.subset hentry)⟩
  pass := by
    intro now due flight kept sendings hrecalls hkept h
    have hnumbered := h.booked.listed.numbered
    obtain ⟨hmem, hnow⟩ := hclock now (time?_of_recalls hrecalls)
    have hturn := inTurn_of_recalls hnamed hframed hrecalls hnumbered sendings
    constructor
    · exact (carries_booked codec hsettled).pass hrecalls hkept h.booked
    · exact ranked_pass hkept hnumbered.increasing h.ranked (fun entry hentry => h.past entry hentry now hmem) hturn
    · exact h.past.sendAgain hkept hnow due
  fresh := by
    rintro now flight sendings packets rfl h
    obtain ⟨hmem, hnow⟩ := hclock now rfl
    constructor
    · exact (carries_booked codec hsettled).fresh packets rfl h.booked
    · exact ranked_fresh h.booked h.ranked (fun entry hentry => h.past entry hentry now hmem) packets
    · exact h.past.fresh hnow b.framed.length packets
  gaveUp := by
    rintro now rfl halive h
    rw [flight_of_settled halive (hsettled.resolve_left halive)]
    exact h

theorem Patient.precedes {times : List Nat} (h : Patient times b.framed b.flight b.sendings)
    (hfollows : b.Follows config) (hbound : ∀ number, (sentTimes b.sendings number).length ≤ 4294967296) :
    b.session.sender.unacked.Pairwise Precedes := by
  rw [← map_snd_flight hfollows.length, List.pairwise_map]
  apply h.ranked.imp_of_mem
  intro entry entry' hentry hentry' houtranks
  exact precedes_of_outranks houtranks (length_sentTimes h.booked.accounted hentry (hbound entry.1)).1
    (length_sentTimes h.booked.accounted hentry' (hbound entry'.1)).1

theorem settled_of_precedes {h : History} (horder : h.session.sender.unacked.Pairwise Precedes) (event : Event) :
    Settled h event := by
  cases event with
  | update now =>
    by_cases halive : (h.session.update now).health = .alive
    · exact Or.inl halive
    · exact Or.inr (update_of_gaveUp horder halive).1
  | _ => trivial

/-- A logbook forgets nothing. -/
theorem prefix_run (codec : Codec) (b : Logbook) (events : List Event) :
    b.framed <+: (b.run codec events).framed ∧ b.sendings <+: (b.run codec events).sendings := by
  induction events generalizing b with
  | nil => exact ⟨List.prefix_refl _, List.prefix_refl _⟩
  | cons event events ih =>
    obtain ⟨hframed, hsendings⟩ := ih (b.step codec event)
    have hstep : b.framed <+: (b.step codec event).framed ∧ b.sendings <+: (b.step codec event).sendings := by
      cases event with
      | update now =>
        refine ⟨List.prefix_append _ _, ?_⟩
        exact (List.prefix_append _ _).trans (List.prefix_append _ _)
      | handle now seed datagram => exact ⟨List.prefix_refl _, List.prefix_append _ _⟩
      | _ => exact ⟨List.prefix_refl _, List.prefix_refl _⟩
    exact ⟨hstep.1.trans hframed, hstep.2.trans hsendings⟩

theorem length_sentTimes_mono {sendings sendings' : List Sending} (h : sendings <+: sendings') (number : Nat) :
    (sentTimes sendings number).length ≤ (sentTimes sendings' number).length :=
  ((h.sublist.filter _).map _).length_le

theorem patient_start (endpoint : Endpoint) (config : ProtocolConfig) (now : Nat) (times : List Nat) :
    Patient times (start endpoint config now).framed (start endpoint config now).flight
      (start endpoint config now).sendings where
  booked := booked_start endpoint config now
  ranked := List.Pairwise.nil
  past := by
    intro entry hentry
    cases hentry

theorem time_le_of_clock (hclock : ((event :: events).filterMap Event.time?).Pairwise (· ≤ ·)) {now : Nat}
    (htime : event.time? = some now) : now ∈ (event :: events).filterMap Event.time? ∧
      ∀ time ∈ (event :: events).filterMap Event.time?, now ≤ time := by
  rw [List.filterMap_cons_some htime] at hclock ⊢
  refine ⟨List.mem_cons_self, ?_⟩
  intro time hmem
  rcases List.mem_cons.1 hmem with rfl | hlater
  · exact Nat.le_refl _
  · exact (List.pairwise_cons.1 hclock).1 time hlater

/-- A run keeps the order, as long as what it ends with is within the bounds. -/
theorem Patient.run (h : Patient (events.filterMap Event.time?) b.framed b.flight b.sendings)
    (hfollows : b.Follows config) (hnamed : b.toHistory.Throughout codec (NamesFramed codec) events)
    (hframed : (b.run codec events).framed.length ≤ 32768)
    (hbound : ∀ number, (sentTimes (b.run codec events).sendings number).length ≤ 4294967296)
    (hclock : (events.filterMap Event.time?).Pairwise (· ≤ ·)) :
    Patient [] (b.run codec events).framed (b.run codec events).flight (b.run codec events).sendings := by
  induction events generalizing b with
  | nil => exact h
  | cons event events ih =>
    obtain ⟨hfirst, hrest⟩ := hnamed
    obtain ⟨hgrown, hlogged⟩ := prefix_run codec b (event :: events)
    have hbound' : ∀ number, (sentTimes b.sendings number).length ≤ 4294967296 :=
      fun number => Nat.le_trans (length_sentTimes_mono hlogged number) (hbound number)
    have hsettled := settled_of_precedes (h.precedes hfollows hbound') event
    have hcarries := carries_patient hfirst (Nat.le_trans hgrown.length_le hframed) hsettled fun now htime =>
      time_le_of_clock hclock htime
    obtain ⟨-, hstep⟩ := hcarries.step hfollows.sound.ledger.next hfollows.length h
    have hbehind : (events.filterMap Event.time?).Sublist ((event :: events).filterMap Event.time?) :=
      (List.sublist_cons_self event events).filterMap _
    rw [← toHistory_step] at hrest
    apply ih _ (hfollows.step codec event) hrest hframed hbound (hclock.sublist hbehind)
    refine ⟨hstep.booked, hstep.ranked, ?_⟩
    exact fun entry hentry time htime => hstep.past entry hentry time (hbehind.subset htime)

/-- The packets of all sendings are the datagrams on the channels. -/
theorem map_snd_stamps (codec : Codec) (endpoint : Endpoint) (config : ProtocolConfig) (created : Nat)
    (events : List Event) :
    let b := (start endpoint config created).run codec events
    b.stamps.map Prod.snd = (channelled b.sent).map some := by
  intro b
  have hstamps : b.stamps =
      ((History.start endpoint config created).transmissions codec events).map fun x => (x.1, some x.2) :=
    (follows_start endpoint config created).stamps_run codec events
  have hsent : channelled b.sent =
      ((History.start endpoint config created).transmissions codec events).map Prod.snd := by
    rw [toHistory_run codec (start endpoint config created) events]
    exact History.channelled_run codec _ events
  rw [hstamps, hsent, List.map_map, List.map_map]
  rfl

/-- A packet was sent no more often than it is among what was sent. -/
theorem length_sentTimes_le_count (hstamps : b.stamps.map Prod.snd = (channelled b.sent).map some) {number : Nat}
    {packet : Bytes} (hpacket : b.framed[number]? = some packet) :
    (sentTimes b.sendings number).length ≤ (b.sent.map Outbound.packet).count packet := by
  calc
    (sentTimes b.sendings number).length = b.sendings.countP fun x => decide (x.number = number) := by
      rw [sentTimes, List.length_map, List.countP_eq_length_filter]
    _ ≤ b.sendings.countP fun x => b.framed[x.number]? == some packet := by
      apply List.countP_mono_left
      intro x _ hx
      rw [of_decide_eq_true hx, hpacket]
      exact beq_self_eq_true _
    _ = (b.stamps.map Prod.snd).count (some packet) := by
      rw [stamps, List.map_map, List.count, List.countP_map]
      rfl
    _ = (channelled b.sent).count packet := by
      rw [hstamps]
      exact List.count_map_of_injective _ some (Option.some_injective _) packet
    _ ≤ (b.sent.map Outbound.packet).count packet := List.filter_sublist.count_le packet

theorem Follows.length_sentTimes_le (hfollows : b.Follows config)
    (hstamps : b.stamps.map Prod.snd = (channelled b.sent).map some) {bound : Nat}
    (hcount : ∀ packet ∈ b.framed, (b.sent.map Outbound.packet).count packet ≤ bound) (number : Nat) :
    (sentTimes b.sendings number).length ≤ bound := by
  cases hpacket : b.framed[number]? with
  | some packet =>
    exact Nat.le_trans (length_sentTimes_le_count hstamps hpacket) (hcount packet (List.mem_of_getElem? hpacket))
  | none =>
    rw [sentTimes_eq_nil]
    · exact Nat.zero_le _
    · intro x hx
      exact Nat.ne_of_lt (Nat.lt_of_lt_of_le (hfollows.listed.number_lt x hx) (List.getElem?_eq_none_iff.1 hpacket))

end Logbook

namespace History

/-- In every run whose clock does not go back, in which at most `2 ^ 15` packets are framed, none of them is sent more
than `2 ^ 32` times, and every report names a framed packet: of two packets in flight the first was sent again more
often, or as often and for the last time no later; and a maintenance pass that gives up leaves the session exactly as it
was and sends nothing. -/
theorem giving_up_changes_nothing (codec : Codec) (endpoint : Endpoint) (config : ProtocolConfig) (created : Nat)
    (events : List Event) (hclock : (events.filterMap Event.time?).Pairwise (· ≤ ·))
    (hframed : ((start endpoint config created).run codec events).framed.length ≤ 32768)
    (hcount : ∀ packet ∈ ((start endpoint config created).run codec events).framed,
      (((start endpoint config created).run codec events).sent.map Outbound.packet).count packet ≤ 4294967296)
    (hnamed : (start endpoint config created).Throughout codec (NamesFramed codec) events) :
    let s := ((start endpoint config created).run codec events).session
    s.sender.unacked.Pairwise
      (fun p q => q.resends < p.resends ∨ p.resends = q.resends ∧ p.sentAt ≤ q.sentAt) ∧
    ∀ now, (s.update now).health ≠ .alive → (s.update now).session = s ∧ (s.update now).sent = [] := by
  intro s
  have hstart := Logbook.follows_start endpoint config created
  let b := (Logbook.start endpoint config created).run codec events
  have hhistory : b.toHistory = (start endpoint config created).run codec events :=
    Logbook.toHistory_run codec (Logbook.start endpoint config created) events
  have hsession : b.session = s := congrArg History.session hhistory
  rw [← hhistory] at hframed hcount
  have hfollows : b.Follows config := hstart.run codec events
  have hstamps := Logbook.map_snd_stamps codec endpoint config created events
  have hbound : ∀ number, (sentTimes b.sendings number).length ≤ 4294967296 :=
    hfollows.length_sentTimes_le hstamps hcount
  have hpatient := (Logbook.patient_start endpoint config created _).run hstart hnamed hframed hbound hclock
  have horder : s.sender.unacked.Pairwise Precedes := hsession ▸ hpatient.precedes hfollows hbound
  exact ⟨horder, fun now hgaveUp => update_of_gaveUp horder hgaveUp⟩

/-- Two packets that were sent again, the first of them as often as is allowed. It is given up on again and again. -/
theorem giving_up_changes_nothing_exhausted :
    let codec : Codec := ⟨fun _ => none, fun _ _ => none⟩
    let config : ProtocolConfig := { resendDelayMs := 10, maxResends := 2 }
    let events : List Event := [.queue [1], .update 0, .queue [2], .update 4, .update 10, .update 20, .update 30]
    let h := (start ⟨.v4 127 0 0 1, 20260⟩ config 0).run codec events
    (events.filterMap Event.time?).Pairwise (· ≤ ·) ∧ h.framed.length ≤ 32768 ∧
    (∀ packet ∈ h.framed, (h.sent.map Outbound.packet).count packet ≤ 4294967296) ∧
    (start ⟨.v4 127 0 0 1, 20260⟩ config 0).Throughout codec (NamesFramed codec) events ∧
    h.session.sender.unacked = [⟨0, [0, 9, 0, 0, 1], 20, 2⟩, ⟨1, [0, 9, 0, 1, 2], 20, 1⟩] ∧
    (h.session.update 40).health = .resendExhausted ∧ (h.session.update 40).session = h.session ∧
    (h.session.update 40).sent = [] := by
  intro codec config events h
  have hclock : (events.filterMap Event.time?).Pairwise (· ≤ ·) := by decide
  have hframed : h.framed.length ≤ 32768 := by
    have hlength : h.framed.length = 2 := by cbv
    rw [hlength]
    decide
  have hcount : ∀ packet ∈ h.framed, (h.sent.map Outbound.packet).count packet ≤ 4294967296 := by
    intro packet _
    have hlength : (h.sent.map Outbound.packet).length = 5 := by cbv
    apply Nat.le_trans List.count_le_length
    rw [hlength]
    decide
  have hnamed : (start ⟨.v4 127 0 0 1, 20260⟩ config 0).Throughout codec (NamesFramed codec) events :=
    ⟨trivial, trivial, trivial, trivial, trivial, trivial, trivial, trivial⟩
  have hexhausted : (h.session.update 40).health = .resendExhausted := by cbv
  have hgaveUp : (h.session.update 40).health ≠ .alive := by
    rw [hexhausted]
    decide
  obtain ⟨-, hsame⟩ := giving_up_changes_nothing codec ⟨.v4 127 0 0 1, 20260⟩ config 0 events hclock hframed hcount
    hnamed
  exact ⟨hclock, hframed, hcount, hnamed, by cbv, hexhausted, hsame 40 hgaveUp⟩

end History

end Session

end GameGateway
