import GameGateway.Proofs.Lifecycle
import GameGateway.Proofs.Wrapping

/-!
# Packets in flight by number

The packets that a session frames are numbered 0, 1, 2 and so on, without bound; on the wire a number is taken modulo
`2 ^ 16`. `Logbook` carries the numbers of the packets in flight along with a history, and every sending of a numbered
packet with its time. In every run the numbers in flight ascend, and each packet in flight is the framed packet of its
number (`Logbook.Follows.run`). While the numbers in flight span at most half a circle, a notice does what it says about
numbers: `Logbook.notices_by_number`.

## Implementation notes

A session cannot tell two packets apart whose numbers are a circle apart, and a peer that reports every other packet
can bring both into flight at once. The numbers are therefore not read off the session. They follow the list of packets
in flight: what leaves it at the front takes its numbers along, a report takes a packet out of the middle, and a flush
appends the numbers of what it frames.
-/

namespace GameGateway

/-- The packet of a number was sent. -/
structure Sending where
  number : Nat
  time : Nat
  deriving DecidableEq, Repr

/-- Whether a packet from the peer makes a session send a packet in flight again. -/
def Packet.recalls : Packet → SentPacket → Bool
  | .outOfOrder sequence, p => Sender.isBefore sequence p
  | _, _ => false

/-- A packet in flight, with its number, behind one more chance to be sent again. -/
def sendAgain (now : Nat) (due : SentPacket → Bool) (entry : Nat × SentPacket) : Nat × SentPacket :=
  (entry.1, if due entry.2 then Sender.resent now entry.2 else entry.2)

/-- The number of a packet in flight, with what stays the same when it is sent again. -/
def flightTag (entry : Nat × SentPacket) : Nat × UInt16 × Bytes := (entry.1, entry.2.key)

theorem flightTag_sendAgain (now : Nat) (due : SentPacket → Bool) (entry : Nat × SentPacket) :
    flightTag (sendAgain now due entry) = flightTag entry := by
  unfold sendAgain
  split
  · rfl
  · rfl

/-- Packets in flight under their numbers. -/
structure Numbered (framed : List Bytes) (flight : List (Nat × SentPacket)) : Prop where
  increasing : flight.Pairwise fun entry entry' => entry.1 < entry'.1
  place : ∀ entry ∈ flight, framed[entry.1]? = some entry.2.data ∧ entry.2.sequence = UInt16.ofNat entry.1

namespace Numbered

variable {framed packets : List Bytes} {flight flight' : List (Nat × SentPacket)}

/-- Packets that are released or sent again keep their numbers. -/
theorem of_sublist (h : Numbered framed flight) (htags : (flight'.map flightTag).Sublist (flight.map flightTag)) :
    Numbered framed flight' where
  increasing := by
    have hall : (flight.map flightTag).Pairwise fun tag tag' => tag.1 < tag'.1 := List.pairwise_map.2 h.increasing
    have hsome := hall.sublist htags
    rw [List.pairwise_map] at hsome
    exact hsome
  place := by
    intro entry hentry
    obtain ⟨old, hold, htag⟩ := List.mem_map.1 (htags.subset (List.mem_map_of_mem hentry))
    obtain ⟨hnumber, hkey⟩ : old.1 = entry.1 ∧ old.2.key = entry.2.key := Prod.mk.inj htag
    obtain ⟨hsequence, hdata⟩ : old.2.sequence = entry.2.sequence ∧ old.2.data = entry.2.data := Prod.mk.inj hkey
    rw [← hnumber, ← hsequence, ← hdata]
    exact h.place old hold

theorem sendAgain (h : Numbered framed flight) {kept : List (Nat × SentPacket)} (hkept : kept.Sublist flight)
    (now : Nat) (due : SentPacket → Bool) : Numbered framed (kept.map (GameGateway.sendAgain now due)) := by
  have htags : (kept.map (GameGateway.sendAgain now due)).map flightTag = kept.map flightTag := by
    rw [List.map_map]
    apply List.map_congr_left
    intro entry _
    exact flightTag_sendAgain now due entry
  apply h.of_sublist
  rw [htags]
  exact hkept.map flightTag

theorem le_of_head (h : Numbered framed flight) {bound : Nat}
    (holdest : ∀ oldest ∈ flight.head?, framed.length ≤ oldest.1 + bound) :
    ∀ entry ∈ flight, framed.length ≤ entry.1 + bound := by
  intro entry hentry
  cases flight with
  | nil => cases hentry
  | cons oldest rest =>
    have hfirst := holdest oldest rfl
    rcases List.mem_cons.1 hentry with rfl | hrest
    · exact hfirst
    · have hlt := (List.pairwise_cons.1 h.increasing).1 entry hrest
      omega

theorem lt_length (h : Numbered framed flight) {entry : Nat × SentPacket} (hentry : entry ∈ flight) :
    entry.1 < framed.length :=
  (List.getElem?_eq_some_iff.1 (h.place entry hentry).1).1

end Numbered

/-! ## Notices within half a circle -/

section Near

variable {framed : List Bytes} {flight : List (Nat × SentPacket)} {number : Nat}

theorem dropWhile_eq_filter {α : Type} {p : α → Bool} {l : List α} (h : l.Pairwise fun a b => p b = true → p a = true) :
    l.dropWhile p = l.filter fun a => !p a := by
  induction l with
  | nil => rfl
  | cons a l ih =>
    obtain ⟨hfirst, hrest⟩ := List.pairwise_cons.1 h
    cases ha : p a with
    | true => simp only [List.dropWhile_cons_of_pos ha, List.filter_cons, ha, Bool.not_true, Bool.false_eq_true,
        if_false, ih hrest]
    | false =>
      have hall : ∀ b ∈ a :: l, (!p b) = true := by
        intro b hb
        rcases List.mem_cons.1 hb with rfl | hb
        · rw [ha]
          rfl
        · cases hpb : p b with
          | false => rfl
          | true => exact absurd (hfirst b hb hpb) (by rw [ha]; decide)
      rw [List.dropWhile_cons_of_neg (by rw [ha]; decide), List.filter_eq_self.2 hall]

/-- The numbers of a flight and the number of a notice span at most half a circle. -/
structure Near (framed : List Bytes) (flight : List (Nat × SentPacket)) (number : Nat) : Prop where
  flight : ∀ entry ∈ flight, framed.length ≤ entry.1 + 32768
  lt : number < framed.length
  le : framed.length ≤ number + 32768

/-- The sequence number of a notice is as far from a packet in flight as its number. -/
theorem Near.distance (hnear : Near framed flight number) (h : Numbered framed flight) {entry : Nat × SentPacket}
    (hentry : entry ∈ flight) :
    Sequence.distance entry.2.sequence (UInt16.ofNat number) = (number : Int) - entry.1 := by
  have hlt := h.lt_length hentry
  have hle := hnear.flight entry hentry
  have hnumber := hnear.lt
  have hreach := hnear.le
  rw [(h.place entry hentry).2]
  exact Sequence.distance_ofNat (by omega) (by omega)

theorem Near.isBefore (hnear : Near framed flight number) (h : Numbered framed flight) {entry : Nat × SentPacket}
    (hentry : entry ∈ flight) : Sender.isBefore (UInt16.ofNat number) entry.2 = decide (entry.1 < number) := by
  rw [Sender.isBefore, hnear.distance h hentry]
  exact decide_eq_decide.2 (by omega)

theorem Near.sequence_bne (hnear : Near framed flight number) (h : Numbered framed flight) {entry : Nat × SentPacket}
    (hentry : entry ∈ flight) : (entry.2.sequence != UInt16.ofNat number) = decide (entry.1 ≠ number) := by
  have hlt := h.lt_length hentry
  have hle := hnear.flight entry hentry
  have hnumber := hnear.lt
  have hreach := hnear.le
  rw [Bool.eq_iff_iff, bne_iff_ne, decide_eq_true_iff, (h.place entry hentry).2]
  exact not_congr (Sequence.ofNat_inj_of_near (by omega) (by omega))

/-- An acknowledgement releases all numbers up to its own. -/
theorem Near.acknowledge (hnear : Near framed flight number) (h : Numbered framed flight) {s : Sender}
    (hflight : flight.map Prod.snd = s.unacked) :
    (s.acknowledge (UInt16.ofNat number)).unacked = (flight.filter fun entry => number < entry.1).map Prod.snd := by
  have hprefix : flight.Pairwise fun entry entry' =>
      decide (0 ≤ Sequence.distance entry'.2.sequence (UInt16.ofNat number)) = true →
        decide (0 ≤ Sequence.distance entry.2.sequence (UInt16.ofNat number)) = true := by
    apply h.increasing.imp_of_mem
    intro entry entry' hentry hentry' hlt
    rw [hnear.distance h hentry, hnear.distance h hentry', decide_eq_true_iff, decide_eq_true_iff]
    omega
  rw [Sender.acknowledge, ← hflight, List.dropWhile_map]
  simp only [Function.comp_def]
  rw [dropWhile_eq_filter hprefix]
  apply congrArg
  apply List.filter_congr
  intro entry hentry
  rw [hnear.distance h hentry, ← decide_not]
  exact decide_eq_decide.2 (by omega)

/-- A report releases its own number and sends all smaller ones again. -/
theorem Near.outOfOrder (hnear : Near framed flight number) (h : Numbered framed flight) {s : Sender}
    (hflight : flight.map Prod.snd = s.unacked) (now : Nat) :
    s.outOfOrder (UInt16.ofNat number) now =
      ({ s with
          unacked := (flight.filter fun entry => entry.1 ≠ number).map fun entry =>
            if entry.1 < number then Sender.resent now entry.2 else entry.2 },
        (flight.filter fun entry => entry.1 < number).map fun entry => entry.2.data) := by
  have hkept : s.unacked.filter (fun p => p.sequence != UInt16.ofNat number) =
      (flight.filter fun entry => entry.1 ≠ number).map Prod.snd := by
    rw [← hflight, List.filter_map]
    apply congrArg
    apply List.filter_congr
    intro entry hentry
    exact hnear.sequence_bne h hentry
  have hmem : ∀ {entry}, entry ∈ flight.filter (fun entry => entry.1 ≠ number) → entry ∈ flight :=
    fun hentry => List.mem_of_mem_filter hentry
  have hagain : ((flight.filter fun entry => entry.1 ≠ number).map Prod.snd).filter
        (Sender.isBefore (UInt16.ofNat number)) =
      (flight.filter fun entry => entry.1 < number).map Prod.snd := by
    rw [List.filter_map]
    apply congrArg
    rw [List.filter_filter]
    apply List.filter_congr
    intro entry hentry
    rw [Function.comp_apply, hnear.isBefore h hentry, ← Bool.decide_and]
    exact decide_eq_decide.2 (by omega)
  simp only [Sender.outOfOrder, hkept, hagain, List.map_map]
  refine Prod.ext ?_ rfl
  simp only [Sender.mk.injEq, true_and]
  apply List.map_congr_left
  intro entry hentry
  rw [Function.comp_apply, hnear.isBefore h (hmem hentry)]
  simp only [decide_eq_true_eq]

end Near

/-! ## Passes and flushes -/

/-- The sendings of some packets. -/
def sendingsAt (now : Nat) (entries : List (Nat × SentPacket)) : List Sending := entries.map fun entry => ⟨entry.1, now⟩

/-- The sendings again of the packets that stay in flight. -/
def sentAgain (now : Nat) (due : SentPacket → Bool) (kept : List (Nat × SentPacket)) : List Sending :=
  sendingsAt now (kept.filter fun entry => due entry.2)

/-- Packets in flight as they were framed, numbered from a start on. -/
def freshFlight (now start : Nat) (packets : List Bytes) : List (Nat × SentPacket) :=
  (packets.zipIdx start).map fun entry => (entry.2, ⟨UInt16.ofNat entry.2, entry.1, now, 0⟩)

theorem map_fst_freshFlight (now start : Nat) (packets : List Bytes) :
    (freshFlight now start packets).map Prod.fst = List.range' start packets.length := by
  rw [freshFlight, List.map_map]
  exact List.zipIdx_map_snd start packets

theorem map_data_freshFlight (now start : Nat) (packets : List Bytes) :
    (freshFlight now start packets).map (fun entry => entry.2.data) = packets := by
  rw [freshFlight, List.map_map]
  exact List.zipIdx_map_fst start packets

theorem increasing_freshFlight (now start : Nat) (packets : List Bytes) :
    (freshFlight now start packets).Pairwise fun entry entry' => entry.1 < entry'.1 := by
  have hnumbers : ((freshFlight now start packets).map Prod.fst).Pairwise (· < ·) := by
    rw [map_fst_freshFlight]
    exact List.pairwise_lt_range'
  exact List.pairwise_map.1 hnumbers

theorem mem_freshFlight {now start : Nat} {packets : List Bytes} {entry : Nat × SentPacket} :
    entry ∈ freshFlight now start packets ↔
      ∃ i packet, packets[i]? = some packet ∧
        entry = (start + i, ⟨UInt16.ofNat (start + i), packet, now, 0⟩) := by
  simp only [freshFlight, List.mem_map, Prod.exists, List.mk_mem_zipIdx_iff_le_and_getElem?_sub]
  constructor
  · rintro ⟨packet, n, ⟨hle, hpacket⟩, rfl⟩
    refine ⟨n - start, packet, hpacket, ?_⟩
    rw [Nat.add_sub_cancel' hle]
  · rintro ⟨i, packet, hpacket, rfl⟩
    refine ⟨packet, start + i, ⟨Nat.le_add_right start i, ?_⟩, rfl⟩
    rw [Nat.add_sub_cancel_left]
    exact hpacket

namespace Sender

variable {s s' : Sender} {now n : Nat} {packets : List Bytes}

theorem frame_fresh (hnext : s.next = UInt16.ofNat n) (channel : Channel) (payload : Bytes) (now : Nat)
    (packets : List Bytes) :
    (s.frame channel payload now).next = UInt16.ofNat (n + 1) ∧
      s.unacked ++ (freshFlight now n (s.packet channel payload :: packets)).map Prod.snd =
        (s.frame channel payload now).unacked ++ (freshFlight now (n + 1) packets).map Prod.snd := by
  constructor
  · rw [UInt16.ofNat_add, ← hnext]
    rfl
  · rw [frame, hnext, List.append_assoc]
    rfl

/-- What a flush frames goes into flight under the next numbers. -/
theorem Flushes.unacked_fresh {budget window : Nat} (hf : Flushes budget window now s packets s')
    (hnext : s.next = UInt16.ofNat n) : s'.unacked = s.unacked ++ (freshFlight now n packets).map Prod.snd := by
  induction hf generalizing n with
  | done s => exact (List.append_nil _).symm
  | @fragment s s' fragment fragments packets room waiting tail ih =>
    obtain ⟨hframed, hfresh⟩ := frame_fresh (s := { s with fragments }) hnext .fragment fragment now packets
    exact (ih hframed).trans hfresh.symm
  | @bundle s s' group queued packets payload room idle front fits pack tail ih =>
    obtain ⟨hframed, hfresh⟩ := frame_fresh (s := { s with queued }) hnext .data payload now packets
    exact (ih hframed).trans hfresh.symm
  | loseGroup room idle front fits pack tail ih => exact ih hnext
  | cut room idle front large split tail ih => exact ih hnext
  | loseMessage room idle front large split tail ih => exact ih hnext

end Sender

theorem Numbered.append_fresh {framed : List Bytes} {flight : List (Nat × SentPacket)} (h : Numbered framed flight)
    (now : Nat) (packets : List Bytes) :
    Numbered (framed ++ packets) (flight ++ freshFlight now framed.length packets) where
  increasing := by
    rw [List.pairwise_append]
    refine ⟨h.increasing, increasing_freshFlight now _ packets, ?_⟩
    intro entry hentry entry' hentry'
    obtain ⟨i, packet, -, rfl⟩ := mem_freshFlight.1 hentry'
    exact Nat.lt_of_lt_of_le (h.lt_length hentry) (Nat.le_add_right _ i)
  place := by
    intro entry hentry
    rcases List.mem_append.1 hentry with hold | hnew
    · obtain ⟨hplace, hsequence⟩ := h.place entry hold
      exact ⟨List.getElem?_append_left (h.lt_length hold) ▸ hplace, hsequence⟩
    · obtain ⟨i, packet, hpacket, rfl⟩ := mem_freshFlight.1 hnew
      refine ⟨?_, rfl⟩
      rw [List.getElem?_append_right (Nat.le_add_right _ i), Nat.add_sub_cancel_left]
      exact hpacket

/-- Packets in flight under their numbers, and sendings of framed packets. -/
structure Listed (framed : List Bytes) (flight : List (Nat × SentPacket)) (sendings : List Sending) : Prop where
  numbered : Numbered framed flight
  number_lt : ∀ x ∈ sendings, x.number < framed.length

namespace Listed

variable {framed : List Bytes} {flight kept : List (Nat × SentPacket)} {sendings : List Sending}

theorem pass (h : Listed framed flight sendings) (hkept : kept.Sublist flight) (now : Nat) (due : SentPacket → Bool) :
    Listed framed (kept.map (sendAgain now due)) (sendings ++ sentAgain now due kept) where
  numbered := h.numbered.sendAgain hkept now due
  number_lt := by
    intro x hx
    rcases List.mem_append.1 hx with hold | hnew
    · exact h.number_lt x hold
    · obtain ⟨entry, hentry, rfl⟩ := List.mem_map.1 hnew
      exact h.numbered.lt_length (hkept.subset (List.mem_of_mem_filter hentry))

theorem fresh (h : Listed framed flight sendings) (now : Nat) (packets : List Bytes) :
    Listed (framed ++ packets) (flight ++ freshFlight now framed.length packets)
      (sendings ++ sendingsAt now (freshFlight now framed.length packets)) where
  numbered := h.numbered.append_fresh now packets
  number_lt := by
    intro x hx
    rcases List.mem_append.1 hx with hold | hnew
    · rw [List.length_append]
      exact Nat.lt_add_right _ (h.number_lt x hold)
    · obtain ⟨entry, hentry, rfl⟩ := List.mem_map.1 hnew
      exact (h.numbered.append_fresh now packets).lt_length (List.mem_append_right _ hentry)

end Listed

/-- Where no packet was due too often, all that are due are sent again. -/
theorem Sender.resend_of_not_exhausted {delay now : Nat} {limit : UInt32} {packets : List SentPacket}
    (h : (resend delay now limit packets).exhausted = false) :
    (resend delay now limit packets).packets = packets.map (fun p => if isDue delay now p then resent now p else p) ∧
      (resend delay now limit packets).due = (packets.filter (isDue delay now)).map SentPacket.data := by
  induction packets with
  | nil => exact ⟨rfl, rfl⟩
  | cons p rest ih =>
    cases hdue : isDue delay now p with
    | true =>
      by_cases hlimit : limit ≤ p.resends
      · simp [resend, hdue, hlimit] at h
      · simp only [resend, hdue, hlimit, if_true, if_false] at h ⊢
        obtain ⟨hpackets, hagain⟩ := ih h
        simp [hpackets, hagain, hdue]
    | false =>
      simp only [resend, hdue, Bool.false_eq_true, if_false] at h ⊢
      obtain ⟨hpackets, hagain⟩ := ih h
      simp [hpackets, hagain, hdue]

namespace Session

variable {s : Session} {now : Nat} {numbers : List Nat}

/-- What a maintenance pass answers, from the first reason to the last. -/
theorem health_update (now : Nat) (s : Session) :
    (s.update now).health =
      if s.phase = .closed then .closed
      else if s.phase = .disconnecting then .disconnecting
      else if s.isTimedOut now then .timedOut
      else if (s.lookThrough now).exhausted then .resendExhausted
      else .alive := by
  unfold update
  dsimp only
  split_ifs <;> rfl

theorem alive_iff : (s.update now).health = .alive ↔
    s.isOver = false ∧ s.isTimedOut now = false ∧ (s.lookThrough now).exhausted = false := by
  rw [health_update]
  split_ifs with hclosed hleaving htimed hexhausted
  · simp [isOver, hclosed]
  · simp [isOver, hleaving]
  · simp [htimed]
  · simp [hexhausted]
  · simp [isOver, hclosed, hleaving, htimed, hexhausted]

/-- A maintenance pass that gives up leaves the packets in flight there. -/
theorem map_key_gaveUp (h : (s.update now).health ≠ .alive) :
    (s.update now).session.sender.unacked.map SentPacket.key = s.sender.unacked.map SentPacket.key := by
  obtain ⟨-, -, -, hs | hs⟩ | ⟨-, -, hs⟩ := update_cases now s
  · rw [hs]
  · rw [hs]
    exact Sender.map_key_resend _ now _ s.sender.unacked
  · exact absurd (congrArg Tick.health hs) h

/-- Whether a maintenance pass finds a packet in flight due. -/
def isDue (now : Nat) (s : Session) : SentPacket → Bool := Sender.isDue s.config.resendDelayMs.toNat now

/-- Where a maintenance pass does not give up, all that are due are sent again. -/
theorem lookThrough_of_not_exhausted (h : (s.lookThrough now).exhausted = false) :
    (s.lookThrough now).packets = s.sender.unacked.map (fun p => if s.isDue now p then Sender.resent now p else p) ∧
      (s.lookThrough now).due = (s.sender.unacked.filter (s.isDue now)).map SentPacket.data :=
  Sender.resend_of_not_exhausted h

/-! ## Following the packets in flight -/

/-- The packets in flight under their numbers. -/
def flight (s : Session) (numbers : List Nat) : List (Nat × SentPacket) := numbers.zip s.sender.unacked

theorem map_snd_flight (h : numbers.length = s.sender.unacked.length) :
    (s.flight numbers).map Prod.snd = s.sender.unacked :=
  List.map_snd_zip (Nat.le_of_eq h.symm)

/-- The numbers of what is released from the front go with it. -/
theorem zip_released {numbers : List Nat} {unacked unacked' : List SentPacket}
    (hlength : numbers.length = unacked.length) (hsuffix : unacked' <:+ unacked) :
    (numbers.drop (unacked.length - unacked'.length)).length = unacked'.length ∧
      (numbers.drop (unacked.length - unacked'.length)).zip unacked' =
        (numbers.zip unacked).drop (unacked.length - unacked'.length) := by
  constructor
  · rw [List.length_drop, hlength, Nat.sub_sub_self hsuffix.length_le]
  · have hdrop := List.suffix_iff_eq_drop.1 hsuffix
    calc
      (numbers.drop (unacked.length - unacked'.length)).zip unacked' =
          (numbers.drop (unacked.length - unacked'.length)).zip (unacked.drop (unacked.length - unacked'.length)) := by
        rw [← hdrop]
      _ = (numbers.zip unacked).drop (unacked.length - unacked'.length) := List.drop_zipWith.symm

/-- The packets in flight behind some that were released from the front. -/
theorem released {unacked : List SentPacket} (h : numbers.length = s.sender.unacked.length)
    (hsuffix : unacked <:+ s.sender.unacked) :
    unacked = ((s.flight numbers).drop (s.sender.unacked.length - unacked.length)).map Prod.snd := by
  rw [List.map_drop, map_snd_flight h]
  exact List.suffix_iff_eq_drop.1 hsuffix

/-- What a packet from the peer leaves of the packets in flight. A report takes a packet out of the middle; what all
other packets take they take from the front. -/
def stays (now : Nat) (s : Session) (numbers : List Nat) : Packet → List (Nat × SentPacket)
  | .outOfOrder sequence => (s.flight numbers).filter fun entry => entry.2.sequence != sequence
  | packet =>
    (s.flight numbers).drop (s.sender.unacked.length - (s.react now packet).session.sender.unacked.length)

theorem stays_sublist (now : Nat) (s : Session) (numbers : List Nat) (packet : Packet) :
    (s.stays now numbers packet).Sublist (s.flight numbers) := by
  cases packet with
  | outOfOrder sequence => exact List.filter_sublist
  | _ => exact List.drop_sublist _ _

theorem unacked_react (h : numbers.length = s.sender.unacked.length) (now : Nat) (packet : Packet) :
    (s.react now packet).session.sender.unacked =
      (s.stays now numbers packet).map fun entry => (sendAgain now packet.recalls entry).2 := by
  cases packet with
  | outOfOrder sequence =>
    simp only [react, stays, Sender.outOfOrder]
    rw [← map_snd_flight h, List.filter_map, List.map_map]
    rfl
  | acknowledge sequence => exact released h (List.dropWhile_suffix _)
  | disconnect connectionId =>
    apply released h
    simp only [react]
    split
    · exact List.nil_suffix
    · exact List.suffix_refl _
  | ping => exact released h (List.suffix_refl _)
  | sequenced channel sequence payload => exact released h (List.suffix_refl _)

/-- The numbers of the packets in flight behind packets from the peer, and what is sent again on the way. -/
structure Tracked where
  numbers : List Nat
  again : List Sending

/-- Follows the packets in flight through packets from the peer, up to the first violation. -/
def track (now : Nat) (s : Session) (numbers : List Nat) : List Packet → Tracked
  | [] => ⟨numbers, []⟩
  | packet :: packets =>
    let kept := s.stays now numbers packet
    let again := sentAgain now packet.recalls kept
    match (s.react now packet).result with
    | .error _ => ⟨kept.map Prod.fst, again⟩
    | .ok _ =>
      let rest := (s.react now packet).session.track now (kept.map Prod.fst) packets
      ⟨rest.numbers, again ++ rest.again⟩

theorem flight_react (h : numbers.length = s.sender.unacked.length) (now : Nat) (packet : Packet) :
    (s.react now packet).session.flight ((s.stays now numbers packet).map Prod.fst) =
      (s.stays now numbers packet).map (sendAgain now packet.recalls) := by
  rw [flight, unacked_react h]
  exact List.zip_map'

/-- What each packet from the peer carries over a list of them carries over. -/
theorem track_preserves {P : List (Nat × SentPacket) → List Sending → Prop} {packets : List Packet}
    (hpass : ∀ packet ∈ packets, ∀ {flight kept sendings}, kept.Sublist flight → P flight sendings →
      P (kept.map (sendAgain now packet.recalls)) (sendings ++ sentAgain now packet.recalls kept))
    (hlength : numbers.length = s.sender.unacked.length) {sendings : List Sending}
    (hP : P (s.flight numbers) sendings) :
    (s.track now numbers packets).numbers.length = (s.reactAll now packets).session.sender.unacked.length ∧
      P ((s.reactAll now packets).session.flight (s.track now numbers packets).numbers)
        (sendings ++ (s.track now numbers packets).again) := by
  induction packets generalizing s numbers sendings with
  | nil =>
    refine ⟨hlength, ?_⟩
    rw [track, List.append_nil]
    exact hP
  | cons packet packets ih =>
    have hkept : ((s.stays now numbers packet).map Prod.fst).length =
        (s.react now packet).session.sender.unacked.length := by
      rw [unacked_react hlength, List.length_map, List.length_map]
    have hfirst := hpass packet (List.mem_cons_self ..) (stays_sublist now s numbers packet) hP
    rw [← flight_react hlength] at hfirst
    simp only [track, reactAll]
    cases (s.react now packet).result with
    | error v => exact ⟨hkept, hfirst⟩
    | ok messages =>
      have hrest := ih (fun packet hpacket => hpass packet (List.mem_cons_of_mem _ hpacket)) hkept hfirst
      rw [List.append_assoc] at hrest
      exact hrest

/-- The sending side takes from a datagram what its packets do. -/
theorem sender_handle (codec : Codec) (now : Nat) (seed : UInt32) (datagram : Bytes) (s : Session) :
    (s.handle codec now seed datagram).session.sender =
      ((s.touched now).reactAll now (s.taken codec datagram)).session.sender := by
  obtain ⟨htaken, hcase | hcase | ⟨request, hcase⟩⟩ | ⟨-, packet, htaken, hcase⟩ :=
    handle_taken_cases codec now seed datagram s
  · rw [htaken, hcase]
    exact (sender_awake s).symm
  · rw [htaken, hcase]
    rfl
  · rw [htaken, hcase, sender_greet]
    rfl
  · have htouched : ({ s.awake with lastActivity := now } : Session) = s.touched now := rfl
    rw [hcase, ← htaken, receive, htouched]
    split
    · rfl
    · split
      · rfl
      · rfl

/-! ## Logbooks -/

/-- A history with the numbers of the packets in flight, and every sending of a framed packet. -/
structure Logbook extends History where
  numbers : List Nat := []
  sendings : List Sending := []

namespace Logbook

/-- The logbook of a session that was just created. -/
def start (endpoint : Endpoint) (config : ProtocolConfig) (now : Nat) : Logbook :=
  { toHistory := History.start endpoint config now }

/-- The packets in flight under their numbers. -/
def flight (b : Logbook) : List (Nat × SentPacket) := b.session.flight b.numbers

/-- The sendings again of a maintenance pass. -/
def overdue (b : Logbook) (now : Nat) : List Sending :=
  if (b.session.update now).health = .alive then
    sentAgain now (b.session.isDue now) b.flight
  else []

/-- The logbook after one more call. -/
def step (codec : Codec) (b : Logbook) (event : Event) : Logbook :=
  let h := b.toHistory.step codec event
  match event with
  | .update now =>
    let new := freshFlight now b.framed.length (b.session.framed now)
    { toHistory := h
      numbers := b.numbers ++ new.map Prod.fst
      sendings := b.sendings ++ b.overdue now ++ sendingsAt now new }
  | .handle now _ datagram =>
    let tracked := (b.session.touched now).track now b.numbers (b.session.taken codec datagram)
    { toHistory := h
      numbers := tracked.numbers
      sendings := b.sendings ++ tracked.again }
  | _ =>
    { toHistory := h
      numbers := b.numbers.drop (b.session.sender.unacked.length - h.session.sender.unacked.length)
      sendings := b.sendings }

/-- The logbook after a list of calls. -/
def run (codec : Codec) (b : Logbook) (events : List Event) : Logbook := events.foldl (step codec) b

theorem toHistory_step (codec : Codec) (b : Logbook) (event : Event) :
    (b.step codec event).toHistory = b.toHistory.step codec event := by
  cases event with
  | _ => rfl

/-- A logbook only adds to the history. -/
theorem toHistory_run (codec : Codec) (b : Logbook) (events : List Event) :
    (b.run codec events).toHistory = b.toHistory.run codec events := by
  induction events generalizing b with
  | nil => rfl
  | cons event events ih =>
    rw [History.run, List.foldl_cons, ← toHistory_step]
    exact ih _

/-- Where a call sends packets in flight again at a time: which of them. -/
def Recalls (codec : Codec) (b : Logbook) (now : Nat) (due : SentPacket → Bool) : Event → Prop
  | .update time => time = now ∧ due = b.session.isDue now
  | .handle time _ datagram => time = now ∧ ∃ packet ∈ b.session.taken codec datagram, due = packet.recalls
  | _ => False

/-- What has to hold for a call to keep a relation between the framed packets, those in flight and the sendings. -/
structure Carries (codec : Codec) (b : Logbook) (event : Event)
    (P : List Bytes → List (Nat × SentPacket) → List Sending → Prop) : Prop where
  release : ∀ {flight kept sendings}, kept.Sublist flight → P b.framed flight sendings → P b.framed kept sendings
  pass : ∀ {now due flight kept sendings}, b.Recalls codec now due event → kept.Sublist flight →
    P b.framed flight sendings →
    P b.framed (kept.map (sendAgain now due)) (sendings ++ sentAgain now due kept)
  fresh : ∀ {now flight sendings} (packets : List Bytes), event = .update now → P b.framed flight sendings →
    P (b.framed ++ packets) (flight ++ freshFlight now b.framed.length packets)
      (sendings ++ sendingsAt now (freshFlight now b.framed.length packets))
  gaveUp : ∀ {now}, event = .update now → (b.session.update now).health ≠ .alive →
    P b.framed b.flight b.sendings → P b.framed (b.step codec event).flight b.sendings

section Step

variable {codec : Codec} {b : Logbook} {event : Event}
  {P : List Bytes → List (Nat × SentPacket) → List Sending → Prop}

/-- Calls other than maintenance passes and datagrams release packets from the front at most. -/
theorem unacked_step_suffix (codec : Codec) (h : History) {event : Event} (hupdate : ∀ now, event ≠ .update now)
    (hhandle : ∀ now seed datagram, event ≠ .handle now seed datagram) :
    (h.step codec event).session.sender.unacked <:+ h.session.sender.unacked := by
  cases event with
  | queue message =>
    simp only [History.step, Session.queue]
    split
    · exact List.suffix_refl _
    · exact List.suffix_refl _
  | connect accountId playerId =>
    simp only [History.step, Session.connect]
    split
    · exact List.suffix_refl _
    · exact List.suffix_refl _
  | close reason =>
    simp only [History.step, Session.close]
    split
    · exact List.suffix_refl _
    · exact List.nil_suffix
  | update now => exact absurd rfl (hupdate now)
  | handle now seed datagram => exact absurd rfl (hhandle now seed datagram)
  | finish => exact List.nil_suffix

/-- A maintenance pass that flushes sends again what is due and puts what it frames behind it. -/
theorem flight_flushed (codec : Codec) {now : Nat} (hnext : b.session.sender.next = UInt16.ofNat b.framed.length)
    (hlength : b.numbers.length = b.session.sender.unacked.length) (halive : (b.session.update now).health = .alive) :
    (b.step codec (.update now)).numbers.length = (b.step codec (.update now)).session.sender.unacked.length ∧
      (b.step codec (.update now)).flight =
        b.flight.map (sendAgain now (b.session.isDue now)) ++
          freshFlight now b.framed.length (b.session.framed now) := by
  obtain ⟨-, -, hexhausted⟩ := alive_iff.1 halive
  obtain ⟨-, -, hgaveUp, -⟩ | ⟨-, hframed, hupdate⟩ := update_cases now b.session
  · exact absurd halive hgaveUp
  have hunacked : (b.step codec (.update now)).session.sender.unacked =
      b.session.sender.unacked.map (fun p => if b.session.isDue now p then Sender.resent now p else p) ++
        (freshFlight now b.framed.length (b.session.framed now)).map Prod.snd := by
    have hflushes := Sender.flush_flushes b.session.budget b.session.config.windowSize.toNat now (b.session.looked now)
    calc
      (b.step codec (.update now)).session.sender.unacked = (b.session.flushed now).1.unacked :=
        congrArg (fun tick : Tick => tick.session.sender.unacked) hupdate
      _ = (b.session.lookThrough now).packets ++
          (freshFlight now b.framed.length (b.session.framed now)).map Prod.snd := by
        rw [hframed]
        exact hflushes.unacked_fresh hnext
      _ = _ := by rw [(lookThrough_of_not_exhausted hexhausted).1]
  have hnumbers : (b.step codec (.update now)).numbers =
      b.numbers ++ (freshFlight now b.framed.length (b.session.framed now)).map Prod.fst := rfl
  constructor
  · rw [hnumbers, hunacked]
    simp only [List.length_append, List.length_map, hlength]
  · rw [flight, Session.flight, hnumbers, hunacked, List.zip_append (by rw [List.length_map, hlength]), List.zip_map',
      List.map_id', List.zip_map_right]
    rfl

theorem sendings_flushed (codec : Codec) {now : Nat} (halive : (b.session.update now).health = .alive) :
    (b.step codec (.update now)).sendings =
      b.sendings ++ sentAgain now (b.session.isDue now) b.flight ++
        sendingsAt now (freshFlight now b.framed.length (b.session.framed now)) := by
  simp only [step, overdue, halive, if_true]

/-- A call keeps the numbers and the packets in flight side by side, and a relation that it carries. -/
theorem Carries.step (h : Carries codec b event P)
    (hnext : b.session.sender.next = UInt16.ofNat b.framed.length)
    (hlength : b.numbers.length = b.session.sender.unacked.length) (hP : P b.framed b.flight b.sendings) :
    (b.step codec event).numbers.length = (b.step codec event).session.sender.unacked.length ∧
      P (b.step codec event).framed (b.step codec event).flight (b.step codec event).sendings := by
  have hreleased : ∀ b' : Logbook, b'.framed = b.framed → b'.sendings = b.sendings →
      b'.session.sender.unacked <:+ b.session.sender.unacked →
      b'.numbers = b.numbers.drop (b.session.sender.unacked.length - b'.session.sender.unacked.length) →
      b'.numbers.length = b'.session.sender.unacked.length ∧ P b'.framed b'.flight b'.sendings := by
    intro b' hframed hsendings hsuffix hnumbers
    obtain ⟨hkept, hflight⟩ := zip_released hlength hsuffix
    rw [← hnumbers] at hkept hflight
    refine ⟨hkept, ?_⟩
    rw [hframed, hsendings, flight, Session.flight, hflight]
    exact h.release (List.drop_sublist _ _) hP
  cases event with
  | update now =>
    by_cases halive : (b.session.update now).health = .alive
    · obtain ⟨hkept, hflight⟩ := flight_flushed codec hnext hlength halive
      refine ⟨hkept, ?_⟩
      have hpass := h.pass ⟨rfl, rfl⟩ (List.Sublist.refl _) hP
      have hfresh := h.fresh (b.session.framed now) rfl hpass
      rw [hflight, sendings_flushed codec halive]
      exact hfresh
    · have hframed : b.session.framed now = [] := if_neg halive
      have hkept := congrArg List.length (map_key_gaveUp halive)
      rw [List.length_map, List.length_map] at hkept
      have hgaveUp := h.gaveUp rfl halive hP
      simp only [step, History.step, overdue, hframed, if_neg halive, freshFlight, sendingsAt, List.zipIdx_nil,
        List.map_nil, List.append_nil] at hgaveUp ⊢
      exact ⟨hlength.trans hkept.symm, hgaveUp⟩
  | handle now seed datagram =>
    have htouched : (b.session.touched now).sender = b.session.sender := sender_awake b.session
    have hlength' : b.numbers.length = (b.session.touched now).sender.unacked.length := htouched ▸ hlength
    have hP' : P b.framed ((b.session.touched now).flight b.numbers) b.sendings := by
      rw [Session.flight, htouched]
      exact hP
    have hpass : ∀ packet ∈ b.session.taken codec datagram, ∀ {flight kept sendings}, kept.Sublist flight →
        P b.framed flight sendings →
          P b.framed (kept.map (sendAgain now packet.recalls)) (sendings ++ sentAgain now packet.recalls kept) :=
      fun packet hpacket => h.pass ⟨rfl, packet, hpacket, rfl⟩
    have htracked := track_preserves hpass hlength' hP'
    rw [Session.flight, ← sender_handle codec now seed datagram b.session] at htracked
    exact htracked
  | queue message =>
    exact hreleased _ rfl rfl (unacked_step_suffix codec b.toHistory (by simp) (by simp)) rfl
  | connect accountId playerId =>
    exact hreleased _ rfl rfl (unacked_step_suffix codec b.toHistory (by simp) (by simp)) rfl
  | close reason => exact hreleased _ rfl rfl (unacked_step_suffix codec b.toHistory (by simp) (by simp)) rfl
  | finish => exact hreleased _ rfl rfl (unacked_step_suffix codec b.toHistory (by simp) (by simp)) rfl

end Step

/-- A number for each packet in flight, which is the framed packet of that number, and no sending of any other
packet. -/
structure Follows (config : ProtocolConfig) (b : Logbook) : Prop where
  sound : Sound config b.accepted b.framed b.session
  length : b.numbers.length = b.session.sender.unacked.length
  listed : Listed b.framed b.flight b.sendings

section Run

variable {codec : Codec} {config : ProtocolConfig} {b : Logbook}

theorem Follows.numbered (h : b.Follows config) : Numbered b.framed b.flight := h.listed.numbered

/-- A maintenance pass that gives up leaves the numbers as they were. -/
theorem numbers_gaveUp {now : Nat} (halive : (b.session.update now).health ≠ .alive) :
    (b.step codec (.update now)).numbers = b.numbers := by
  simp only [step, framed, if_neg halive, freshFlight, List.zipIdx_nil, List.map_nil, List.append_nil]

theorem map_flightTag_gaveUp {now : Nat} (halive : (b.session.update now).health ≠ .alive) :
    (b.step codec (.update now)).flight.map flightTag = b.flight.map flightTag := by
  have hzip : ∀ unacked : List SentPacket,
      (b.numbers.zip unacked).map flightTag = b.numbers.zip (unacked.map SentPacket.key) := by
    intro unacked
    rw [List.zip_map_right]
    rfl
  rw [flight, Session.flight, numbers_gaveUp halive, hzip, flight, Session.flight, hzip, ← map_key_gaveUp halive]
  rfl

theorem carries_listed (codec : Codec) (b : Logbook) (event : Event) : Carries codec b event Listed where
  release := fun hkept h => ⟨h.numbered.of_sublist (hkept.map flightTag), h.number_lt⟩
  pass := fun _ hkept h => h.pass hkept _ _
  fresh := fun packets _ h => h.fresh _ packets
  gaveUp := by
    rintro now rfl halive h
    refine ⟨h.numbered.of_sublist ?_, h.number_lt⟩
    rw [map_flightTag_gaveUp halive]

theorem Follows.step (h : b.Follows config) (codec : Codec) (event : Event) : (b.step codec event).Follows config := by
  have hsound := h.sound.step codec event
  obtain ⟨hlength, hlisted⟩ := (carries_listed codec b event).step h.sound.ledger.next h.length h.listed
  rw [← toHistory_step] at hsound
  exact ⟨hsound, hlength, hlisted⟩

theorem follows_start (endpoint : Endpoint) (config : ProtocolConfig) (now : Nat) :
    (start endpoint config now).Follows config where
  sound := sound_create endpoint config now
  length := rfl
  listed := ⟨⟨List.Pairwise.nil, by simp [flight, Session.flight, start]⟩, by simp [start]⟩

theorem Follows.run (h : b.Follows config) (codec : Codec) (events : List Event) :
    (b.run codec events).Follows config := by
  induction events generalizing b with
  | nil => exact h
  | cons event events ih => exact ih (h.step codec event)

/-- In every run the packets in flight are framed packets under ascending numbers. Where the oldest of them and the
packet that a notice names are among the last `2 ^ 15` framed packets, an acknowledgement takes exactly the packets up
to that number out of flight, sends nothing and changes nothing else; a report takes exactly that packet out of flight,
sends exactly the ones before it that are left again, once each and in order, and changes nothing else. -/
theorem notices_by_number (codec : Codec) (endpoint : Endpoint) (config : ProtocolConfig) (created : Nat)
    (events : List Event) :
    let b := (start endpoint config created).run codec events
    let s := b.session
    b.toHistory = (History.start endpoint config created).run codec events ∧
    b.flight.map Prod.snd = s.sender.unacked ∧
    (b.flight.Pairwise fun entry entry' => entry.1 < entry'.1) ∧
    (∀ entry ∈ b.flight, b.framed[entry.1]? = some entry.2.data ∧ entry.2.sequence = UInt16.ofNat entry.1) ∧
    ((∀ oldest ∈ b.flight.head?, b.framed.length ≤ oldest.1 + 32768) →
      ∀ number, number < b.framed.length → b.framed.length ≤ number + 32768 → ∀ now,
        s.react now (.acknowledge (UInt16.ofNat number)) =
          { session :=
              { s with
                sender :=
                  { s.sender with unacked := (b.flight.filter fun entry => number < entry.1).map Prod.snd } } } ∧
        s.react now (.outOfOrder (UInt16.ofNat number)) =
          { session :=
              { s with
                sender :=
                  { s.sender with
                    unacked := (b.flight.filter fun entry => entry.1 ≠ number).map fun entry =>
                      if entry.1 < number then Sender.resent now entry.2 else entry.2 } }
            sent := (b.flight.filter fun entry => entry.1 < number).map fun entry => s.outbound entry.2.data }) := by
  intro b s
  have hfollows : b.Follows config := (follows_start endpoint config created).run codec events
  have hnumbered := hfollows.numbered
  have hflight : b.flight.map Prod.snd = s.sender.unacked := map_snd_flight hfollows.length
  refine ⟨toHistory_run codec _ events, hflight, hnumbered.increasing, hnumbered.place, ?_⟩
  intro holdest number hlt hle now
  have hnear : Near b.framed b.flight number := ⟨hnumbered.le_of_head holdest, hlt, hle⟩
  constructor
  · have hacknowledge := hnear.acknowledge hnumbered hflight
    rw [← hacknowledge]
    rfl
  · have hreport := hnear.outOfOrder hnumbered hflight now
    simp only [react, hreport, List.map_map]
    rfl

/-- The report of the second of three packets. -/
theorem notices_by_number_reported :
    let b := (start ⟨.v4 127 0 0 1, 20260⟩ {} 0).run ⟨fun _ => none, fun _ _ => none⟩
      [.queue [1], .update 0, .queue [2], .update 1, .queue [3], .update 2]
    let reported := b.session.react 9 (.outOfOrder 1)
    b.framed.length = 3 ∧
    (∀ oldest ∈ b.flight.head?, b.framed.length ≤ oldest.1 + 32768) ∧
    reported.session.sender.unacked = [⟨0, [0, 9, 0, 0, 1], 9, 1⟩, ⟨2, [0, 9, 0, 2, 3], 2, 0⟩] ∧
    reported.sent.map Outbound.packet = [[0, 9, 0, 0, 1]] := by
  intro b reported
  have hflight : b.flight =
      [(0, ⟨0, [0, 9, 0, 0, 1], 0, 0⟩), (1, ⟨1, [0, 9, 0, 1, 2], 1, 0⟩), (2, ⟨2, [0, 9, 0, 2, 3], 2, 0⟩)] := by cbv
  have hlength : b.framed.length = 3 := by cbv
  have holdest : ∀ oldest ∈ b.flight.head?, b.framed.length ≤ oldest.1 + 32768 := by
    rw [hflight, hlength]
    decide
  obtain ⟨-, -, -, -, hnotices⟩ := notices_by_number ⟨fun _ => none, fun _ _ => none⟩ ⟨.v4 127 0 0 1, 20260⟩ {} 0
    [.queue [1], .update 0, .queue [2], .update 1, .queue [3], .update 2]
  have hreported : reported = _ := (hnotices holdest 1 (by rw [hlength]; decide) (by rw [hlength]; decide) 9).2
  rw [hflight] at hreported
  refine ⟨hlength, holdest, ?_, ?_⟩
  · rw [hreported]
    decide
  · rw [hreported]
    decide

end Run

end Logbook

end Session

end GameGateway
