import GameGateway.Proofs.Bundle
import GameGateway.Proofs.Flush
import GameGateway.Proofs.Fragment

/-!
# What is framed

Two facts about the packets that a sender has framed, in the order of their framing. They carry the numbers
0, 1, 2 and so on, and what is in flight is some of them in this order: `Sender.Ledger`. And they say, with
the fragments that still wait behind them, the messages that have left the queue: `Sender.Flushes.reads`.
-/

namespace GameGateway

/-- A message that can be sent: its size has a 32-bit total, and it cannot be taken for a bundle. -/
structure Sendable (message : Bytes) : Prop where
  length_lt : message.length < 4294967296
  not_opens : ¬ Bundle.Opens message

/-- The number and the bytes of a packet, which stay the same when it is sent again. -/
def SentPacket.key (p : SentPacket) : UInt16 × Bytes := (p.sequence, p.data)

namespace Sender

open Receiver

/-- Packets with the numbers of their places. -/
def numbered (framed : List Bytes) : List (UInt16 × Bytes) :=
  framed.zipIdx.map fun entry => (UInt16.ofNat entry.2, entry.1)

theorem numbered_concat (framed : List Bytes) (packet : Bytes) :
    numbered (framed ++ [packet]) = numbered framed ++ [(UInt16.ofNat framed.length, packet)] := by
  simp [numbered, List.zipIdx_append]

theorem mem_numbered {framed : List Bytes} {n : UInt16} {packet : Bytes} :
    (n, packet) ∈ numbered framed ↔ ∃ i, framed[i]? = some packet ∧ n = UInt16.ofNat i := by
  simp only [numbered, List.mem_map, Prod.exists, Prod.mk.injEq, List.mem_zipIdx_iff_getElem?]
  constructor
  · rintro ⟨packet', i, hi, hn, rfl⟩
    exact ⟨i, hi, hn.symm⟩
  · rintro ⟨i, hi, hn⟩
    exact ⟨packet, i, hi, hn.symm, rfl⟩

theorem getElem?_numbered (framed : List Bytes) (i : Nat) :
    (numbered framed)[i]? = framed[i]?.map fun packet => (UInt16.ofNat i, packet) := by
  rw [numbered, List.getElem?_map, List.getElem?_zipIdx, Option.map_map, Nat.zero_add]
  rfl

/-- What a sender owes to the packets that it has framed so far. -/
structure Ledger (framed : List Bytes) (s : Sender) : Prop where
  /-- The next number is how many there are. -/
  next : s.next = UInt16.ofNat framed.length
  /-- Each is the packet of an item under the number of its place. -/
  packet : ∀ i packet, framed[i]? = some packet →
    packet = (Item.ofPacket packet).packet (UInt16.ofNat i)
  /-- Those in flight are some of them, in order. -/
  unacked : (s.unacked.map SentPacket.key).Sublist (numbered framed)

theorem ledger_nil : Ledger [] {} where
  next := rfl
  packet := by simp
  unacked := List.Sublist.refl _

variable {framed packets : List Bytes} {s s' : Sender} {budget window now : Nat}

/-- Releasing packets and sending others again leaves the ledger in order. -/
theorem Ledger.of_sublist (h : Ledger framed s) (hnext : s'.next = s.next)
    (hkeys : (s'.unacked.map SentPacket.key).Sublist (s.unacked.map SentPacket.key)) :
    Ledger framed s' where
  next := hnext.trans h.next
  packet := h.packet
  unacked := hkeys.trans h.unacked

theorem Ledger.frame (h : Ledger framed s) (channel : Channel) (payload : Bytes) (now : Nat) :
    Ledger (framed ++ [s.packet channel payload]) (s.frame channel payload now) where
  next := by
    rw [List.length_append, List.length_singleton, UInt16.ofNat_add, ← h.next]
    rfl
  packet := by
    intro i packet hi
    rcases of_getElem?_concat hi with hi | ⟨rfl, rfl⟩
    · exact h.packet i packet hi
    · have hitem : s.packet channel payload = Item.packet ⟨channel, payload⟩ s.next := rfl
      rw [hitem, Item.ofPacket_packet, h.next]
  unacked := by
    rw [numbered_concat, ← h.next]
    simp only [Sender.frame, List.map_append]
    exact h.unacked.append (List.Sublist.refl _)

theorem Flushes.ledger (hf : Flushes budget window now s packets s') (h : Ledger framed s) :
    Ledger (framed ++ packets) s' := by
  induction hf generalizing framed with
  | done s => simpa using h
  | @fragment s s' fragment fragments packets room waiting tail ih =>
    have hpopped : Ledger framed { s with fragments } := h.of_sublist rfl (.refl _)
    rw [List.append_cons]
    exact ih (hpopped.frame .fragment fragment now)
  | @bundle s s' group queued packets payload room idle front fits pack tail ih =>
    have hpopped : Ledger framed { s with queued } := h.of_sublist rfl (.refl _)
    rw [List.append_cons]
    exact ih (hpopped.frame .data payload now)
  | loseGroup room idle front fits pack tail ih => exact ih (h.of_sublist rfl (.refl _))
  | cut room idle front large split tail ih => exact ih (h.of_sublist rfl (.refl _))
  | loseMessage room idle front large split tail ih => exact ih (h.of_sublist rfl (.refl _))

/-! ## What stays in flight -/

theorem map_key_resend (delay now : Nat) (limit : UInt32) (packets : List SentPacket) :
    (resend delay now limit packets).packets.map SentPacket.key = packets.map SentPacket.key := by
  induction packets with
  | nil => rfl
  | cons p rest ih =>
    simp only [resend]
    split
    · split
      · rfl
      · simpa [resent, SentPacket.key] using ih
    · simpa using ih

/-- The bytes of packets that stay in flight were in flight. -/
theorem data_subset_of_key_sublist
    (h : (s'.unacked.map SentPacket.key).Sublist (s.unacked.map SentPacket.key)) :
    s'.unacked.map SentPacket.data ⊆ s.unacked.map SentPacket.data := by
  have hdata : ∀ packets : List SentPacket,
      packets.map SentPacket.data = (packets.map SentPacket.key).map Prod.snd := by
    intro packets
    rw [List.map_map]
    apply List.map_congr_left
    intro p _
    rfl
  rw [hdata, hdata]
  exact (h.map Prod.snd).subset

/-- What is due is in flight. -/
theorem due_resend_sublist (delay now : Nat) (limit : UInt32) (packets : List SentPacket) :
    (resend delay now limit packets).due.Sublist (packets.map SentPacket.data) := by
  induction packets with
  | nil => exact List.Sublist.refl _
  | cons p rest ih =>
    simp only [resend, List.map_cons]
    split
    · split
      · exact List.nil_sublist _
      · exact ih.cons_cons _
    · exact ih.cons _

theorem map_key_acknowledge_sublist (sequence : UInt16) (s : Sender) :
    ((s.acknowledge sequence).unacked.map SentPacket.key).Sublist (s.unacked.map SentPacket.key) :=
  (List.dropWhile_sublist _).map _

theorem map_key_outOfOrder (sequence : UInt16) (now : Nat) (s : Sender) :
    (s.outOfOrder sequence now).1.unacked.map SentPacket.key =
      (s.unacked.filter fun p => p.sequence != sequence).map SentPacket.key := by
  simp only [outOfOrder, List.map_map]
  apply List.map_congr_left
  intro p _
  simp only [Function.comp_apply]
  split <;> rfl

theorem map_key_outOfOrder_sublist (sequence : UInt16) (now : Nat) (s : Sender) :
    ((s.outOfOrder sequence now).1.unacked.map SentPacket.key).Sublist
      (s.unacked.map SentPacket.key) := by
  rw [map_key_outOfOrder]
  exact List.filter_sublist.map _

/-- What is sent again on a notice is in flight. -/
theorem outOfOrder_sublist (sequence : UInt16) (now : Nat) (s : Sender) :
    (s.outOfOrder sequence now).2.Sublist (s.unacked.map SentPacket.data) :=
  (List.filter_sublist.trans List.filter_sublist).map _

/-- What is in flight was framed. -/
theorem Ledger.mem_framed (h : Ledger framed s) {data : Bytes}
    (hdata : data ∈ s.unacked.map SentPacket.data) : data ∈ framed := by
  obtain ⟨p, hp, rfl⟩ := List.mem_map.1 hdata
  obtain ⟨i, hi, -⟩ := mem_numbered.1 (h.unacked.subset (List.mem_map_of_mem hp))
  exact List.mem_of_getElem? hi

/-- An acknowledgement releases no packet ahead of it. -/
theorem mem_acknowledge {n : UInt16} {data : Bytes} (sequence : UInt16)
    (h : (n, data) ∈ s.unacked.map SentPacket.key) :
    (n, data) ∈ (s.acknowledge sequence).unacked.map SentPacket.key ∨
      0 ≤ Sequence.distance n sequence := by
  obtain ⟨p, hp, hkey⟩ := List.mem_map.1 h
  obtain ⟨rfl, rfl⟩ : p.sequence = n ∧ p.data = data := Prod.mk.inj hkey
  rw [← List.takeWhile_append_dropWhile (p := fun p => 0 ≤ Sequence.distance p.sequence sequence)
    (l := s.unacked)] at hp
  rcases List.mem_append.1 hp with hreleased | hkept
  · have hall := List.all_eq_true.1 List.all_takeWhile p hreleased
    right
    simpa using hall
  · left
    exact List.mem_map_of_mem hkept

/-- A report of a packet releases no other packet. -/
theorem mem_outOfOrder {n : UInt16} {data : Bytes} (sequence : UInt16) (now : Nat)
    (h : (n, data) ∈ s.unacked.map SentPacket.key) :
    (n, data) ∈ (s.outOfOrder sequence now).1.unacked.map SentPacket.key ∨ n = sequence := by
  obtain ⟨p, hp, hkey⟩ := List.mem_map.1 h
  obtain ⟨rfl, rfl⟩ : p.sequence = n ∧ p.data = data := Prod.mk.inj hkey
  by_cases hn : p.sequence = sequence
  · exact Or.inr hn
  · left
    rw [map_key_outOfOrder]
    apply List.mem_map_of_mem
    simpa [hp] using hn

/-- What goes into the ledger and into flight behind a framed packet goes there behind what was before it. -/
theorem Ledger.frame_added (h : Ledger framed s) (channel : Channel) (payload : Bytes) (now : Nat)
    {added : List (UInt16 × Bytes)}
    (hnumbered : numbered (framed ++ [s.packet channel payload] ++ packets) =
      numbered (framed ++ [s.packet channel payload]) ++ added)
    (hunacked : s'.unacked.map SentPacket.key =
      (s.frame channel payload now).unacked.map SentPacket.key ++ added) :
    ∃ added, numbered (framed ++ s.packet channel payload :: packets) = numbered framed ++ added ∧
      s'.unacked.map SentPacket.key = s.unacked.map SentPacket.key ++ added := by
  refine ⟨(s.next, s.packet channel payload) :: added, ?_, ?_⟩
  · rw [List.append_cons, hnumbered, numbered_concat, ← h.next, List.append_assoc]
    rfl
  · rw [hunacked]
    simp [Sender.frame, SentPacket.key]

/-- What a flush frames goes behind what is in flight, in the same order. -/
theorem Flushes.unacked_eq (hf : Flushes budget window now s packets s') (h : Ledger framed s) :
    ∃ added, numbered (framed ++ packets) = numbered framed ++ added ∧
      s'.unacked.map SentPacket.key = s.unacked.map SentPacket.key ++ added := by
  induction hf generalizing framed with
  | done s => exact ⟨[], by simp, by simp⟩
  | @fragment s s' fragment fragments packets room waiting tail ih =>
    have hpopped : Ledger framed { s with fragments } := h.of_sublist rfl (.refl _)
    obtain ⟨added, hnumbered, hunacked⟩ := ih (hpopped.frame .fragment fragment now)
    exact hpopped.frame_added .fragment fragment now hnumbered hunacked
  | @bundle s s' group queued packets payload room idle front fits pack tail ih =>
    have hpopped : Ledger framed { s with queued } := h.of_sublist rfl (.refl _)
    obtain ⟨added, hnumbered, hunacked⟩ := ih (hpopped.frame .data payload now)
    exact hpopped.frame_added .data payload now hnumbered hunacked
  | loseGroup room idle front fits pack tail ih => exact ih (h.of_sublist rfl (.refl _))
  | cut room idle front large split tail ih => exact ih (h.of_sublist rfl (.refl _))
  | loseMessage room idle front large split tail ih => exact ih (h.of_sublist rfl (.refl _))

/-! ## What the packets say -/

/-- What the peer reads once it has all framed packets and the fragments that still wait. -/
def stream (framed : List Bytes) (s : Sender) : List Item :=
  framed.map Item.ofPacket ++ s.fragments.map Item.ofFragment

theorem ofPacket_sender (channel : Channel) (payload : Bytes) (s : Sender) :
    Item.ofPacket (s.packet channel payload) = ⟨channel, payload⟩ :=
  Item.ofPacket_packet ⟨channel, payload⟩ s.next

/-- A flush appends whole messages to the stream. Under a budget that has room for a total and is below a
16-bit size, these are the messages that it took from the queue. -/
theorem Flushes.reads {said : List Bytes} (hf : Flushes budget window now s packets s')
    (h : consumeAll none (stream framed s) = (none, .ok said)) :
    ∃ more, consumeAll none (stream (framed ++ packets) s') = (none, .ok (said ++ more)) ∧
      (Fragment.totalLength < budget → budget < 65536 → (∀ message ∈ s.queued, Sendable message) →
        more ++ passedOn s'.queued = passedOn s.queued) := by
  induction hf generalizing framed said with
  | done s => exact ⟨[], by simpa using h, fun _ _ _ => rfl⟩
  | @fragment s s' fragment fragments packets room waiting tail ih =>
    have hstream : stream (framed ++ [s.packet .fragment fragment])
        ({ s with fragments }.frame .fragment fragment now) = stream framed s := by
      simp [stream, waiting, ofPacket_sender, Sender.frame, Item.ofFragment]
    obtain ⟨more, hmore, hqueue⟩ := ih (hstream ▸ h)
    exact ⟨more, by simpa using hmore, hqueue⟩
  | @bundle s s' group queued packets payload room idle front fits pack tail ih =>
    have hstream : stream (framed ++ [s.packet .data payload])
        ({ s with queued }.frame .data payload now) = stream framed s ++ [⟨.data, payload⟩] := by
      simp [stream, idle, ofPacket_sender, Sender.frame]
    have hitem : consumeAll none [⟨.data, payload⟩] = (none, .ok (messages payload ++ [])) :=
      consumeAll_cons (consume_data none payload) []
    obtain ⟨more, hmore, hqueue⟩ := ih (hstream ▸ consumeAll_append_ok h hitem)
    refine ⟨messages payload ++ more, by simpa using hmore, fun hroom hsize hsendable => ?_⟩
    rw [front] at hsendable ⊢
    have hrest := hqueue hroom hsize fun m hm => hsendable m (List.mem_append_right _ hm)
    have hgroup := messages_pack pack fun m hm => (hsendable m (List.mem_append_left _ hm)).not_opens
    calc
      messages payload ++ more ++ passedOn s'.queued = messages payload ++ (more ++ passedOn s'.queued) :=
        List.append_assoc ..
      _ = passedOn group ++ passedOn queued := by
        rw [hgroup, hrest]
        rfl
      _ = passedOn (group ++ queued) := (passedOn_append ..).symm
  | @loseGroup s s' group queued packets e room idle front fits pack tail ih =>
    obtain ⟨more, hmore, -⟩ := ih h
    refine ⟨more, hmore, fun _ hsize _ => ?_⟩
    obtain ⟨payload, hpayload⟩ := Bundle.pack_eq_ok fun m hm =>
      Nat.lt_of_le_of_lt (fits.length_le m hm) hsize
    rw [hpayload] at pack
    cases pack
  | @cut s s' message queued fragments packets room idle front large split tail ih =>
    have hstream : stream framed { s with queued, fragments } =
        stream framed s ++ fragments.map Item.ofFragment := by
      simp [stream, idle]
    obtain ⟨more, hmore, hqueue⟩ := ih (hstream ▸ consumeAll_append_ok h (consumeAll_split split))
    refine ⟨messages message ++ more, by simpa using hmore, fun hroom hsize hsendable => ?_⟩
    rw [front] at hsendable ⊢
    have hrest := hqueue hroom hsize fun m hm => hsendable m (List.mem_cons_of_mem _ hm)
    have hmessage := messages_of_not_opens (hsendable message (List.mem_cons_self ..)).not_opens
    calc
      messages message ++ more ++ passedOn s'.queued = messages message ++ (more ++ passedOn s'.queued) :=
        List.append_assoc ..
      _ = passedOn [message] ++ passedOn queued := by
        rw [hmessage, hrest]
      _ = passedOn (message :: queued) := (passedOn_append [message] queued).symm
  | @loseMessage s s' message queued packets e room idle front large split tail ih =>
    obtain ⟨more, hmore, -⟩ := ih h
    refine ⟨more, hmore, fun hroom _ hsendable => ?_⟩
    rw [front] at hsendable
    rw [Fragment.split_eq_ok hroom large (hsendable message (List.mem_cons_self ..)).length_lt] at split
    cases split

end Sender

end GameGateway
