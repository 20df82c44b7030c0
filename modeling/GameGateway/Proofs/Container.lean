import GameGateway.Proofs.Bundle
import GameGateway.Proofs.Plain

/-!
# Containers of packets

A session takes a container as it takes the packets in it one behind the other, except that it acknowledges once what
it would have acknowledged packet by packet: `Session.handle_container`. Two kinds of packets make a difference and are
left out, at any depth: requests, which are only read outside of containers, and disconnects, behind which a session
takes no datagram but goes on with a container.

## Implementation notes

What a container holds is compared along `Packet.leaves`, of which the leaves of a container are a concatenation. The
acknowledgement at the end is that of the last packet that made the expected number move on, because packets that do
not leave it alone.
-/

namespace GameGateway

namespace Packet

/-- The opcodes of a packet and of all packets in it, at any depth. -/
def opcodes (bytes : Bytes) : List UInt16 :=
  match bytes with
  | high :: low :: body =>
    let opcode := Fixed.decode UInt16 .big [high, low]
    if opcode = Opcode.multiPacket then
      opcode :: (Record.all body).1.attach.flatMap fun ⟨inner, h⟩ =>
        have : inner.length < body.length := Record.length_lt_of_mem_all h
        opcodes inner
    else [opcode]
  | _ => []
termination_by bytes.length
decreasing_by simp only [List.length_cons]; omega

/-- The packet of some records. -/
def container (records : List Bytes) : Bytes := Opcode.bytes Opcode.multiPacket ++ records.flatten

theorem exists_opcode {packet : Bytes} (h : 2 ≤ packet.length) : ∃ opcode body, packet = Opcode.bytes opcode ++ body := by
  match packet with
  | high :: low :: body =>
    refine ⟨Fixed.decode UInt16 .big [high, low], body, ?_⟩
    rw [Opcode.bytes, Fixed.encode_decode .big rfl]
    rfl

theorem mem_opcodes (opcode : UInt16) (body : Bytes) : opcode ∈ opcodes (Opcode.bytes opcode ++ body) := by
  obtain ⟨high, low, hbytes⟩ := bytes_eq opcode
  have hopcode : Fixed.decode UInt16 .big [high, low] = opcode := by
    rw [← hbytes]
    exact Fixed.decode_encode ..
  rw [hbytes, List.cons_append, List.cons_append, List.nil_append, opcodes]
  simp only [hopcode]
  split
  · exact List.mem_cons_self
  · exact List.mem_singleton_self _

theorem opcode_of_disconnect {opcode : UInt16} {body : Bytes} {connectionId : UInt32}
    (h : parseBody? opcode body = some (.disconnect connectionId)) : opcode = Opcode.disconnect := by
  have hsequenced : ∀ channel, (parseSequenced channel).value? body ≠ some (.disconnect connectionId) := by
    intro channel hparse
    rw [Decoder.value?, Decoder.value, parseSequenced, Decoder.run_bind] at hparse
    cases hsequence : (Decoder.fixed UInt16 .big).run body with
    | mk read rest =>
      rw [hsequence] at hparse
      cases read with
      | error e => cases hparse
      | ok sequence => cases hparse
  unfold parseBody? at h
  split at h
  · assumption
  split at h
  · cases h
  split at h
  · exact absurd h (hsequenced .data)
  split at h
  · exact absurd h (hsequenced .fragment)
  split at h
  · simp at h
  split at h
  · simp at h
  · cases h

/-- What shuts a session down is a disconnect by its opcode, however deep. -/
theorem disconnect_mem_opcodes {packet : Bytes} {connectionId : UInt32}
    (h : .disconnect connectionId ∈ leaves packet) : Opcode.disconnect ∈ opcodes packet := by
  fun_induction leaves packet with
  | case1 high low body opcode hmulti ih =>
    obtain ⟨⟨inner, hinner⟩, -, hleaf⟩ := List.mem_flatMap.1 h
    rw [opcodes]
    simp only [opcode] at hmulti
    simp only [hmulti, if_true]
    apply List.mem_cons_of_mem
    apply List.mem_flatMap.2
    exact ⟨⟨inner, hinner⟩, List.mem_attach _ _, ih inner hinner hleaf⟩
  | case2 high low body opcode hmulti =>
    have hopcode := opcode_of_disconnect (Option.mem_toList.1 h)
    simp only [opcode] at hmulti hopcode
    rw [opcodes]
    simp only [hopcode]
    exact List.mem_singleton_self _
  | case3 packet hshort => cases h

/-- A container is read as the packets in it. -/
theorem leaves_container {packets records : List Bytes} (h : packets.mapM Record.encode = .ok records) :
    leaves (container records) = packets.flatMap leaves := by
  have hbytes : container records = 0x00 :: 0x03 :: records.flatten := rfl
  have hopcode : Fixed.decode UInt16 .big [0x00, 0x03] = Opcode.multiPacket := rfl
  have hrecords : (Record.all records.flatten).1 = packets := congrArg Prod.fst (Record.all_flatten h)
  rw [hbytes, leaves]
  simp only [hopcode, if_true]
  calc
    (Record.all records.flatten).1.attach.flatMap (fun inner => leaves inner.1) =
        (Record.all records.flatten).1.flatMap leaves := by simp
    _ = packets.flatMap leaves := by rw [hrecords]

end Packet

namespace Session

variable {s : Session} {now : Nat} {packets : List Packet}

/-! ## What packets leave -/

/-- Packets without a violation: neither the first nor those behind it are one. -/
theorem reactAll_cons_ok {packet : Packet} {messages : List Bytes}
    (h : (s.reactAll now (packet :: packets)).result = .ok messages) :
    ∃ said more, (s.react now packet).result = .ok said ∧
      ((s.react now packet).session.reactAll now packets).result = .ok more ∧ messages = said ++ more := by
  simp only [reactAll] at h
  cases hfirst : (s.react now packet).result with
  | error v =>
    rw [hfirst] at h
    cases h.symm.trans hfirst
  | ok said =>
    simp only [hfirst] at h
    cases hrest : ((s.react now packet).session.reactAll now packets).result with
    | error v =>
      rw [hrest] at h
      cases h
    | ok more =>
      rw [hrest] at h
      exact ⟨said, more, rfl, rfl, (Except.ok.inj h).symm⟩

/-- Packets behind others are taken as if they came alone. -/
theorem reactAll_append {first : List Packet} {messages : List Bytes} (h : (s.reactAll now first).result = .ok messages)
    (rest : List Packet) :
    s.reactAll now (first ++ rest) =
      let front := s.reactAll now first
      let back := front.session.reactAll now rest
      { session := back.session
        sent := front.sent ++ back.sent
        result := back.result.map (messages ++ ·)
        advanced := front.advanced || back.advanced } := by
  induction first generalizing s messages with
  | nil =>
    cases h
    simp only [List.nil_append, reactAll, Bool.false_or]
    rcases s.reactAll now rest with ⟨session, sent, v | messages, advanced⟩
    · rfl
    · rfl
  | cons packet first ih =>
    obtain ⟨said, more, hfirst, hfront, rfl⟩ := reactAll_cons_ok h
    simp only [List.cons_append, reactAll, hfirst, ih hfront, List.append_assoc, Bool.or_assoc]
    rcases ((s.react now packet).session.reactAll now first).session.reactAll now rest with
      ⟨session, sent, v | messages, advanced⟩
    · rfl
    · rfl

/-- Packets other than disconnects change nothing but the two sides of the transport. -/
theorem session_reactAll (now : Nat) (s : Session) (h : ∀ connectionId, .disconnect connectionId ∉ packets) :
    ∃ sender receiver, (s.reactAll now packets).session = { s with sender, receiver } := by
  induction packets generalizing s with
  | nil => exact ⟨s.sender, s.receiver, rfl⟩
  | cons packet packets ih =>
    have hpacket : ∃ sender receiver, (s.react now packet).session = { s with sender, receiver } := by
      cases packet with
      | disconnect connectionId => exact absurd List.mem_cons_self (h connectionId)
      | ping => exact ⟨s.sender, s.receiver, rfl⟩
      | sequenced channel sequence payload => exact ⟨s.sender, _, rfl⟩
      | acknowledge sequence => exact ⟨_, s.receiver, rfl⟩
      | outOfOrder sequence => exact ⟨_, s.receiver, rfl⟩
    obtain ⟨sender, receiver, hsession⟩ := hpacket
    simp only [reactAll]
    split
    · exact ⟨sender, receiver, hsession⟩
    · rw [hsession]
      exact ih _ fun connectionId hmem => h connectionId (List.mem_cons_of_mem _ hmem)

theorem next_arrive (window sequence : UInt16) (item : Item) (r : Receiver) :
    (r.arrive window sequence item).receiver.next = r.next ∨ (r.arrive window sequence item).advanced = true := by
  have harrives := Receiver.arrive_arrives window sequence item r
  generalize r.arrive window sequence item = arrival at harrives ⊢
  cases harrives with
  | late before => exact Or.inl rfl
  | beyond ahead outside => exact Or.inl rfl
  | early ahead inside => exact Or.inl rfl
  | violation expected processed =>
    rw [Receiver.process_eq] at processed
    obtain ⟨rfl, -⟩ := Prod.mk.inj processed
    exact Or.inl rfl
  | next expected processed => exact Or.inr rfl

theorem next_react {packet : Packet} (h : (s.react now packet).advanced = false) :
    (s.react now packet).session.receiver.next = s.receiver.next := by
  cases packet with
  | disconnect connectionId =>
    simp only [react]
    split
    · rfl
    · rfl
  | ping => rfl
  | sequenced channel sequence payload =>
    apply (next_arrive s.config.windowSize sequence ⟨channel, payload⟩ s.receiver).resolve_right
    exact Bool.eq_false_iff.1 h
  | acknowledge sequence => rfl
  | outOfOrder sequence => rfl

/-- The expected number stays unless it is said to have moved on. -/
theorem next_reactAll (h : (s.reactAll now packets).advanced = false) :
    (s.reactAll now packets).session.receiver.next = s.receiver.next := by
  induction packets generalizing s with
  | nil => rfl
  | cons packet packets ih =>
    simp only [reactAll] at h ⊢
    split
    · rename_i v hresult
      rw [hresult] at h
      exact next_react h
    · rename_i messages hresult
      rw [hresult] at h
      obtain ⟨hfirst, hrest⟩ := Bool.or_eq_false_iff.1 h
      exact (ih hrest).trans (next_react hfirst)

theorem acknowledgement_reactAll (hstays : (s.reactAll now packets).advanced = false)
    (h : ∀ connectionId, .disconnect connectionId ∉ packets) :
    (s.reactAll now packets).session.acknowledgement = s.acknowledgement := by
  have hnext := next_reactAll hstays
  obtain ⟨sender, receiver, hsession⟩ := session_reactAll now s h
  rw [hsession] at hnext ⊢
  have hsame : receiver.next = s.receiver.next := hnext
  simp only [acknowledgement, outbound, hsame]

/-! ## Reactions with their acknowledgement -/

namespace Reaction

/-- The acknowledgement that a datagram is answered with if it made the expected number move on. -/
def acknowledgements (r : Reaction) : List Outbound :=
  if r.advanced then [r.session.acknowledgement] else []

/-- The datagrams that a datagram is answered with besides. -/
def own (r : Reaction) : List Outbound := if r.advanced then r.sent.dropLast else r.sent

/-- The messages that a datagram makes deliverable. -/
def messages (r : Reaction) : List Bytes := r.result.toOption.getD []

/-- The reaction of packets, with the acknowledgement behind it. -/
def acknowledged (r : Reaction) : Reaction := { r with sent := r.sent ++ r.acknowledgements }

theorem acknowledgements_acknowledged (r : Reaction) : r.acknowledged.acknowledgements = r.acknowledgements := rfl

theorem own_acknowledged (r : Reaction) : r.acknowledged.own = r.sent := by
  obtain ⟨session, sent, result, advanced⟩ := r
  cases advanced with
  | false => simp [own, acknowledged, acknowledgements]
  | true => simp [own, acknowledged, acknowledgements]

/-- The reaction of packets is what comes of them one behind the other, but for the acknowledgements, of which it has
the last one. -/
structure Comprises (all : Reaction) (each : Session × List Reaction) : Prop where
  session : all.session = each.1
  sent : all.sent = each.2.flatMap own
  result : all.result = .ok (each.2.flatMap messages)
  acknowledged : ∀ r ∈ each.2, r.sent = r.own ++ r.acknowledgements
  last : (each.2.flatMap acknowledgements).getLast?.toList = all.acknowledgements

theorem comprises_nil (s : Session) : Comprises { session := s } (s, []) where
  session := rfl
  sent := rfl
  result := rfl
  acknowledged := by simp
  last := rfl

/-- A reaction in front of others: its acknowledgement counts when theirs would say the same or is missing. -/
theorem Comprises.cons {first back : Reaction} {each : Session × List Reaction} {messages : List Bytes}
    (h : Comprises back each) (hresult : first.result = .ok messages)
    (hstill : back.advanced = false → back.session.acknowledgement = first.session.acknowledgement) :
    Comprises
      { session := back.session
        sent := first.sent ++ back.sent
        result := back.result.map (messages ++ ·)
        advanced := first.advanced || back.advanced }
      (each.1, first.acknowledged :: each.2) where
  session := h.session
  sent := by rw [List.flatMap_cons, own_acknowledged, h.sent]
  result := by
    have hmessages : first.acknowledged.messages = messages := by
      rw [Reaction.messages, Reaction.acknowledged, hresult]
      rfl
    rw [List.flatMap_cons, hmessages, h.result]
    rfl
  acknowledged := by
    intro r hr
    rcases List.mem_cons.1 hr with rfl | hr
    · rw [own_acknowledged]
      rfl
    · exact h.acknowledged r hr
  last := by
    have hlast := h.last
    rw [List.flatMap_cons, List.getLast?_append, acknowledgements_acknowledged]
    cases hback : back.advanced with
    | true =>
      simp only [acknowledgements, hback, if_true, Bool.or_true] at hlast ⊢
      rw [Option.toList_eq_singleton_iff.1 hlast]
      rfl
    | false =>
      simp only [acknowledgements, hback, Bool.false_eq_true, if_false, Bool.or_false] at hlast ⊢
      rw [Option.toList_eq_nil_iff.1 hlast, Option.none_or, hstill hback]
      split
      · rfl
      · rfl

end Reaction

/-- Packets without a violation are answered with an acknowledgement behind all else. -/
theorem receive_eq_acknowledged {packet : Bytes} {messages : List Bytes}
    (h : ((s.touched now).reactAll now (Packet.leaves packet)).result = .ok messages) :
    s.awake.receive now packet = ((s.touched now).reactAll now (Packet.leaves packet)).acknowledged := by
  have htouched : ({ s.awake with lastActivity := now } : Session) = s.touched now := rfl
  rw [receive, htouched]
  generalize (s.touched now).reactAll now (Packet.leaves packet) = all at h ⊢
  obtain ⟨session, sent, result, advanced⟩ := all
  cases h
  cases advanced with
  | false => simp [Reaction.acknowledged, Reaction.acknowledgements]
  | true => simp [Reaction.acknowledged, Reaction.acknowledgements]

theorem result_receive (now : Nat) (packet : Bytes) (s : Session) :
    (s.awake.receive now packet).result = ((s.touched now).reactAll now (Packet.leaves packet)).result := by
  have htouched : ({ s.awake with lastActivity := now } : Session) = s.touched now := rfl
  rw [receive, htouched]
  split
  · rfl
  · split
    · rfl
    · rfl

/-! ## Packets one behind the other -/

/-- A packet that is taken alike in a container and alone. -/
structure IsInner (packet : Bytes) : Prop where
  two_le : 2 ≤ packet.length
  not_request : Opcode.sessionRequest ∉ Packet.opcodes packet
  not_disconnect : Opcode.disconnect ∉ Packet.opcodes packet

instance : DecidablePred IsInner := fun packet =>
  decidable_of_iff
    (2 ≤ packet.length ∧ Opcode.sessionRequest ∉ Packet.opcodes packet ∧ Opcode.disconnect ∉ Packet.opcodes packet)
    ⟨fun ⟨h, h', h''⟩ => ⟨h, h', h''⟩, fun ⟨h, h', h''⟩ => ⟨h, h', h''⟩⟩

/-- Takes datagrams one behind the other. Answers what comes of each. -/
def handleEach (codec : Codec) (now : Nat) (seed : UInt32) (s : Session) : List Bytes → Session × List Reaction
  | [] => (s, [])
  | datagram :: datagrams =>
    let reaction := s.handle codec now seed datagram
    let rest := handleEach codec now seed reaction.session datagrams
    (rest.1, reaction :: rest.2)

theorem IsInner.opcode_ne {opcode : UInt16} {body : Bytes} (h : IsInner (Opcode.bytes opcode ++ body)) :
    opcode ≠ Opcode.sessionRequest := by
  rintro rfl
  exact h.not_request (Packet.mem_opcodes _ body)

theorem IsInner.no_disconnect {packet : Bytes} (h : IsInner packet) (connectionId : UInt32) :
    .disconnect connectionId ∉ Packet.leaves packet :=
  fun hleaf => h.not_disconnect (Packet.disconnect_mem_opcodes hleaf)

/-- An open session without a filter that has heard from its peer at a time. -/
structure Heard (now : Nat) (s : Session) : Prop extends s.Plain where
  woken : s.phase ≠ .uninitialized
  active : s.lastActivity = now

theorem Plain.heard (h : s.Plain) (now : Nat) : (s.touched now).Heard now where
  isOpen := (h.touched now).isOpen
  passes := (h.touched now).passes
  woken := by
    unfold Session.touched Session.awake
    split
    · simp
    · assumption
  active := rfl

theorem Heard.touched_eq (h : s.Heard now) : s.touched now = s := by
  have hawake : s.awake = s := if_neg h.woken
  have hactive := h.active
  subst hactive
  rw [touched, hawake]

/-- What packets other than disconnects leave of a session that has heard from its peer. -/
theorem Heard.reactAll (h : s.Heard now) (hpackets : ∀ connectionId, .disconnect connectionId ∉ packets) :
    (s.reactAll now packets).session.Heard now := by
  obtain ⟨sender, receiver, hsession⟩ := session_reactAll now s hpackets
  rw [hsession]
  exact ⟨⟨h.isOpen, h.passes⟩, h.woken, h.active⟩

/-- A packet alone, without a violation. -/
theorem Plain.handle_inner (h : s.Plain) (codec : Codec) (seed : UInt32) {packet : Bytes} (hinner : IsInner packet)
    (hok : (s.handle codec now seed packet).result.isOk) :
    ∃ messages, ((s.touched now).reactAll now (Packet.leaves packet)).result = .ok messages ∧
      s.handle codec now seed packet = ((s.touched now).reactAll now (Packet.leaves packet)).acknowledged := by
  obtain ⟨opcode, body, rfl⟩ := Packet.exists_opcode hinner.two_le
  rw [h.handle codec now seed hinner.opcode_ne body] at hok ⊢
  rw [result_receive] at hok
  cases hresult : ((s.touched now).reactAll now (Packet.leaves (Opcode.bytes opcode ++ body))).result with
  | error v =>
    rw [hresult] at hok
    cases hok
  | ok messages => exact ⟨messages, rfl, receive_eq_acknowledged hresult⟩

/-- Packets one behind the other, without a violation, come to what they come to in a row. -/
theorem Heard.comprises (h : s.Heard now) (codec : Codec) (seed : UInt32) {datagrams : List Bytes}
    (hinner : ∀ datagram ∈ datagrams, IsInner datagram)
    (hok : ∀ reaction ∈ (s.handleEach codec now seed datagrams).2, reaction.result.isOk) :
    (s.reactAll now (datagrams.flatMap Packet.leaves)).Comprises (s.handleEach codec now seed datagrams) := by
  induction datagrams generalizing s with
  | nil => exact Reaction.comprises_nil s
  | cons datagram datagrams ih =>
    have hfirst := hinner datagram List.mem_cons_self
    have hlater : ∀ d ∈ datagrams, IsInner d := fun d hd => hinner d (List.mem_cons_of_mem _ hd)
    obtain ⟨messages, hresult, hhandle⟩ := h.toPlain.handle_inner codec seed hfirst (hok _ List.mem_cons_self)
    rw [h.touched_eq] at hresult hhandle
    simp only [handleEach, hhandle] at hok ⊢
    rw [List.flatMap_cons, reactAll_append hresult]
    have hrest := ih (h.reactAll hfirst.no_disconnect) hlater fun reaction hreaction =>
      hok reaction (List.mem_cons_of_mem _ hreaction)
    apply hrest.cons hresult
    -- the packets behind leave the expected number alone, so that the first acknowledgement is still true
    intro hquiet
    apply acknowledgement_reactAll hquiet
    intro connectionId hleaf
    obtain ⟨d, hd, hleaf⟩ := List.mem_flatMap.1 hleaf
    exact (hlater d hd).no_disconnect connectionId hleaf

/-- Hearing from the peer changes nothing for a datagram that comes at the same time. -/
theorem Plain.handleEach_touched (h : s.Plain) (codec : Codec) (now : Nat) (seed : UInt32) {datagrams : List Bytes}
    (hne : datagrams ≠ []) (hinner : ∀ datagram ∈ datagrams, IsInner datagram) :
    (s.touched now).handleEach codec now seed datagrams = s.handleEach codec now seed datagrams := by
  cases datagrams with
  | nil => exact absurd rfl hne
  | cons datagram datagrams =>
    have hhandle : (s.touched now).handle codec now seed datagram = s.handle codec now seed datagram := by
      obtain ⟨opcode, body, rfl⟩ := Packet.exists_opcode (hinner datagram List.mem_cons_self).two_le
      have hopcode := (hinner _ List.mem_cons_self).opcode_ne
      have hagain : ({ (s.touched now).awake with lastActivity := now } : Session) = s.touched now :=
        (h.heard now).touched_eq
      have honce : ({ s.awake with lastActivity := now } : Session) = s.touched now := rfl
      rw [(h.touched now).handle codec now seed hopcode body, h.handle codec now seed hopcode body, receive, receive,
        hagain, honce]
    simp only [Session.handleEach, hhandle]

/-- A container is taken as its packets are one behind the other: the session is the same, the messages are those of
all of them, and the datagrams are theirs, but for the acknowledgements of those that make the expected number move
on, which the last one stands for at the end. -/
theorem handle_container (codec : Codec) (now : Nat) (seed : UInt32) (s : Session) (hopen : s.isOver = false)
    (hpasses : s.filter = .passThrough) {packets : List Bytes} (hne : packets ≠ [])
    (hinner : ∀ packet ∈ packets, packet.length ≤ 65535 ∧ IsInner packet)
    (hok : ∀ reaction ∈ (s.handleEach codec now seed packets).2, reaction.result.isOk) :
    ∃ records, packets.mapM Record.encode = .ok records ∧
      let whole := s.handle codec now seed (Packet.container records)
      let each := s.handleEach codec now seed packets
      whole.session = each.1 ∧
      whole.result = .ok (each.2.flatMap Reaction.messages) ∧
      (∀ reaction ∈ each.2, reaction.sent = reaction.own ++ reaction.acknowledgements) ∧
      whole.sent = each.2.flatMap Reaction.own ++ (each.2.flatMap Reaction.acknowledgements).getLast?.toList := by
  have hplain : s.Plain := ⟨hopen, hpasses⟩
  obtain ⟨records, hrecords⟩ := Record.mapM_encode_eq_ok fun packet hpacket =>
    Nat.lt_succ_of_le (hinner packet hpacket).1
  refine ⟨records, hrecords, ?_⟩
  intro whole each
  have heach : (s.touched now).handleEach codec now seed packets = each :=
    hplain.handleEach_touched codec now seed hne fun packet hpacket => (hinner packet hpacket).2
  have hall := (hplain.heard now).comprises codec seed (fun packet hpacket => (hinner packet hpacket).2)
    (by rw [heach]; exact hok)
  rw [heach, ← Packet.leaves_container hrecords] at hall
  have hwhole : whole = ((s.touched now).reactAll now (Packet.leaves (Packet.container records))).acknowledged := by
    have hhandle : whole = s.awake.receive now (Packet.container records) :=
      hplain.handle codec now seed (by decide) records.flatten
    rw [hhandle]
    exact receive_eq_acknowledged hall.result
  rw [hwhole]
  refine ⟨hall.session, hall.result, hall.acknowledged, ?_⟩
  rw [Reaction.acknowledged, hall.last, ← hall.sent]

/-- A message, a container with the next message and a ping, the first message again, and one that comes early. -/
theorem handle_container_nested :
    let codec : Codec := ⟨fun _ => none, fun _ _ => none⟩
    let s := create ⟨.v4 127 0 0 1, 20260⟩ {} 0
    let packets : List Bytes := [[0, 9, 0, 0, 1, 2, 3], [0, 3, 5, 0, 9, 0, 1, 4, 2, 0, 6], [0, 9, 0, 0, 1, 2, 3],
      [0, 9, 0, 5, 6]]
    let each := s.handleEach codec 1 0 packets
    (∀ packet ∈ packets, packet.length ≤ 65535 ∧ IsInner packet) ∧
    each.2.map (fun reaction => reaction.sent.map Outbound.packet) =
      [[[0, 0x15, 0, 0]], [[0, 6], [0, 0x15, 0, 1]], [[0, 0x15, 0, 1]], [[0, 0x11, 0, 5]]] ∧
    ∃ records, packets.mapM Record.encode = .ok records ∧
      let whole := s.handle codec 1 0 (Packet.container records)
      whole.session = each.1 ∧
      whole.result = .ok (each.2.flatMap Reaction.messages) ∧
      (∀ reaction ∈ each.2, reaction.sent = reaction.own ++ reaction.acknowledgements) ∧
      whole.sent = each.2.flatMap Reaction.own ++ (each.2.flatMap Reaction.acknowledgements).getLast?.toList := by
  intro codec s packets each
  have hinner : ∀ packet ∈ packets, packet.length ≤ 65535 ∧ IsInner packet := by decide +kernel
  have hok : each.2.all fun reaction => reaction.result.isOk := by decide +kernel
  refine ⟨hinner, by decide +kernel, ?_⟩
  exact handle_container codec 1 0 s rfl rfl (List.cons_ne_nil _ _) hinner (List.all_eq_true.1 hok)

end Session

end GameGateway
