import GameGateway.Proofs.Stream
import GameGateway.Session

/-!
# Sessions before the handshake

While the packets of a session pass unfiltered, its datagrams are its packets. What the three kinds of
packets that two sessions exchange do to such a session is said here, one lemma for each kind.
-/

namespace GameGateway

namespace Filter

@[simp] theorem encode_passThrough (codec : Codec) (packet : Bytes) :
    encode codec .passThrough packet = packet := by
  have hflagged : flagged codec .passThrough packet = packet := by
    simp [flagged, FilterParams.passThrough]
  have hfooter : FilterParams.passThrough.footer packet = [] := by
    apply List.drop_eq_nil_of_le
    rw [Fixed.length_encode]
    decide
  rw [encode, hflagged, hfooter, List.append_nil]

theorem decode_passThrough (codec : Codec) {datagram : Bytes} (h : 2 ≤ datagram.length) :
    decode codec .passThrough datagram = .ok datagram := by
  have hlength : FilterParams.passThrough.footerLength = 0 := rfl
  have hfooter : ∀ packet, FilterParams.passThrough.footer packet = [] := by
    intro packet
    apply List.drop_eq_nil_of_le
    rw [Fixed.length_encode]
    decide
  have hunflagged : unflagged codec .passThrough datagram = .ok datagram := by
    simp [unflagged, FilterParams.passThrough]
  have hshort : ¬ datagram.length < 2 + 0 := by omega
  simp only [decode, hlength, hfooter, if_neg hshort, Nat.sub_zero, List.take_length,
    List.drop_length, if_true, hunflagged]

end Filter

namespace Packet

theorem length_bytes (opcode : UInt16) : (Opcode.bytes opcode).length = 2 := Fixed.length_encode ..

theorem bytes_eq (opcode : UInt16) : ∃ high low, Opcode.bytes opcode = [high, low] :=
  ⟨_, _, List.eq_getElem_of_length_eq_two _ (length_bytes opcode)⟩

/-- A packet that is no container is its own only leaf. -/
theorem leaves_of_opcode {opcode : UInt16} (h : opcode ≠ Opcode.multiPacket) (body : Bytes) :
    leaves (Opcode.bytes opcode ++ body) = (parseBody? opcode body).toList := by
  obtain ⟨high, low, hbytes⟩ := bytes_eq opcode
  have hopcode : Fixed.decode UInt16 .big [high, low] = opcode := by
    rw [← hbytes]
    exact Fixed.decode_encode ..
  rw [hbytes, List.cons_append, List.cons_append, List.nil_append, leaves]
  simp only [hopcode, if_neg h]

theorem value?_fixed_encode (sequence : UInt16) :
    (Decoder.fixed UInt16 .big).value? (Fixed.encode .big sequence) = some sequence := by
  have hrun := Decoder.run_fixed_encode .big sequence []
  rw [List.append_nil] at hrun
  rw [Decoder.value?, Decoder.value, hrun]
  rfl

theorem value?_parseSequenced (channel : Channel) (sequence : UInt16) (payload : Bytes) :
    (parseSequenced channel).value? (Fixed.encode .big sequence ++ payload) =
      some (.sequenced channel sequence payload) := by
  have hrun := Decoder.run_fixed_encode .big sequence payload
  rw [Decoder.value?, Decoder.value, parseSequenced, Decoder.run_bind_ok hrun]
  rfl

theorem leaves_packet (item : Item) (sequence : UInt16) :
    leaves (item.packet sequence) = [.sequenced item.channel sequence item.payload] := by
  obtain ⟨channel, payload⟩ := item
  have hopcode : channel.opcode ≠ Opcode.multiPacket := by
    cases channel <;> decide
  have hparse := value?_parseSequenced channel sequence payload
  rw [Item.packet, header, List.append_assoc, leaves_of_opcode hopcode]
  cases channel with
  | data => exact congrArg Option.toList hparse
  | fragment => exact congrArg Option.toList hparse

theorem leaves_acknowledge (sequence : UInt16) :
    leaves (notice Opcode.acknowledge sequence) = [.acknowledge sequence] := by
  rw [notice, leaves_of_opcode (by decide)]
  exact congrArg (fun sequence? => (sequence?.map Packet.acknowledge).toList)
    (value?_fixed_encode sequence)

theorem leaves_outOfOrder (sequence : UInt16) :
    leaves (notice Opcode.outOfOrder sequence) = [.outOfOrder sequence] := by
  rw [notice, leaves_of_opcode (by decide)]
  exact congrArg (fun sequence? => (sequence?.map Packet.outOfOrder).toList)
    (value?_fixed_encode sequence)

end Packet

namespace Session

/-- The session is open and its packets pass unfiltered. -/
structure Plain (s : Session) : Prop where
  isOpen : s.isOver = false
  passes : s.filter = .passThrough

variable {s : Session}

theorem plain_create (endpoint : Endpoint) (config : ProtocolConfig) (now : Nat) :
    (create endpoint config now).Plain where
  isOpen := rfl
  passes := rfl

theorem Plain.awake (h : s.Plain) : s.awake.Plain := by
  obtain ⟨hopen, hpasses⟩ := h
  unfold Session.awake
  split
  · exact ⟨rfl, hpasses⟩
  · exact ⟨hopen, hpasses⟩

/-- The session that has just heard from its peer. -/
def touched (now : Nat) (s : Session) : Session := { s.awake with lastActivity := now }

theorem touched_eq (now : Nat) (s : Session) :
    s.touched now = { s with phase := s.awake.phase, lastActivity := now } := by
  unfold touched Session.awake
  split
  · rfl
  · rfl

@[simp] theorem touched_config (now : Nat) (s : Session) : (s.touched now).config = s.config := by
  rw [touched_eq]

@[simp] theorem touched_sender (now : Nat) (s : Session) : (s.touched now).sender = s.sender := by
  rw [touched_eq]

@[simp] theorem touched_receiver (now : Nat) (s : Session) : (s.touched now).receiver = s.receiver := by
  rw [touched_eq]

@[simp] theorem touched_filter (now : Nat) (s : Session) : (s.touched now).filter = s.filter := by
  rw [touched_eq]

theorem Plain.touched (h : s.Plain) (now : Nat) : (s.touched now).Plain :=
  ⟨h.awake.isOpen, h.awake.passes⟩

/-- A datagram that is no request is acted on as the packet that it is. -/
theorem Plain.handle (h : s.Plain) (codec : Codec) (now : Nat) (seed : UInt32) {opcode : UInt16}
    (hopcode : opcode ≠ Opcode.sessionRequest) (body : Bytes) :
    s.handle codec now seed (Opcode.bytes opcode ++ body) =
      s.awake.receive now (Opcode.bytes opcode ++ body) := by
  have hlength : 2 ≤ (Opcode.bytes opcode ++ body).length := by
    rw [List.length_append, Packet.length_bytes]
    exact Nat.le_add_right ..
  have hopens : SessionRequest.opens (Opcode.bytes opcode ++ body) = false := by
    rw [SessionRequest.opens, List.take_left' (Packet.length_bytes opcode)]
    apply beq_false_of_ne
    intro hbytes
    apply hopcode
    have hdecode := congrArg (Fixed.decode UInt16 .big) hbytes
    simpa only [Opcode.bytes, Fixed.decode_encode] using hdecode
  have hready : ¬ (s.isOver = true ∨ (Opcode.bytes opcode ++ body).length < 2) := by
    rintro (hclosed | hshort)
    · rw [h.isOpen] at hclosed
      cases hclosed
    · exact absurd hlength (Nat.not_le_of_lt hshort)
  simp only [Session.handle, if_neg hready, hopens, h.awake.passes,
    Filter.decode_passThrough codec hlength]
  rfl

/-- A lone packet is acted on, and acknowledged if the expected number moved on. -/
theorem receive_leaf {packet : Bytes} {leaf : Packet} (h : Packet.leaves packet = [leaf])
    (now : Nat) (s : Session) :
    s.awake.receive now packet =
      let reaction := (s.touched now).react now leaf
      match reaction.result with
      | .error _ => reaction
      | .ok _ =>
        if reaction.advanced then
          { reaction with sent := reaction.sent ++ [reaction.session.acknowledgement] }
        else reaction := by
  have htouched : ({ s.awake with lastActivity := now } : Session) = s.touched now := rfl
  simp only [receive, h, reactAll, htouched]
  rcases (s.touched now).react now leaf with ⟨session, sent, v | messages, advanced⟩
  · rfl
  · simp [Except.map]

end Session

/-- All notices that are due: the one that is due at once, and behind it an acknowledgement if the expected
number moved on without a violation. -/
def Receiver.Arrival.notices (a : Receiver.Arrival) : List (UInt16 × UInt16) :=
  a.notice.toList ++
    match a.result with
    | .ok _ => if a.advanced then [(Opcode.acknowledge, a.receiver.next - 1)] else []
    | .error _ => []

namespace Session

variable {s : Session}

/-- The packet of an item is given to the receiver, and the notices are sent. -/
theorem Plain.handle_packet (h : s.Plain) (codec : Codec) (now : Nat) (seed : UInt32) (item : Item)
    (sequence : UInt16) :
    s.handle codec now seed (item.packet sequence) =
      let arrival := s.receiver.arrive s.config.windowSize sequence item
      { session := { s.touched now with receiver := arrival.receiver }
        sent := arrival.notices.map fun notice => s.outbound (Packet.notice notice.1 notice.2)
        result := arrival.result
        advanced := arrival.advanced } := by
  have hopcode : item.channel.opcode ≠ Opcode.sessionRequest := by
    cases item.channel <;> decide
  have hhandle := h.handle codec now seed hopcode (Fixed.encode .big sequence ++ item.payload)
  rw [← List.append_assoc] at hhandle
  refine hhandle.trans ?_
  have hleaf := receive_leaf (Packet.leaves_packet item sequence) now s
  refine hleaf.trans ?_
  simp only [react, touched_config, touched_receiver]
  rcases s.receiver.arrive s.config.windowSize sequence item with
    ⟨receiver, v | messages, notice, advanced⟩
  · cases notice <;> simp [Receiver.Arrival.notices, outbound]
  · cases advanced
    · cases notice <;> simp [Receiver.Arrival.notices, outbound]
    · cases notice <;> simp [Receiver.Arrival.notices, acknowledgement, outbound]

theorem Plain.handle_acknowledge (h : s.Plain) (codec : Codec) (now : Nat) (seed : UInt32)
    (sequence : UInt16) :
    s.handle codec now seed (Packet.notice Opcode.acknowledge sequence) =
      { session := { s.touched now with sender := s.sender.acknowledge sequence } } := by
  have hopcode : Opcode.acknowledge ≠ Opcode.sessionRequest := by decide
  have hhandle := h.handle codec now seed hopcode (Fixed.encode .big sequence)
  refine hhandle.trans ?_
  have hleaf := receive_leaf (Packet.leaves_acknowledge sequence) now s
  refine hleaf.trans ?_
  simp [react]

theorem Plain.handle_outOfOrder (h : s.Plain) (codec : Codec) (now : Nat) (seed : UInt32)
    (sequence : UInt16) :
    s.handle codec now seed (Packet.notice Opcode.outOfOrder sequence) =
      { session := { s.touched now with sender := (s.sender.outOfOrder sequence now).1 }
        sent := (s.sender.outOfOrder sequence now).2.map s.outbound } := by
  have hopcode : Opcode.outOfOrder ≠ Opcode.sessionRequest := by decide
  have hhandle := h.handle codec now seed hopcode (Fixed.encode .big sequence)
  refine hhandle.trans ?_
  have hleaf := receive_leaf (Packet.leaves_outOfOrder sequence) now s
  refine hleaf.trans ?_
  simp [react, outbound]

end Session

end GameGateway
