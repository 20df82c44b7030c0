import GameGateway.Proofs.History

/-!
# Answers to datagrams

A datagram makes a session send notices, pings and answers to requests, and packets in flight once more, and nothing
else: `Session.answers_handle`. Only the latter are on a channel.
-/

namespace GameGateway

namespace Packet

/-- The packet opens with the opcode of a channel. -/
def OnChannel (packet : Bytes) : Prop :=
  ∃ channel : Channel, Opcode.bytes channel.opcode <+: packet

theorem onChannel_iff {packet : Bytes} :
    OnChannel packet ↔ Opcode.bytes Opcode.data <+: packet ∨ Opcode.bytes Opcode.fragment <+: packet := by
  constructor
  · rintro ⟨channel, hopens⟩
    cases channel with
    | data => exact Or.inl hopens
    | fragment => exact Or.inr hopens
  · rintro (hopens | hopens)
    · exact ⟨.data, hopens⟩
    · exact ⟨.fragment, hopens⟩

instance (packet : Bytes) : Decidable (OnChannel packet) := decidable_of_iff' _ onChannel_iff

/-- A packet opens with one opcode. -/
theorem opcode_unique {opcode opcode' : UInt16} {packet : Bytes} (h : Opcode.bytes opcode <+: packet)
    (h' : Opcode.bytes opcode' <+: packet) : opcode = opcode' := by
  have hlength : (Opcode.bytes opcode).length = (Opcode.bytes opcode').length := by
    simp [Opcode.bytes]
  have hbytes : Opcode.bytes opcode = Opcode.bytes opcode' :=
    (List.prefix_of_prefix_length_le h h' (Nat.le_of_eq hlength)).eq_of_length hlength
  simpa only [Opcode.bytes, Fixed.decode_encode] using congrArg (Fixed.decode UInt16 .big) hbytes

/-- A packet with another opcode is on no channel. -/
theorem not_onChannel {opcode : UInt16} {packet : Bytes} (h : Opcode.bytes opcode <+: packet)
    (hdata : Opcode.data ≠ opcode) (hfragment : Opcode.fragment ≠ opcode) : ¬ OnChannel packet := by
  rw [onChannel_iff]
  rintro (hopens | hopens)
  · exact hdata (opcode_unique hopens h)
  · exact hfragment (opcode_unique hopens h)

theorem opens_farewell (connectionId : UInt32) (reason : DisconnectReason) :
    Opcode.bytes Opcode.disconnect <+: farewell connectionId reason := by
  rw [farewell, List.append_assoc]
  exact List.prefix_append _ _

theorem not_onChannel_farewell (connectionId : UInt32) (reason : DisconnectReason) :
    ¬ OnChannel (farewell connectionId reason) :=
  not_onChannel (opens_farewell connectionId reason) (by decide) (by decide)

/-- The opcodes of the packets that answer a datagram. -/
def answerOpcodes : List UInt16 :=
  [Opcode.sessionResponse, Opcode.ping, Opcode.acknowledge, Opcode.outOfOrder]

/-- The packet opens with an opcode of answers. -/
def IsAnswer (packet : Bytes) : Prop := ∃ opcode ∈ answerOpcodes, Opcode.bytes opcode <+: packet

theorem isAnswer_append {opcode : UInt16} (h : opcode ∈ answerOpcodes) (rest : Bytes) :
    IsAnswer (Opcode.bytes opcode ++ rest) :=
  ⟨opcode, h, List.prefix_append _ rest⟩

variable {packet : Bytes}

theorem IsAnswer.mem (h : IsAnswer packet) {opcode : UInt16} (hopens : Opcode.bytes opcode <+: packet) :
    opcode ∈ answerOpcodes := by
  obtain ⟨answer, hanswer, hprefix⟩ := h
  rw [opcode_unique hopens hprefix]
  exact hanswer

theorem IsAnswer.not_onChannel (h : IsAnswer packet) : ¬ OnChannel packet := by
  rw [onChannel_iff]
  rintro (hopens | hopens)
  · exact absurd (h.mem hopens) (by decide)
  · exact absurd (h.mem hopens) (by decide)

end Packet

/-- Every notice that a packet causes is an acknowledgement or reports a packet out of order. -/
theorem Receiver.opcode_of_notice {window sequence : UInt16} {item : Item} {r : Receiver}
    {notice : UInt16 × UInt16} (h : (r.arrive window sequence item).notice = some notice) :
    notice.1 = Opcode.acknowledge ∨ notice.1 = Opcode.outOfOrder := by
  have harrives := arrive_arrives window sequence item r
  generalize r.arrive window sequence item = arrival at h harrives
  cases harrives with
  | late before =>
    obtain rfl := Option.some.inj h
    exact Or.inl rfl
  | beyond ahead outside => cases h
  | early ahead inside =>
    obtain rfl := Option.some.inj h
    exact Or.inr rfl
  | violation expected processed => cases h
  | next expected processed => cases h

namespace Session

variable {s s' : Session} {sent sent' : List Outbound}

/-- All that is sent are answers, and packets in flight once more. -/
def Answers (s : Session) (sent : List Outbound) : Prop :=
  ∀ out ∈ sent, Packet.IsAnswer out.packet ∨ out.packet ∈ s.sender.unacked.map SentPacket.data

theorem answers_nil (s : Session) : Answers s [] := by
  intro out hout
  cases hout

theorem Answers.append (h : Answers s sent) (h' : Answers s sent') : Answers s (sent ++ sent') :=
  fun out hout => (List.mem_append.1 hout).elim (h out) (h' out)

/-- What is in flight behind a call that keeps the session was in flight before it. -/
theorem Answers.keeps (h : Answers s' sent) (hkeeps : Keeps s s') : Answers s sent := by
  intro out hout
  exact (h out hout).imp_right fun hdata => Sender.data_subset_of_key_sublist hkeeps.unacked hdata

theorem answers_singleton {opcode : UInt16} (h : opcode ∈ Packet.answerOpcodes) (s : Session) (filter : FilterParams)
    (rest : Bytes) : Answers s [⟨filter, Opcode.bytes opcode ++ rest⟩] := by
  intro out hout
  rw [List.mem_singleton.1 hout]
  exact Or.inl (Packet.isAnswer_append h rest)

/-- All that a packet other than a report makes a session send are answers. -/
theorem isAnswer_react (now : Nat) (s : Session) {packet : Packet}
    (hpacket : ∀ sequence, packet ≠ .outOfOrder sequence) :
    ∀ out ∈ (s.react now packet).sent, Packet.IsAnswer out.packet := by
  intro out hout
  cases packet with
  | disconnect connectionId => cases hout
  | ping =>
    rw [List.mem_singleton.1 hout]
    exact ⟨Opcode.ping, by decide, List.prefix_refl _⟩
  | sequenced channel sequence payload =>
    obtain ⟨notice, hnotice, rfl⟩ := List.mem_map.1 hout
    apply Packet.isAnswer_append
    rcases Receiver.opcode_of_notice (Option.mem_toList.1 hnotice) with hopcode | hopcode
    · rw [hopcode]
      decide
    · rw [hopcode]
      decide
  | acknowledge sequence => cases hout
  | outOfOrder sequence => exact absurd rfl (hpacket sequence)

theorem answers_react (now : Nat) (s : Session) (packet : Packet) : Answers s (s.react now packet).sent := by
  intro out hout
  cases packet with
  | outOfOrder sequence =>
    obtain ⟨data, hdata, rfl⟩ := List.mem_map.1 hout
    exact Or.inr ((Sender.outOfOrder_sublist sequence now s.sender).subset hdata)
  | _ => exact Or.inl (isAnswer_react now s (by simp) out hout)

/-- What packets make a session send, with what they leave of it. -/
theorem carried_answers (now : Nat) : Carried now fun s s' sent => Keeps s s' ∧ Answers s sent where
  nil := fun s => ⟨Keeps.refl s, answers_nil s⟩
  append := fun ⟨hkeeps, hfirst⟩ ⟨hkeeps', hrest⟩ => ⟨hkeeps.trans hkeeps', hfirst.append (hrest.keeps hkeeps)⟩
  touch := fun s => ⟨(carried_keeps now).touch s, answers_nil s⟩
  react := fun s packet => ⟨keeps_react now s packet, answers_react now s packet⟩
  acknowledgement := fun s => ⟨Keeps.refl s, answers_singleton (by decide) s _ _⟩

theorem answers_greet (now : Nat) (seed : UInt32) (s : Session) (request : SessionRequest) :
    Answers s (s.greet now seed request).sent := by
  simp only [greet, SessionRequest.response, List.append_assoc]
  exact answers_singleton (by decide) s _ _

theorem answers_handle (codec : Codec) (now : Nat) (seed : UInt32) (datagram : Bytes) (s : Session) :
    Answers s (s.handle codec now seed datagram).sent := by
  have hhandle : Keeps s (s.handle codec now seed datagram).session ∧
      Answers s (s.handle codec now seed datagram).sent := by
    apply (carried_answers now).handle
    · exact fun s => ⟨keeps_awake s, answers_nil s⟩
    · exact fun s request => ⟨keeps_greet now seed s request, answers_greet now seed s request⟩
  exact hhandle.2

end Session

end GameGateway
