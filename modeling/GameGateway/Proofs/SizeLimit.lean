import GameGateway.Proofs.Conservation
import GameGateway.Proofs.Plain

/-!
# The size of datagrams

No datagram of a session is larger than the two sides agreed on, with its flag and its footer and whatever the
compression makes of its body. The budget of a flush leaves room for the header and the filter, what is sent again was
framed under that budget, and all other packets are shorter than the smallest limit.

## Implementation notes

A packet in flight is sent again under the terms that are in force by then. `Session.Compact` bounds what is in flight
and what waits by these terms, and a request that is answered with fresh ones preserves it only when there is neither.
-/

namespace GameGateway

/-! ## What the filter adds -/

theorem FilterParams.length_footer (params : FilterParams) (packet : Bytes) :
    (params.footer packet).length = params.footerLength := by
  have hwidth : Fixed.width UInt32 = 4 := rfl
  rw [footer, List.length_drop, Fixed.length_encode, hwidth, footerLength]
  omega

namespace Filter

theorem length_lt_of_compressed? {codec : Codec} {params : FilterParams} {body z : Bytes}
    (h : compressed? codec params body = some z) : z.length < body.length := by
  unfold compressed? at h
  split at h
  · obtain ⟨-, hshorter⟩ := Option.filter_eq_some_iff.1 h
    simpa using hshorter
  · cases h

/-- A compressed body is shorter than the plain one, so that only the flag comes on top. -/
theorem length_flagged_le (codec : Codec) (params : FilterParams) (packet : Bytes) :
    (flagged codec params packet).length ≤ packet.length + params.compression.toNat := by
  unfold flagged
  split
  · rename_i hflag
    obtain ⟨hcompression, hlength⟩ := hflag
    rw [hcompression, Bool.toNat_true, List.length_append, List.length_take]
    cases hbody : compressed? codec params (packet.drop 2) with
    | some z =>
      have hshorter := length_lt_of_compressed? hbody
      rw [List.length_drop] at hshorter
      simp only [List.length_append, List.length_singleton]
      omega
    | none =>
      simp only [List.length_append, List.length_drop, List.length_singleton]
      omega
  · exact Nat.le_add_right _ _

/-- A datagram exceeds its packet by the overhead of the filter at most. -/
theorem length_encode_le (codec : Codec) (params : FilterParams) (packet : Bytes) :
    (encode codec params packet).length ≤ packet.length + params.overhead := by
  have hflagged := length_flagged_le codec params packet
  have hfooter : params.footerLength ≤ params.crcLength.toNat := Nat.min_le_left _ _
  rw [encode, List.length_append, FilterParams.length_footer, FilterParams.overhead]
  omega

end Filter

/-! ## What fits a budget -/

theorem SizePrefix.length_of_encode {size : Nat} {front : Bytes} (h : encode size = .ok front) :
    front.length = length size := by
  unfold encode at h
  unfold length
  split at h
  · cases h
    rw [if_pos ‹_›]
    rfl
  · split at h
    · cases h
      rw [if_neg ‹_›, List.length_cons, Fixed.length_encode]
      rfl
    · cases h

namespace Bundle

theorem length_of_encode {message record : Bytes} (h : Record.encode message = .ok record) :
    record.length = cost message := by
  obtain ⟨front, hfront, rfl⟩ := Record.encode_eq_ok_iff.1 h
  rw [List.length_append, SizePrefix.length_of_encode hfront, cost]

theorem size_eq (messages : List Bytes) : size messages = 2 + (messages.map cost).sum := by
  suffices hall : ∀ start, messages.foldl (fun size message => size + cost message) start =
      start + (messages.map cost).sum from hall 2
  induction messages with
  | nil => exact fun start => rfl
  | cons message messages ih =>
    intro start
    rw [List.foldl_cons, ih, List.map_cons, List.sum_cons, Nat.add_assoc]

theorem length_flatten_of_mapM {messages records : List Bytes} (h : messages.mapM Record.encode = .ok records) :
    records.flatten.length = (messages.map cost).sum := by
  have hrecords := Record.forall₂_encode h
  clear h
  induction hrecords with
  | nil => rfl
  | cons hrecord _ ih =>
    rw [List.flatten_cons, List.length_append, length_of_encode hrecord, ih, List.map_cons, List.sum_cons]

/-- A bundle is as long as it was counted. -/
theorem length_pack {messages : List Bytes} {payload : Bytes} (h : pack messages = .ok payload)
    (hlength : messages.length ≠ 1) : payload.length = size messages := by
  obtain ⟨records, hrecords, rfl⟩ := exists_records_of_pack h hlength
  rw [List.length_append, Packet.length_bytes, length_flatten_of_mapM hrecords, size_eq]

end Bundle

theorem Sender.Fits.length_le_of_pack {budget : Nat} {group : List Bytes} {payload : Bytes}
    (h : Fits budget group) (hpack : Bundle.pack group = .ok payload) : payload.length ≤ budget := by
  by_cases hone : group.length = 1
  · obtain ⟨message, rfl⟩ := List.length_eq_one_iff.1 hone
    cases hpack
    exact h.length_le payload List.mem_cons_self
  · rw [Bundle.length_pack hpack hone]
    exact h.size_le hone

namespace Fragment

theorem length_le_of_mem_chunks {size : Nat} {bytes fragment : Bytes} (hsize : 0 < size)
    (h : fragment ∈ chunks size bytes) : fragment.length ≤ size := by
  fun_induction chunks size bytes with
  | case1 => cases h
  | case2 b bs ih =>
    rcases List.mem_cons.1 h with rfl | h
    · rw [List.length_cons, List.length_take]
      omega
    · exact ih h

theorem length_le_of_mem_split {message fragment : Bytes} {limit : Nat} {fragments : List Bytes}
    (h : split message limit = .ok fragments) (hmem : fragment ∈ fragments) : fragment.length ≤ limit := by
  obtain ⟨hlimit, hsize, hmax⟩ := of_split_eq_ok h
  have hwidth : Fixed.width UInt32 = totalLength := rfl
  rw [split_eq_ok hlimit hsize hmax] at h
  cases h
  rcases List.mem_cons.1 hmem with rfl | hmem
  · rw [List.length_append, Fixed.length_encode, hwidth, List.length_take]
    omega
  · exact length_le_of_mem_chunks (Nat.lt_of_le_of_lt (Nat.zero_le _) hlimit) hmem

end Fragment

/-! ## What a sender keeps -/

namespace Sender

/-- Every packet in flight is within a limit, and every fragment that waits will be. -/
structure Bounded (limit : Nat) (s : Sender) : Prop where
  unacked : ∀ data ∈ s.unacked.map SentPacket.data, data.length ≤ limit
  fragments : ∀ fragment ∈ s.fragments, Packet.headerLength + fragment.length ≤ limit

variable {limit budget window now : Nat} {packets : List Bytes} {s s' : Sender}

theorem bounded_of_idle (hunacked : s.unacked = []) (hfragments : s.fragments = []) : Bounded limit s := by
  constructor
  · simp [hunacked]
  · simp [hfragments]

/-- Releasing packets and sending others again. -/
theorem Bounded.of_subset (h : Bounded limit s)
    (hunacked : s'.unacked.map SentPacket.data ⊆ s.unacked.map SentPacket.data)
    (hfragments : s'.fragments ⊆ s.fragments) : Bounded limit s' where
  unacked := fun data hdata => h.unacked data (hunacked hdata)
  fragments := fun fragment hfragment => h.fragments fragment (hfragments hfragment)

theorem length_packet (channel : Channel) (payload : Bytes) (s : Sender) :
    (s.packet channel payload).length = Packet.headerLength + payload.length := by
  rw [packet, List.length_append, Packet.length_header]

theorem Bounded.frame (h : Bounded limit s) {payload : Bytes}
    (hpayload : Packet.headerLength + payload.length ≤ limit) (channel : Channel) (now : Nat) :
    Bounded limit (s.frame channel payload now) := by
  constructor
  · intro data hdata
    rw [Sender.frame, List.map_append] at hdata
    rcases List.mem_append.1 hdata with hold | hnew
    · exact h.unacked data hold
    · rw [List.mem_singleton.1 hnew, length_packet]
      exact hpayload
  · exact h.fragments

/-- A packet that may be framed joins those that a flush frames behind it. -/
theorem within_cons {packet : Bytes} (h : packet.length ≤ limit) (hrest : ∀ p ∈ packets, p.length ≤ limit) :
    ∀ p ∈ packet :: packets, p.length ≤ limit := by
  intro p hp
  rcases List.mem_cons.1 hp with rfl | hp
  · exact h
  · exact hrest p hp

/-- What a flush frames, and what it leaves, is within every limit that its budget respects. -/
theorem Flushes.bounded (hf : Flushes budget window now s packets s')
    (hbudget : Packet.headerLength + budget ≤ limit) (h : Bounded limit s) :
    Bounded limit s' ∧ ∀ packet ∈ packets, packet.length ≤ limit := by
  induction hf with
  | done s => exact ⟨h, by simp⟩
  | @fragment s s' fragment fragments packets room waiting tail ih =>
    have hfragment : Packet.headerLength + fragment.length ≤ limit := by
      apply h.fragments
      rw [waiting]
      exact List.mem_cons_self
    have hpopped : Bounded limit { s with fragments } := by
      refine h.of_subset (List.Subset.refl _) ?_
      rw [waiting]
      exact List.subset_cons_self _ _
    obtain ⟨hleft, hpackets⟩ := ih (hpopped.frame hfragment .fragment now)
    refine ⟨hleft, within_cons ?_ hpackets⟩
    rw [length_packet]
    exact hfragment
  | @bundle s s' group queued packets payload room idle front fits pack tail ih =>
    have hpayload : Packet.headerLength + payload.length ≤ limit :=
      calc
        Packet.headerLength + payload.length ≤ Packet.headerLength + budget :=
          Nat.add_le_add_left (fits.length_le_of_pack pack) _
        _ ≤ limit := hbudget
    have hpopped : Bounded limit { s with queued } := ⟨h.unacked, h.fragments⟩
    obtain ⟨hleft, hpackets⟩ := ih (hpopped.frame hpayload .data now)
    refine ⟨hleft, within_cons ?_ hpackets⟩
    rw [length_packet]
    exact hpayload
  | loseGroup room idle front fits pack tail ih => exact ih ⟨h.unacked, h.fragments⟩
  | cut room idle front large split tail ih =>
    apply ih
    constructor
    · exact h.unacked
    · intro fragment hfragment
      have hlength := Fragment.length_le_of_mem_split split hfragment
      omega
  | loseMessage room idle front large split tail ih => exact ih ⟨h.unacked, h.fragments⟩

end Sender

/-! ## What a session sends -/

namespace Session

/-- The largest packet that a datagram has room for. -/
def packetLimit (s : Session) : Nat := s.maxUdpSize.toNat - s.filter.overhead

/-- What is in flight and what waits has room in a datagram on the terms in force, and so has every packet that is
neither. -/
structure Compact (s : Session) : Prop where
  crc : s.config.crcLength.toNat ≤ maxCrcLength.toNat
  overhead : s.filter.overhead ≤ maxCrcLength.toNat + 1
  size : minUdpSize.toNat ≤ s.maxUdpSize.toNat
  sender : s.sender.Bounded s.packetLimit

variable {codec : Codec} {s s' s'' : Session} {sent sent' : List Outbound}

theorem compact_create (endpoint : Endpoint) {config : ProtocolConfig} (now : Nat)
    (hsize : minUdpSize.toNat ≤ config.maxUdpSize.toNat) (hcrc : config.crcLength.toNat ≤ maxCrcLength.toNat) :
    (create endpoint config now).Compact where
  crc := hcrc
  overhead := Nat.zero_le _
  size := hsize
  sender := Sender.bounded_of_idle rfl rfl

/-- The longest packet that is not sequenced, the farewell, is below every limit. -/
theorem Compact.le_packetLimit (h : s.Compact) {packet : Bytes} (hlength : packet.length ≤ 8) :
    packet.length ≤ s.packetLimit := by
  have hoverhead : s.filter.overhead ≤ 5 := h.overhead
  have hsize : 64 ≤ s.maxUdpSize.toNat := h.size
  rw [packetLimit]
  omega

theorem Compact.notice_le (h : s.Compact) (opcode sequence : UInt16) :
    (Packet.notice opcode sequence).length ≤ s.packetLimit := by
  apply h.le_packetLimit
  rw [Packet.notice, List.length_append, Packet.length_bytes, Fixed.length_encode]
  decide

/-- The budget of a flush leaves room for the header. -/
theorem Compact.budget_le (h : s.Compact) : Packet.headerLength + s.budget ≤ s.packetLimit := by
  have hoverhead : s.filter.overhead ≤ 5 := h.overhead
  have hsize : 64 ≤ s.maxUdpSize.toNat := h.size
  rw [budget, packetLimit, Packet.headerLength]
  omega

theorem Compact.length_wire_le (h : s.Compact) (codec : Codec) {packet : Bytes}
    (hlength : packet.length ≤ s.packetLimit) :
    ((s.outbound packet).wire codec).length ≤ s.maxUdpSize.toNat := by
  have hroom : s.filter.overhead ≤ s.maxUdpSize.toNat := by
    have hoverhead : s.filter.overhead ≤ 5 := h.overhead
    have hsize : 64 ≤ s.maxUdpSize.toNat := h.size
    omega
  calc
    ((s.outbound packet).wire codec).length ≤ packet.length + s.filter.overhead :=
      Filter.length_encode_le codec s.filter packet
    _ ≤ s.packetLimit + s.filter.overhead := Nat.add_le_add_right hlength _
    _ = s.maxUdpSize.toNat := Nat.sub_add_cancel hroom

/-- A call leaves the terms in force and sends nothing beyond them. -/
structure Abides (codec : Codec) (s s' : Session) (sent : List Outbound) : Prop where
  compact : s'.Compact
  terms : s'.filter = s.filter ∧ s'.maxUdpSize = s.maxUdpSize
  within : ∀ out ∈ sent, (out.wire codec).length ≤ s.maxUdpSize.toNat

theorem Abides.trans (h : Abides codec s s' sent) (h' : Abides codec s' s'' sent') :
    Abides codec s s'' (sent ++ sent') where
  compact := h'.compact
  terms := ⟨h'.terms.1.trans h.terms.1, h'.terms.2.trans h.terms.2⟩
  within := by
    intro out hout
    rcases List.mem_append.1 hout with hout | hout
    · exact h.within out hout
    · rw [← h.terms.2]
      exact h'.within out hout

/-- A call that leaves settings and terms, and adds nothing to the sending side. -/
theorem Compact.abides (h : s.Compact) (codec : Codec) (packets : List Bytes) (hconfig : s'.config = s.config)
    (hfilter : s'.filter = s.filter) (hsize : s'.maxUdpSize = s.maxUdpSize)
    (hsender : s'.sender.Bounded s.packetLimit) (hpackets : ∀ packet ∈ packets, packet.length ≤ s.packetLimit) :
    Abides codec s s' (packets.map s.outbound) := by
  have hlimit : s'.packetLimit = s.packetLimit := by rw [packetLimit, hfilter, hsize, packetLimit]
  constructor
  · constructor
    · rw [hconfig]
      exact h.crc
    · rw [hfilter]
      exact h.overhead
    · rw [hsize]
      exact h.size
    · rw [hlimit]
      exact hsender
  · exact ⟨hfilter, hsize⟩
  · intro out hout
    obtain ⟨packet, hpacket, rfl⟩ := List.mem_map.1 hout
    exact h.length_wire_le codec (hpackets packet hpacket)

/-- A call that sends nothing and leaves the sending side. -/
theorem Compact.abides_nil (h : s.Compact) (codec : Codec) (hconfig : s'.config = s.config)
    (hfilter : s'.filter = s.filter) (hsize : s'.maxUdpSize = s.maxUdpSize)
    (hsender : s'.sender.Bounded s.packetLimit) : Abides codec s s' [] :=
  h.abides codec [] hconfig hfilter hsize hsender (by simp)

theorem abides_disconnect (h : s.Compact) (codec : Codec) : Abides codec s s.disconnect [] :=
  h.abides_nil codec rfl rfl rfl (Sender.bounded_of_idle rfl rfl)

theorem abides_close (h : s.Compact) (codec : Codec) (reason : DisconnectReason) :
    Abides codec s (s.close reason).1 (s.close reason).2.1 := by
  unfold close
  split
  · exact h.abides_nil codec rfl rfl rfl h.sender
  · refine h.abides codec [Packet.farewell s.connectionId reason] rfl rfl rfl
      (Sender.bounded_of_idle rfl rfl) fun packet hpacket => ?_
    rw [List.mem_singleton.1 hpacket]
    apply h.le_packetLimit
    exact Nat.le_refl 8

theorem abides_acknowledgement (h : s.Compact) (codec : Codec) : Abides codec s s [s.acknowledgement] := by
  refine h.abides codec [Packet.notice Opcode.acknowledge (s.receiver.next - 1)] rfl rfl rfl h.sender
    fun packet hpacket => ?_
  rw [List.mem_singleton.1 hpacket]
  exact h.notice_le _ _

theorem abides_react (h : s.Compact) (codec : Codec) (now : Nat) (packet : Packet) :
    Abides codec s (s.react now packet).session (s.react now packet).sent := by
  cases packet with
  | disconnect connectionId =>
    simp only [react]
    split
    · exact abides_disconnect h codec
    · exact h.abides_nil codec rfl rfl rfl h.sender
  | ping =>
    refine h.abides codec [Packet.pong] rfl rfl rfl h.sender fun packet hpacket => ?_
    rw [List.mem_singleton.1 hpacket]
    apply h.le_packetLimit
    decide
  | sequenced channel sequence payload =>
    let arrival := s.receiver.arrive s.config.windowSize sequence ⟨channel, payload⟩
    let notices := arrival.notice.toList.map fun notice => Packet.notice notice.1 notice.2
    have hnotices : ∀ packet ∈ notices, packet.length ≤ s.packetLimit := by
      intro packet hpacket
      obtain ⟨notice, -, rfl⟩ := List.mem_map.1 hpacket
      exact h.notice_le _ _
    have habides : Abides codec s { s with receiver := arrival.receiver } (notices.map s.outbound) :=
      h.abides codec notices rfl rfl rfl h.sender hnotices
    rw [List.map_map] at habides
    exact habides
  | acknowledge sequence =>
    have hsubset := Sender.data_subset_of_key_sublist
      (Sender.map_key_acknowledge_sublist sequence s.sender)
    exact h.abides_nil codec rfl rfl rfl (h.sender.of_subset hsubset (List.Subset.refl _))
  | outOfOrder sequence =>
    have hsubset := Sender.data_subset_of_key_sublist
      (Sender.map_key_outOfOrder_sublist sequence now s.sender)
    refine h.abides codec _ rfl rfl rfl (h.sender.of_subset hsubset (List.Subset.refl _)) fun packet hpacket => ?_
    exact h.sender.unacked packet ((Sender.outOfOrder_sublist sequence now s.sender).subset hpacket)

theorem carried_abides (codec : Codec) (now : Nat) :
    Carried now fun s s' sent => s.Compact → Abides codec s s' sent where
  nil := fun _ h => h.abides_nil codec rfl rfl rfl h.sender
  append := fun hfirst hrest h => (hfirst h).trans (hrest (hfirst h).compact)
  touch := fun _ h => h.abides_nil codec rfl rfl rfl h.sender
  react := fun _ packet h => abides_react h codec now packet
  acknowledgement := fun _ h => abides_acknowledgement h codec

theorem abides_awake (h : s.Compact) (codec : Codec) : Abides codec s s.awake [] := by
  unfold awake
  split
  · exact h.abides_nil codec rfl rfl rfl h.sender
  · exact h.abides_nil codec rfl rfl rfl h.sender

theorem abides_update (h : s.Compact) (codec : Codec) (now : Nat) :
    Abides codec s (s.update now).session (s.update now).sent := by
  have hlooked : (s.looked now).Bounded s.packetLimit := by
    refine h.sender.of_subset (Sender.data_subset_of_key_sublist ?_) (List.Subset.refl _)
    simp [looked, lookThrough, Sender.map_key_resend]
  rcases update_cases now s with ⟨-, hsent, -, hgiven | hgiven⟩ | ⟨-, -, hflushed⟩
  · rw [hsent, hgiven]
    exact h.abides_nil codec rfl rfl rfl h.sender
  · rw [hsent, hgiven]
    exact h.abides_nil codec rfl rfl rfl hlooked
  · have hflushes := Sender.flush_flushes s.budget s.config.windowSize.toNat now (s.looked now)
    obtain ⟨hleft, hframed⟩ := hflushes.bounded h.budget_le hlooked
    rw [hflushed]
    refine h.abides codec _ rfl rfl rfl hleft fun packet hpacket => ?_
    rcases List.mem_append.1 hpacket with hdue | hpacket
    · exact h.sender.unacked packet ((Sender.due_resend_sublist _ now _ _).subset hdue)
    · exact hframed packet hpacket

/-- What a call leaves is compact, and what it sends is within the limit that holds after it. -/
def Holds (codec : Codec) (s' : Session) (sent : List Outbound) : Prop :=
  s'.Compact ∧ ∀ out ∈ sent, (out.wire codec).length ≤ s'.maxUdpSize.toNat

theorem holds_nil (h : s'.Compact) : Holds codec s' [] := ⟨h, by simp⟩

theorem Abides.holds (h : Abides codec s s' sent) : Holds codec s' sent := by
  refine ⟨h.compact, ?_⟩
  rw [h.terms.2]
  exact h.within

theorem length_response (connectionId : UInt32) (filter : FilterParams) (maxUdpSize : UInt32) :
    (SessionRequest.response connectionId filter maxUdpSize).length = 17 := by
  simp only [SessionRequest.response, List.length_append, Packet.length_bytes, Fixed.length_encode, List.length_cons,
    List.length_nil]
  decide

/-- Fresh terms hold from now on, for a session that has nothing in flight and no fragment that waits. -/
theorem Compact.negotiate (h : s.Compact) (hunacked : s.sender.unacked = []) (hfragments : s.sender.fragments = [])
    (seed : UInt32) (request : SessionRequest) : (s.negotiate seed request).Compact where
  crc := h.crc
  overhead := Nat.add_le_add h.crc (Bool.toNat_le _)
  size := by
    have hclamp := toNat_clamp request.maxUdpSize s.config.maxUdpSize minUdpSize
    simp only [Session.negotiate, hclamp]
    exact Nat.le_max_right _ _
  sender := Sender.bounded_of_idle hunacked hfragments

theorem holds_greet (h : s.Compact) (codec : Codec) (now : Nat) (seed : UInt32) (request : SessionRequest)
    (hclean : s.negotiates request = true → s.sender.unacked = [] ∧ s.sender.fragments = []) :
    Holds codec (s.greet now seed request).session (s.greet now seed request).sent := by
  have hcompact : (s.greet now seed request).session.Compact := by
    simp only [greet]
    split
    · rename_i hfresh
      obtain ⟨hunacked, hfragments⟩ := hclean hfresh
      have hnegotiated := h.negotiate hunacked hfragments seed request
      exact ⟨hnegotiated.crc, hnegotiated.overhead, hnegotiated.size, hnegotiated.sender⟩
    · exact ⟨h.crc, h.overhead, h.size, h.sender⟩
  refine ⟨hcompact, fun out hout => ?_⟩
  have hsize : 64 ≤ (s.greet now seed request).session.maxUdpSize.toNat := hcompact.size
  rw [List.mem_singleton.1 hout, Outbound.wire, Filter.encode_passThrough, length_response]
  omega

/-- A request that is answered with fresh terms finds nothing in flight and no fragment that waits. -/
def Event.IsClean (s : Session) : Event → Prop
  | .handle _ _ datagram => s.drawsSeed datagram = true → s.sender.unacked = [] ∧ s.sender.fragments = []
  | _ => True

theorem awake_eq (s : Session) : s.awake = { s with phase := s.awake.phase } := by
  unfold awake
  split
  · rfl
  · rfl

theorem holds_handle (h : s.Compact) (codec : Codec) (now : Nat) (seed : UInt32) (datagram : Bytes)
    (hclean : Event.IsClean s (.handle now seed datagram)) :
    Holds codec (s.handle codec now seed datagram).session (s.handle codec now seed datagram).sent := by
  have hawake := abides_awake h codec
  rcases handle_cases codec now seed datagram s with
    hcase | ⟨hopen, hcase | ⟨request, hparse, hcase⟩ | ⟨packet, -, hcase⟩⟩
  · rw [hcase]
    exact (h.abides_nil codec rfl rfl rfl h.sender).holds
  · rw [hcase]
    exact hawake.holds
  · rw [hcase]
    apply holds_greet hawake.compact
    intro hfresh
    rw [awake_eq] at hfresh ⊢
    apply hclean
    rw [drawsSeed, hopen, hparse]
    exact hfresh
  · rw [hcase]
    exact (hawake.trans ((carried_abides codec now).receive packet s.awake hawake.compact)).holds

/-- What every call sends is within the limit, and the next one finds the session compact. -/
theorem Compact.step (codec : Codec) {h : History} (hcompact : h.session.Compact) (event : Event)
    (hclean : event.IsClean h.session) :
    ∃ sent, (h.step codec event).sent = h.sent ++ sent ∧ Holds codec (h.step codec event).session sent := by
  cases event with
  | queue message =>
    refine ⟨[], (List.append_nil _).symm, holds_nil ?_⟩
    simp only [History.step, Session.queue]
    split
    · exact hcompact
    · exact ⟨hcompact.crc, hcompact.overhead, hcompact.size, ⟨hcompact.sender.unacked, hcompact.sender.fragments⟩⟩
  | connect accountId playerId =>
    refine ⟨[], (List.append_nil _).symm, holds_nil ?_⟩
    simp only [History.step, Session.connect]
    split
    · exact hcompact
    · exact ⟨hcompact.crc, hcompact.overhead, hcompact.size, hcompact.sender⟩
  | close reason => exact ⟨_, rfl, (abides_close hcompact codec reason).holds⟩
  | update now => exact ⟨_, rfl, (abides_update hcompact codec now).holds⟩
  | handle now seed datagram => exact ⟨_, rfl, holds_handle hcompact codec now seed datagram hclean⟩
  | finish =>
    refine ⟨[], (List.append_nil _).symm, holds_nil ?_⟩
    exact ⟨hcompact.crc, hcompact.overhead, hcompact.size, Sender.bounded_of_idle rfl rfl⟩

/-- Every request of a run is clean. -/
def History.RunsClean (codec : Codec) : History → List Event → Prop
  | _, [] => True
  | h, event :: events => event.IsClean h.session ∧ (h.step codec event).RunsClean codec events

/-- A run whose requests are clean finds the session compact at every call, and the call clean. -/
theorem Compact.run (codec : Codec) {h : History} (hcompact : h.session.Compact) {before after : List Event}
    {event : Event} (hclean : h.RunsClean codec (before ++ event :: after)) :
    (h.run codec before).session.Compact ∧ event.IsClean (h.run codec before).session := by
  induction before generalizing h with
  | nil => exact ⟨hcompact, hclean.1⟩
  | cons first before ih =>
    obtain ⟨hfirst, hrest⟩ := hclean
    obtain ⟨sent, -, hnext, -⟩ := hcompact.step codec first hfirst
    exact ih hnext hrest

/-- Whatever a peer sends and however its bodies are compressed, every datagram of a session is within the size that
holds at that time, as long as fresh terms are agreed on only while nothing is in flight and no fragment waits. -/
theorem datagrams_within_limit (codec : Codec) (endpoint : Endpoint) (config : ProtocolConfig) (start : Nat)
    (events : List Event) (hsize : minUdpSize ≤ config.maxUdpSize) (hcrc : config.crcLength ≤ maxCrcLength)
    (hclean : (History.start endpoint config start).RunsClean codec events) (before after : List Event) (event : Event)
    (hevents : events = before ++ event :: after) :
    let h := (History.start endpoint config start).run codec before
    ∃ sent, (h.step codec event).sent = h.sent ++ sent ∧
      ∀ out ∈ sent, (out.wire codec).length ≤ (h.step codec event).session.maxUdpSize.toNat := by
  intro h
  have hcreated : (History.start endpoint config start).session.Compact :=
    compact_create endpoint start (UInt32.le_iff_toNat_le.1 hsize) (UInt8.le_iff_toNat_le.1 hcrc)
  rw [hevents] at hclean
  obtain ⟨hcompact, hevent⟩ := hcreated.run codec hclean
  obtain ⟨sent, hsent, -, hwithin⟩ := hcompact.step codec event hevent
  exact ⟨sent, hsent, hwithin⟩

/-- The smallest size: with the flag, the first fragment of a message fills its datagram. -/
theorem datagrams_within_limit_filled :
    let codec : Codec := ⟨fun _ => none, fun _ _ => none⟩
    let config : ProtocolConfig := { maxUdpSize := 500, crcLength := 0, compression := true }
    let start := History.start ⟨.v4 127 0 0 1, 20260⟩ config 0
    let before : List Event := [.handle 0 9 [0, 1, 0, 0, 0, 3, 0, 0, 0, 5, 0, 0, 0, 64],
      .queue (List.replicate 60 7), .queue [1, 2]]
    let h := start.run codec before
    minUdpSize ≤ config.maxUdpSize ∧ start.RunsClean codec (before ++ [.update 1]) ∧
    (h.step codec (.update 1)).sent.map (fun out => out.packet.length) = [17, 63, 9, 6] ∧
    ∃ sent, (h.step codec (.update 1)).sent = h.sent ++ sent ∧ ∀ out ∈ sent, (out.wire codec).length ≤ 64 := by
  intro codec config start before h
  have hclean : start.RunsClean codec (before ++ [.update 1]) :=
    ⟨fun _ => ⟨rfl, rfl⟩, trivial, trivial, trivial, trivial⟩
  have hsize : (h.step codec (.update 1)).session.maxUdpSize.toNat = 64 := by cbv
  have hlimit := datagrams_within_limit codec ⟨.v4 127 0 0 1, 20260⟩ config 0 (before ++ [.update 1])
    (by decide) (by decide) hclean before [] (.update 1) rfl
  refine ⟨by decide, hclean, by cbv, ?_⟩
  rw [← hsize]
  exact hlimit

end Session

end GameGateway
