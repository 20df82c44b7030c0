import GameGateway.Proofs.Conservation
import GameGateway.Proofs.Simulation

/-!
# Two peers

Two sessions that exchange their datagrams before any handshake. `Session.Linked` is what holds of their
histories after every call, whatever is lost, late, doubled or out of order, as long as neither side frames
more than half a circle of sequence numbers.

## Implementation notes

The receiver of each side wraps one that counts without bound. The invariant speaks of that one, so that a
stale notice can be judged by the number that it was sent with.
-/

namespace GameGateway.Session

open Receiver

/-- The item that was framed in a place. -/
def Placed (framed : List Bytes) (i : Nat) (item : Item) : Prop :=
  (framed.map Item.ofPacket)[i]? = some item

/-- A datagram of a side: a packet that it has framed, or a notice about what it has of its peer. -/
inductive Genuine (framed : List Bytes) (r : Unbounded) : Outbound → Prop
  | packet {packet : Bytes} (mem : packet ∈ framed) : Genuine framed r ⟨.passThrough, packet⟩
  | notice {notice : UInt16 × Nat} (justified : r.Justified notice) : Genuine framed r (noticed notice)

/-- What holds of one side, with the receiver that its receiver wraps. -/
structure Faithful (config : ProtocolConfig) (own peer : History) (r : Unbounded) : Prop where
  sound : Sound config own.accepted own.framed own.session
  plain : own.session.Plain
  receiver : own.session.receiver = r.wrap
  settled : r.Settled (Placed peer.framed)
  reads : r.Reads own.delivered
  genuine : ∀ out ∈ own.sent, Genuine own.framed r out
  unviolated : own.violations = []

/-- Every packet that a side has framed is still in flight, or its peer has it. -/
def Kept (own : History) (r : Unbounded) : Prop :=
  ∀ i packet, own.framed[i]? = some packet →
    (UInt16.ofNat i, packet) ∈ own.session.sender.unacked.map SentPacket.key ∨ r.Has i

/-- What holds of both sides together. -/
structure Linked (config : ProtocolConfig) (own peer : History) (r r' : Unbounded) : Prop where
  ownFaithful : Faithful config own peer r
  peerFaithful : Faithful config peer own r'
  ownKept : Kept own r'
  peerKept : Kept peer r

variable {config : ProtocolConfig} {own peer : History} {r r' : Unbounded} {framed packets : List Bytes}

theorem Linked.symm (h : Linked config own peer r r') : Linked config peer own r' r :=
  ⟨h.peerFaithful, h.ownFaithful, h.peerKept, h.ownKept⟩

/-! ## What has come of a stream -/

theorem Placed.append {i : Nat} {item : Item} (h : Placed framed i item) :
    Placed (framed ++ packets) i item := by
  rw [Placed, List.map_append]
  exact List.getElem?_append_left (List.getElem?_eq_some_iff.1 h).1 ▸ h

theorem Placed.lt {i : Nat} {item : Item} (h : Placed framed i item) : i < framed.length := by
  obtain ⟨hi, -⟩ := List.getElem?_eq_some_iff.1 h
  simpa using hi

theorem prefix_of_placed {log : List Item} (h : ∀ i item, log[i]? = some item → Placed framed i item) :
    log <+: framed.map Item.ofPacket := by
  rw [List.prefix_iff_getElem?]
  intro i hi
  exact h i log[i] (List.getElem?_eq_getElem hi)

/-- A receiver expects at most the number behind the last packet. -/
theorem count_le_length (h : r.Settled (Placed framed)) : r.count ≤ framed.length := by
  have hprefix := (prefix_of_placed h.log).length_le
  simpa [Unbounded.count] using hprefix

/-- A receiver has framed packets only. -/
theorem lt_length_of_has {k : Nat} (h : r.Settled (Placed framed)) (hk : r.Has k) :
    k < framed.length := by
  rcases hk with hk | ⟨item, hk⟩
  · exact Nat.lt_of_lt_of_le hk (count_le_length h)
  · exact (h.held _ hk).lt

theorem Genuine.append {out : Outbound} (h : Genuine framed r out) :
    Genuine (framed ++ packets) r out := by
  cases h with
  | packet mem => exact .packet (List.mem_append_left _ mem)
  | notice justified => exact .notice justified

/-- What is justified stays justified behind an arrival without a violation. -/
theorem Genuine.arrive {out : Outbound} {window index : Nat} {item : Item} {a : Unbounded.Arrival}
    {messages : List Bytes} (h : Genuine framed r out) (ha : r.Arrives window index item a)
    (hok : a.result = .ok messages) : Genuine framed a.receiver out := by
  cases h with
  | packet mem => exact .packet mem
  | notice justified =>
    apply Genuine.notice
    rcases justified with ⟨hack, hcount⟩ | ⟨hreport, hhas⟩
    · exact Or.inl ⟨hack, Nat.lt_of_lt_of_le hcount ha.count_le⟩
    · exact Or.inr ⟨hreport, ha.has hhas hok⟩

/-- No packet of a peer is a violation: the packets that it has framed read as whole messages. -/
theorem Faithful.arrive_ok (h : Faithful config own peer r) (hpeer : Faithful config peer own r')
    {index : Nat} {item : Item} (hitem : Placed peer.framed index item)
    (hreach : index ≤ r.count + 32767) (window : Nat) :
    ∃ messages, (r.arrive window index item).result = .ok messages := by
  cases hresult : (r.arrive window index item).result with
  | ok messages => exact ⟨messages, rfl⟩
  | error v =>
    have ha := Unbounded.arrive_arrives window index item r
    obtain ⟨next, hnext, hbreaks⟩ := ha.reads_error h.reads h.settled hitem hresult
    have hsettled := ha.settled h.settled hitem hreach
    have hlog : (r.arrive window index item).receiver.log ++ [next] <+:
        peer.framed.map Item.ofPacket := by
      apply prefix_of_placed
      intro i logged hi
      rcases of_getElem?_concat hi with hi | ⟨rfl, rfl⟩
      · exact hsettled.log i logged hi
      · exact hnext
    obtain ⟨said, hread, -⟩ := hpeer.sound.reads hpeer.plain.isOpen
    obtain ⟨assembly, first, hfirst, -⟩ :=
      consumeAll_of_prefix (hlog.trans (List.prefix_append _ _)) hread
    have hbehind := hbreaks.behind
    rw [hfirst] at hbehind
    cases hbehind

/-! ## Steps -/

/-- A side takes a packet of its peer that is within reach of the expected one. -/
theorem Linked.handle_packet (h : Linked config own peer r r') {i : Nat} {packet : Bytes}
    (hi : peer.framed[i]? = some packet) (hlow : r.count ≤ i + 32768) (hhigh : i ≤ r.count + 32767)
    (codec : Codec) (now : Nat) (seed : UInt32) :
    Linked config (own.step codec (.handle now seed packet)) peer
      (r.arrive config.windowSize.toNat i (Item.ofPacket packet)).receiver r' := by
  obtain ⟨hown, hpeer, hownKept, hpeerKept⟩ := h
  have hplaced : Placed peer.framed i (Item.ofPacket packet) := by
    rw [Placed, List.getElem?_map, hi]
    rfl
  have ha := Unbounded.arrive_arrives config.windowSize.toNat i (Item.ofPacket packet) r
  obtain ⟨messages, hok⟩ := hown.arrive_ok hpeer hplaced hhigh config.windowSize.toNat
  have hsound := hown.sound.step codec (.handle now seed packet)
  have hhandle := hown.plain.handle_item hown.receiver hown.settled hplaced hlow hhigh codec now seed
  rw [← hpeer.sound.ledger.packet i packet hi, hown.sound.config_eq] at hhandle
  simp only [History.step, History.react, hhandle, hok] at hsound ⊢
  constructor
  · constructor
    · exact hsound
    · exact ⟨(hown.plain.touched now).isOpen, (hown.plain.touched now).passes⟩
    · rfl
    · exact ha.settled hown.settled hplaced hhigh
    · exact ha.reads hown.reads hok
    · intro out hout
      rcases List.mem_append.1 hout with hold | hnew
      · exact (hown.genuine out hold).arrive ha hok
      · obtain ⟨notice, hnotice, rfl⟩ := List.mem_map.1 hnew
        exact .notice (ha.justified hnotice)
    · simpa using hown.unviolated
  · exact { hpeer with }
  · intro j framed hj
    rw [touched_sender]
    exact hownKept j framed hj
  · intro j framed hj
    exact (hpeerKept j framed hj).imp id fun hhas => ha.has hhas hok

/-- A call that leaves the receiving side alone and sends packets that were framed. -/
theorem Faithful.of_sender {own' : History} (h : Faithful config own peer r)
    (hsound : Sound config own'.accepted own'.framed own'.session) (hplain : own'.session.Plain)
    (hreceiver : own'.session.receiver = own.session.receiver)
    (hframed : own'.framed = own.framed ++ packets)
    (hsent : ∀ out ∈ own'.sent, out ∈ own.sent ∨
      ∃ packet ∈ own'.framed, out = own.session.outbound packet)
    (hdelivered : own'.delivered = own.delivered) (hviolations : own'.violations = own.violations) :
    Faithful config own' peer r where
  sound := hsound
  plain := hplain
  receiver := hreceiver.trans h.receiver
  settled := h.settled
  reads := hdelivered ▸ h.reads
  genuine := by
    intro out hout
    rcases hsent out hout with hold | ⟨packet, hpacket, rfl⟩
    · rw [hframed]
      exact (h.genuine out hold).append
    · rw [outbound, h.plain.passes]
      exact .packet hpacket
  unviolated := hviolations.trans h.unviolated

/-- A side takes an acknowledgement of its peer, however old, as long as it has framed no more than half a
circle of sequence numbers from the acknowledged one on. -/
theorem Linked.handle_acknowledge (h : Linked config own peer r r') {q : Nat} (hq : q < r'.count)
    (hnear : own.framed.length ≤ q + 32768) (codec : Codec) (now : Nat) (seed : UInt32) :
    Linked config
      (own.step codec (.handle now seed (Packet.notice Opcode.acknowledge (UInt16.ofNat q)))) peer
      r r' := by
  obtain ⟨hown, hpeer, hownKept, hpeerKept⟩ := h
  have hsound := hown.sound.step codec
    (.handle now seed (Packet.notice Opcode.acknowledge (UInt16.ofNat q)))
  have hhandle := hown.plain.handle_acknowledge codec now seed (UInt16.ofNat q)
  simp only [History.step, History.react, hhandle, List.append_nil] at hsound ⊢
  constructor
  · apply hown.of_sender hsound
    · exact ⟨(hown.plain.touched now).isOpen, (hown.plain.touched now).passes⟩
    · exact touched_receiver now own.session
    · exact (List.append_nil own.framed).symm
    · intro out hout
      exact Or.inl hout
    · exact List.append_nil own.delivered
    · rfl
  · exact { hpeer with }
  · intro i packet hi
    have hplace : i < own.framed.length := (List.getElem?_eq_some_iff.1 hi).1
    by_cases hhas : r'.Has i
    · exact Or.inr hhas
    · left
      have hbehind : r'.count ≤ i := Nat.le_of_not_lt fun hlt => hhas (Or.inl hlt)
      have hflight := (hownKept i packet hi).resolve_right hhas
      refine (Sender.mem_acknowledge (UInt16.ofNat q) hflight).resolve_right fun hahead => ?_
      -- what the peer lacks is less than half a circle ahead of what it acknowledges
      have hdistance : Sequence.distance (UInt16.ofNat i) (UInt16.ofNat q) = (q : Int) - i :=
        Sequence.distance_ofNat (by omega) (by omega)
      rw [hdistance] at hahead
      omega
  · exact hpeerKept

/-- A side takes a report of its peer, however old. -/
theorem Linked.handle_outOfOrder (h : Linked config own peer r r') {q : Nat} (hq : r'.Has q)
    (hbound : own.framed.length ≤ 32768) (codec : Codec) (now : Nat) (seed : UInt32) :
    Linked config
      (own.step codec (.handle now seed (Packet.notice Opcode.outOfOrder (UInt16.ofNat q)))) peer
      r r' := by
  obtain ⟨hown, hpeer, hownKept, hpeerKept⟩ := h
  have hreported := lt_length_of_has hpeer.settled hq
  have hsound := hown.sound.step codec
    (.handle now seed (Packet.notice Opcode.outOfOrder (UInt16.ofNat q)))
  have hhandle := hown.plain.handle_outOfOrder codec now seed (UInt16.ofNat q)
  simp only [History.step, History.react, hhandle, List.append_nil] at hsound ⊢
  constructor
  · apply hown.of_sender hsound
    · exact ⟨(hown.plain.touched now).isOpen, (hown.plain.touched now).passes⟩
    · exact touched_receiver now own.session
    · exact (List.append_nil own.framed).symm
    · intro out hout
      refine (List.mem_append.1 hout).imp id fun hnew => ?_
      obtain ⟨packet, hpacket, rfl⟩ := List.mem_map.1 hnew
      refine ⟨packet, ?_, rfl⟩
      apply hown.sound.ledger.mem_framed
      exact (Sender.outOfOrder_sublist _ _ _).subset hpacket
    · exact List.append_nil own.delivered
    · rfl
  · exact { hpeer with }
  · intro i packet hi
    have hplace : i < own.framed.length := (List.getElem?_eq_some_iff.1 hi).1
    rcases hownKept i packet hi with hflight | hhas
    · rcases Sender.mem_outOfOrder (UInt16.ofNat q) now hflight with hkept | hsame
      · exact Or.inl hkept
      · have hiq : i = q := (Sequence.ofNat_inj_of_near (by omega) (by omega)).1 hsame
        exact Or.inr (hiq ▸ hq)
    · exact Or.inr hhas
  · exact hpeerKept

/-- A side queues a message. -/
theorem Linked.queue (h : Linked config own peer r r') (codec : Codec) (message : Bytes) :
    Linked config (own.step codec (.queue message)) peer r r' := by
  obtain ⟨hown, hpeer, hownKept, hpeerKept⟩ := h
  have hsound := hown.sound.step codec (.queue message)
  have hopen : ¬ own.session.isOver = true := by simp [hown.plain.isOpen]
  simp only [History.step, Session.queue, if_neg hopen] at hsound ⊢
  constructor
  · apply hown.of_sender hsound
    · exact ⟨hown.plain.isOpen, hown.plain.passes⟩
    · rfl
    · exact (List.append_nil own.framed).symm
    · intro out hout
      exact Or.inl hout
    · rfl
    · rfl
  · exact { hpeer with }
  · exact hownKept
  · exact hpeerKept

/-- What a side has framed more does not concern the receiver of its peer. -/
theorem Faithful.of_peer {peer' : History} (h : Faithful config own peer r)
    (hframed : peer'.framed = peer.framed ++ packets) : Faithful config own peer' r where
  sound := h.sound
  plain := h.plain
  receiver := h.receiver
  settled := by
    rw [hframed]
    exact h.settled.mono fun _ _ => Placed.append
  reads := h.reads
  genuine := h.genuine
  unviolated := h.unviolated

/-- A flush leaves every packet in flight, or with the peer. -/
theorem Kept.flush {own' : History} {now : Nat} (hkept : Kept own r')
    (hsound : Sound config own.accepted own.framed own.session)
    (hframed : own'.framed = own.framed ++ (own.session.flushed now).2)
    (hsender : own'.session.sender = (own.session.flushed now).1) : Kept own' r' := by
  have hlooked := hsound.keeps (keeps_looked now own.session)
  have hflushes := Sender.flush_flushes own.session.budget own.session.config.windowSize.toNat now
    (own.session.looked now)
  obtain ⟨added, hnumbered, hunacked⟩ := hflushes.unacked_eq hlooked.ledger
  have hkeys : (own.session.looked now).unacked.map SentPacket.key =
      own.session.sender.unacked.map SentPacket.key := Sender.map_key_resend _ _ _ _
  have hflight : (own.session.flushed now).1.unacked.map SentPacket.key =
      own.session.sender.unacked.map SentPacket.key ++ added := by
    rw [← hkeys]
    exact hunacked
  intro i packet hi
  rw [hframed] at hi
  rw [hsender, hflight]
  by_cases hold : i < own.framed.length
  · rw [List.getElem?_append_left hold] at hi
    exact (hkept i packet hi).imp (List.mem_append_left _) id
  · left
    apply List.mem_append_right
    have hplaced : (Sender.numbered (own.framed ++ (own.session.flushed now).2))[i]? =
        some (UInt16.ofNat i, packet) := by
      rw [Sender.getElem?_numbered, hi]
      rfl
    have hbehind : (Sender.numbered own.framed).length ≤ i := by
      simpa [Sender.numbered] using hold
    refine List.mem_of_getElem? (i := i - (Sender.numbered own.framed).length) ?_
    rw [← List.getElem?_append_right hbehind, ← hplaced]
    exact congrArg (·[i]?) hnumbered.symm

/-- A side has its maintenance pass. -/
theorem Linked.update (h : Linked config own peer r r') (codec : Codec) (now : Nat) :
    Linked config (own.step codec (.update now)) peer r r' := by
  obtain ⟨hown, hpeer, hownKept, hpeerKept⟩ := h
  have hsound := hown.sound.step codec (.update now)
  rcases update_cases now own.session with ⟨hframed, hsent, -, hs | hs⟩ | ⟨hopen, hframed, hs⟩
  · simp only [History.step, hframed, hsent, hs, List.append_nil] at hsound ⊢
    exact ⟨{ hown with }, { hpeer with }, hownKept, hpeerKept⟩
  · simp only [History.step, hframed, hsent, hs, List.append_nil] at hsound ⊢
    constructor
    · apply hown.of_sender hsound
      · exact ⟨hown.plain.isOpen, hown.plain.passes⟩
      · rfl
      · exact (List.append_nil own.framed).symm
      · intro out hout
        exact Or.inl hout
      · rfl
      · rfl
    · exact { hpeer with }
    · intro i packet hi
      refine (hownKept i packet hi).imp (fun hflight => ?_) id
      simpa only [looked, lookThrough, Sender.map_key_resend] using hflight
    · exact hpeerKept
  · simp only [History.step, hframed, hs] at hsound ⊢
    constructor
    · apply hown.of_sender hsound
      · exact ⟨hown.plain.isOpen, hown.plain.passes⟩
      · rfl
      · rfl
      · intro out hout
        refine (List.mem_append.1 hout).imp id fun hnew => ?_
        obtain ⟨packet, hpacket, rfl⟩ := List.mem_map.1 hnew
        refine ⟨packet, ?_, rfl⟩
        rcases List.mem_append.1 hpacket with hdue | hfresh
        · apply List.mem_append_left
          apply hown.sound.ledger.mem_framed
          exact (Sender.due_resend_sublist _ _ _ _).subset hdue
        · exact List.mem_append_right _ hfresh
      · rfl
      · rfl
    · exact hpeer.of_peer rfl
    · exact hownKept.flush hown.sound rfl rfl
    · exact hpeerKept

/-- A side takes any datagram that its peer has sent. -/
theorem Linked.deliver (h : Linked config own peer r r') (hown : own.framed.length ≤ 32768)
    (hpeer : peer.framed.length ≤ 32768) {out : Outbound} (hout : out ∈ peer.sent) (codec : Codec)
    (now : Nat) (seed : UInt32) :
    ∃ r, Linked config (own.step codec (.handle now seed (out.wire codec))) peer r r' := by
  cases h.peerFaithful.genuine out hout with
  | @packet packet mem =>
    obtain ⟨i, hi⟩ := List.getElem?_of_mem mem
    have hwire : Outbound.wire codec ⟨.passThrough, packet⟩ = packet :=
      Filter.encode_passThrough codec packet
    have hplace : i < peer.framed.length := (List.getElem?_eq_some_iff.1 hi).1
    have hcount := count_le_length h.ownFaithful.settled
    rw [hwire]
    exact ⟨_, h.handle_packet hi (by omega) (by omega) codec now seed⟩
  | @notice notice justified =>
    refine ⟨r, ?_⟩
    obtain ⟨opcode, q⟩ := notice
    rw [noticed, Outbound.wire, Filter.encode_passThrough]
    rcases justified with ⟨hack, hcount⟩ | ⟨hreport, hhas⟩
    · simp only at hack hcount
      rw [hack]
      exact h.handle_acknowledge hcount (by omega) codec now seed
    · simp only at hreport hhas
      rw [hreport]
      exact h.handle_outOfOrder hhas hown codec now seed

end GameGateway.Session
