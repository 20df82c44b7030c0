import GameGateway.Config
import GameGateway.Proofs.SizeLimit

/-!
# Flushes without loss

A flush loses the messages of a group that cannot be bundled, and a message that cannot be cut. The second never
happens to a session of a server. The first happens when a message of 64 KiB or more shares its packet with another,
and the checks on a configuration exclude this exactly up to a size limit of 65545 bytes:
`Session.cuts_and_conserves_iff`.

## Implementation notes

`Sender.Carries` follows messages into whole payloads and whole lists of fragments, not into what a receiver makes of
them, so that it holds of messages of any content.
-/

namespace GameGateway

/-! ## What cannot be bundled -/

/-- The largest bundle whose messages are sure to have a 16-bit size. -/
def Bundle.safeSize : Nat := 65541

theorem Record.encode_eq_error {bytes : Bytes} (h : 65536 ≤ bytes.length) :
    encode bytes = .error (.exceedsSizePrefix bytes.length) := by
  have hsentinel : ¬ bytes.length < SizePrefix.sentinel := by
    rw [SizePrefix.sentinel]
    omega
  rw [encode, SizePrefix.encode, if_neg hsentinel, if_neg (Nat.not_lt.2 h)]
  rfl

namespace Bundle

theorem cost_pos (message : Bytes) : 0 < cost message := by
  unfold cost SizePrefix.length
  split
  · omega
  · omega

theorem cost_of_large {message : Bytes} (h : 65536 ≤ message.length) : cost message = 3 + message.length := by
  have hsentinel : ¬ message.length < SizePrefix.sentinel := by
    rw [SizePrefix.sentinel]
    omega
  rw [cost, SizePrefix.length, if_neg hsentinel]

theorem size_pair_of_large {first second : Bytes} (h : 65536 ≤ first.length) :
    size [first, second] = 5 + first.length + cost second := by
  have hsize : size [first, second] = 2 + cost first + cost second := rfl
  rw [hsize, cost_of_large h]
  omega

theorem length_le_sum_cost (messages : List Bytes) : messages.length ≤ (messages.map cost).sum := by
  induction messages with
  | nil => exact Nat.le_refl 0
  | cons message messages ih =>
    have hpos := cost_pos message
    rw [List.length_cons, List.map_cons, List.sum_cons]
    omega

/-- A message of 64 KiB with another one beside it makes more than a safe bundle. -/
theorem safeSize_lt_size {messages : List Bytes} {message : Bytes} (hmem : message ∈ messages)
    (hlarge : 65536 ≤ message.length) (hlength : messages.length ≠ 1) : safeSize < size messages := by
  obtain ⟨before, after, rfl⟩ := List.append_of_mem hmem
  have hbefore := length_le_sum_cost before
  have hafter := length_le_sum_cost after
  simp only [List.length_append, List.length_cons] at hlength
  rw [size_eq, List.map_append, List.map_cons, List.sum_append, List.sum_cons, cost_of_large hlarge, safeSize]
  omega

/-- Whatever would be a safe bundle is packed. -/
theorem pack_eq_ok_of_size_le {messages : List Bytes} (h : messages.length ≠ 1 → size messages ≤ safeSize) :
    ∃ payload, pack messages = .ok payload := by
  by_cases hone : messages.length = 1
  · obtain ⟨message, rfl⟩ := List.length_eq_one_iff.1 hone
    exact ⟨message, rfl⟩
  · apply pack_eq_ok
    intro message hmem
    by_contra hlarge
    exact absurd (h hone) (Nat.not_le_of_lt (safeSize_lt_size hmem (Nat.not_lt.1 hlarge) hone))

end Bundle

/-! ## Flushes that carry everything on -/

namespace Sender

open Receiver

/-- Messages, and the items that carry them: a group as one payload, a message over the budget as its fragments. -/
inductive Carries (budget : Nat) : List Bytes → List Item → Prop
  | nil : Carries budget [] []
  | bundle {group messages : List Bytes} {payload : Bytes} {items : List Item}
      (pack : Bundle.pack group = .ok payload) (rest : Carries budget messages items) :
      Carries budget (group ++ messages) (⟨.data, payload⟩ :: items)
  | cut {message : Bytes} {messages fragments : List Bytes} {items : List Item}
      (split : Fragment.split message budget = .ok fragments) (rest : Carries budget messages items) :
      Carries budget (message :: messages) (fragments.map Item.ofFragment ++ items)

/-- A flush loses nothing: what has left the queue is carried, behind the fragments that waited, by the packets that
were framed and the fragments that wait now. -/
def Lossless (budget : Nat) (s : Sender) (packets : List Bytes) (s' : Sender) : Prop :=
  ∃ messages items, s.queued = messages ++ s'.queued ∧ Carries budget messages items ∧
    stream [] s ++ items = stream packets s'

variable {budget window now : Nat} {messages packets : List Bytes} {items : List Item} {s s' : Sender}

/-- Reading the items gives the messages back. -/
theorem Carries.read (h : Carries budget messages items) (hopens : ∀ message ∈ messages, ¬ Bundle.Opens message) :
    consumeAll none items = (none, .ok (passedOn messages)) := by
  induction h with
  | nil => rfl
  | @bundle group messages payload items pack rest ih =>
    have hgroup := messages_pack pack fun m hm => hopens m (List.mem_append_left _ hm)
    rw [consumeAll_cons (consume_data none payload), ih fun m hm => hopens m (List.mem_append_right _ hm), hgroup,
      passedOn_append]
    rfl
  | @cut message messages fragments items split rest ih =>
    have hmessage := messages_of_not_opens (hopens message List.mem_cons_self)
    have hrest := ih fun m hm => hopens m (List.mem_cons_of_mem _ hm)
    rw [consumeAll_append_ok (consumeAll_split split) hrest, hmessage, ← passedOn_append]
    rfl

theorem Carries.eq_nil (h : Carries budget messages []) : messages = [] := by
  generalize hitems : ([] : List Item) = items at h
  cases h with
  | nil => rfl
  | bundle pack rest => cases hitems
  | cut split rest =>
    obtain ⟨hlimit, hsize, hmax⟩ := Fragment.of_split_eq_ok split
    rw [Fragment.split_eq_ok hlimit hsize hmax] at split
    cases split
    cases hitems

theorem lossless_of_waiting (hqueued : s'.queued = s.queued) (hfragments : s'.fragments = s.fragments) :
    Lossless budget s [] s' := by
  refine ⟨[], [], hqueued.symm, .nil, ?_⟩
  rw [List.append_nil, stream, stream, hfragments]

/-- Under a safe budget that has room for a total, no turn of a flush loses anything. -/
theorem Flushes.lossless (hf : Flushes budget window now s packets s') (hroom : Fragment.totalLength < budget)
    (hbudget : budget ≤ Bundle.safeSize) (hsize : ∀ message ∈ s.queued, message.length < 4294967296) :
    Lossless budget s packets s' := by
  induction hf with
  | done s => exact lossless_of_waiting rfl rfl
  | @fragment s s' fragment fragments packets room waiting tail ih =>
    obtain ⟨messages, items, hqueued, hcarries, hstream⟩ := ih hsize
    refine ⟨messages, items, hqueued, hcarries, ?_⟩
    calc
      stream [] s ++ items = .ofFragment fragment :: (stream [] { s with fragments } ++ items) := by
        simp [stream, waiting]
      _ = .ofFragment fragment :: stream packets s' := congrArg _ hstream
      _ = stream (s.packet .fragment fragment :: packets) s' := by
        simp [stream, ofPacket_sender, Item.ofFragment]
  | @bundle s s' group queued packets payload room idle front fits pack tail ih =>
    rw [front] at hsize
    obtain ⟨messages, items, hqueued, hcarries, hstream⟩ := ih fun m hm => hsize m (List.mem_append_right _ hm)
    refine ⟨group ++ messages, ⟨.data, payload⟩ :: items, ?_, .bundle pack hcarries, ?_⟩
    · rw [front, List.append_assoc, ← hqueued]
      rfl
    · calc
        stream [] s ++ ⟨.data, payload⟩ :: items = ⟨.data, payload⟩ :: (stream [] { s with queued } ++ items) := by
          simp [stream, idle]
        _ = ⟨.data, payload⟩ :: stream packets s' := congrArg _ hstream
        _ = stream (s.packet .data payload :: packets) s' := by
          simp [stream, ofPacket_sender]
  | loseGroup room idle front fits pack tail ih =>
    obtain ⟨payload, hpayload⟩ := Bundle.pack_eq_ok_of_size_le fun hone => (fits.size_le hone).trans hbudget
    rw [hpayload] at pack
    cases pack
  | @cut s s' message queued fragments packets room idle front large split tail ih =>
    rw [front] at hsize
    obtain ⟨messages, items, hqueued, hcarries, hstream⟩ := ih fun m hm => hsize m (List.mem_cons_of_mem _ hm)
    refine ⟨message :: messages, fragments.map Item.ofFragment ++ items, ?_, .cut split hcarries, ?_⟩
    · rw [front, List.cons_append, ← hqueued]
    · rw [← hstream]
      simp [stream, idle]
  | @loseMessage s s' message queued packets e room idle front large split tail ih =>
    rw [Fragment.split_eq_ok hroom large (hsize message (by rw [front]; exact List.mem_cons_self))] at split
    cases split

/-! ## A flush that loses two messages -/

/-- A message of 64 KiB loses itself and the message that shares its packet. -/
theorem flush_pair_eq {first second : Bytes} (hlarge : 65536 ≤ first.length)
    (hbudget : Bundle.size [first, second] ≤ budget) (hwindow : 0 < window) (now : Nat) :
    flush budget window now { queued := [first, second] } = ({}, []) := by
  have hsize : Bundle.size [first, second] = 2 + Bundle.cost first + Bundle.cost second := rfl
  have hfirst : first.length ≤ Bundle.cost first := Nat.le_add_left _ _
  have hsecond : second.length ≤ Bundle.cost second := Nat.le_add_left _ _
  have hopens : closesGroup budget [] first = false := rfl
  have hjoins : closesGroup budget [first] second = false := by
    have hsmall : ¬ budget < second.length := by omega
    have hfits : ¬ budget < Bundle.size [first] + Bundle.cost second := Nat.not_lt.2 hbudget
    simp only [closesGroup, hsmall, hfits, decide_false, Bool.or_self, Bool.and_false]
  have hpack : Bundle.pack [first, second] = .error (.exceedsSizePrefix first.length) := by
    rw [Bundle.pack_of_length_ne_one (by simp), List.mapM_cons, Record.encode_eq_error hlarge]
    rfl
  have hfirst' : ¬ budget < first.length := by omega
  have hsecond' : ¬ budget < second.length := by omega
  rw [flush, flushFrom]
  simp only [List.length_nil, hwindow, if_true, hopens, hfirst', if_false, Bool.false_eq_true, List.nil_append]
  rw [flushFrom]
  simp only [List.length_nil, hwindow, if_true, hjoins, hsecond', if_false, Bool.false_eq_true,
    List.singleton_append]
  rw [flushFrom]
  simp only [List.length_nil, hwindow, if_true, flushGroup, List.isEmpty_cons, Bool.false_eq_true, if_false, hpack]

theorem not_lossless_pair (first second : Bytes) : ¬ Lossless budget { queued := [first, second] } [] {} := by
  rintro ⟨messages, items, hqueued, hcarries, hstream⟩
  have hitems : items = [] := hstream
  subst hitems
  rw [hcarries.eq_nil] at hqueued
  cases hqueued

end Sender

/-! ## Sessions of a server -/

namespace ServerConfig

variable {config : ServerConfig}

/-- The checks on a configuration include those on its transport settings. -/
theorem protocol_fault?_eq_none (h : config.fault? = none) : config.protocol.fault? = none := by
  unfold fault? at h
  split at h
  · cases h
  · split at h
    · cases h
    · split at h
      · cases h
      · split at h
        · cases h
        · exact Option.map_eq_none_iff.1 h

end ServerConfig

namespace Session

/-- The flush of a maintenance pass loses nothing. -/
def Conserves (now : Nat) (s : Session) : Prop :=
  s.sender.Lossless s.budget (s.framed now) (s.update now).session.sender

variable {config : ProtocolConfig} {accepted framed : List Bytes} {s : Session}

theorem Sound.conserves (h : Sound config accepted framed s) (hsize : minUdpSize.toNat ≤ config.maxUdpSize.toNat)
    (hcrc : config.crcLength.toNat ≤ maxCrcLength.toNat)
    (hsafe : config.maxUdpSize.toNat ≤ Packet.headerLength + Bundle.safeSize)
    (hmessages : ∀ message ∈ accepted, message.length < 4294967296) (now : Nat) : s.Conserves now := by
  have hconfig := h.config_eq
  subst hconfig
  obtain ⟨hroom, hbudget⟩ := h.agreed.budget_range hsize hcrc
  unfold Conserves
  rcases update_cases now s with ⟨hframed, -, -, hs | hs⟩ | ⟨hopen, hframed, hs⟩
  · rw [hframed, hs]
    exact Sender.lossless_of_waiting rfl rfl
  · rw [hframed, hs]
    exact Sender.lossless_of_waiting rfl rfl
  · rw [hframed, hs]
    have hqueued : ∀ message ∈ (s.looked now).queued, message.length < 4294967296 :=
      fun message hm => hmessages message ((h.queued hopen).subset hm)
    exact (Sender.flush_flushes s.budget s.config.windowSize.toNat now (s.looked now)).lossless hroom (by omega) hqueued

/-- Two messages that one packet has room for are gone after a maintenance pass when the first has 64 KiB. -/
theorem update_pair (codec : Codec) (endpoint : Endpoint) {first second : Bytes} (hlarge : 65536 ≤ first.length)
    (hwindow : 0 < config.windowSize.toNat)
    (hsize : Packet.headerLength + Bundle.size [first, second] ≤ config.maxUdpSize.toNat) (now : Nat) :
    let s := ((History.start endpoint config now).run codec [.queue first, .queue second]).session
    s.sender = { queued := [first, second] } ∧ s.framed now = [] ∧
      s.update now = { session := { s with sender := {} } } := by
  intro s
  have hsender : s.sender = { queued := [first, second] } := rfl
  have hbudget : Bundle.size [first, second] ≤ s.budget := Nat.le_sub_of_add_le' hsize
  have hflushed : s.flushed now = ({}, []) := Sender.flush_pair_eq hlarge hbudget hwindow now
  have hphase : s.phase = .uninitialized := rfl
  have hidle : s.lookThrough now = ⟨[], [], false⟩ := rfl
  have hheard : s.isTimedOut now = false := by
    have hactivity : s.lastActivity = now := rfl
    simp [isTimedOut, hactivity]
  have hupdate : s.update now = { session := { s with sender := {} } } := by
    simp [update, hphase, hheard, hidle, hflushed]
  refine ⟨hsender, ?_, hupdate⟩
  rw [framed, hupdate, hflushed]
  rfl

theorem not_conserves_pair (codec : Codec) (endpoint : Endpoint) {first second : Bytes}
    (hlarge : 65536 ≤ first.length) (hwindow : 0 < config.windowSize.toNat)
    (hsize : Packet.headerLength + Bundle.size [first, second] ≤ config.maxUdpSize.toNat) (now : Nat) :
    ¬ ((History.start endpoint config now).run codec [.queue first, .queue second]).session.Conserves now := by
  obtain ⟨hsender, hframed, hupdate⟩ := update_pair codec endpoint hlarge hwindow hsize now
  rw [Conserves, hsender, hframed, hupdate]
  exact Sender.not_lossless_pair first second

/-- A session can cut every message over its budget. -/
theorem Sound.split_eq_ok (h : Sound config accepted framed s) (hsize : minUdpSize.toNat ≤ config.maxUdpSize.toNat)
    (hcrc : config.crcLength.toNat ≤ maxCrcLength.toNat) {message : Bytes} (hlarge : s.budget < message.length)
    (hmessage : message.length < 4294967296) : ∃ fragments, Fragment.split message s.budget = .ok fragments := by
  have hconfig := h.config_eq
  subst hconfig
  obtain ⟨hroom, -⟩ := h.agreed.budget_range hsize hcrc
  exact ⟨_, Fragment.split_eq_ok hroom hlarge hmessage⟩

/-- The shortest message that loses itself and its neighbour. -/
def oversized : Bytes := List.replicate 65536 0

theorem length_oversized : oversized.length = 65536 := List.length_replicate

/-- Both messages of a history that queues a message of 64 KiB and a short one have a 32-bit size. -/
theorem length_lt_of_mem_oversized {second : Bytes} (hsecond : second.length < 4294967296) :
    ∀ message ∈ [oversized, second], message.length < 4294967296 := by
  intro message hmessage
  rcases List.mem_pair.1 hmessage with rfl | rfl
  · rw [length_oversized]
    decide
  · exact hsecond

/-- Under a configuration that a server starts with, whatever was queued, negotiated and received before, every
message over the budget can be cut; and no flush loses a message exactly if the size limit is at most 65545. -/
theorem cuts_and_conserves_iff (config : ServerConfig) (hvalid : config.fault? = none) :
    (∀ (codec : Codec) (endpoint : Endpoint) (start : Nat) (events : List Event) (message : Bytes),
      let h := (History.start endpoint config.protocol start).run codec events
      h.session.budget < message.length → message.length < 4294967296 →
        ∃ fragments, Fragment.split message h.session.budget = .ok fragments) ∧
    ((∀ (codec : Codec) (endpoint : Endpoint) (start : Nat) (events : List Event) (now : Nat),
      let h := (History.start endpoint config.protocol start).run codec events
      (∀ message ∈ h.accepted, message.length < 4294967296) → h.session.Conserves now) ↔
    config.protocol.maxUdpSize.toNat ≤ 65545) := by
  have hprotocol := ServerConfig.protocol_fault?_eq_none hvalid
  obtain ⟨hsize, hcrc⟩ := ProtocolConfig.sizes_of_fault? hprotocol
  have hsound : ∀ codec endpoint start events,
      let h := (History.start endpoint config.protocol start).run codec events
      Sound config.protocol h.accepted h.framed h.session :=
    fun codec endpoint start events => (sound_create endpoint config.protocol start).run codec events
  constructor
  · intro codec endpoint start events message h hlarge hmessage
    exact (hsound codec endpoint start events).split_eq_ok hsize hcrc hlarge hmessage
  constructor
  · intro hconserves
    by_contra hlimit
    have hwindow := (ProtocolConfig.windowSize_bounds hprotocol).1
    -- one byte of the bundle is the size of the empty second message
    have hpair : Bundle.size [oversized, []] = 65542 := by
      rw [Bundle.size_pair_of_large length_oversized.ge, length_oversized]
      rfl
    have hfits : Packet.headerLength + Bundle.size [oversized, []] ≤ config.protocol.maxUdpSize.toNat := by
      rw [hpair, Packet.headerLength]
      omega
    apply not_conserves_pair ⟨fun _ => none, fun _ _ => none⟩ ⟨.v4 0 0 0 0, 0⟩ length_oversized.ge hwindow hfits 0
    apply hconserves
    exact length_lt_of_mem_oversized (by decide)
  · intro hsafe codec endpoint start events now h hmessages
    exact (hsound codec endpoint start events).conserves hsize hcrc hsafe hmessages now

/-- The largest safe limit. -/
theorem cuts_and_conserves_iff_largest :
    let config : ServerConfig := { listenAddress := "127.0.0.1", protocol := { maxUdpSize := 65545 } }
    config.fault? = none ∧
    ∀ (codec : Codec) (endpoint : Endpoint) (start : Nat) (events : List Event) (now : Nat),
      let h := (History.start endpoint config.protocol start).run codec events
      (∀ message ∈ h.accepted, message.length < 4294967296) → h.session.Conserves now := by
  intro config
  have hvalid : config.fault? = none := by decide
  exact ⟨hvalid, (cuts_and_conserves_iff config hvalid).2.2 (by decide)⟩

/-- Two bytes above it: a message of 64 KiB and one of a single byte leave the queue, and nothing is sent. -/
theorem not_conserves_oversized :
    let config : ServerConfig :=
      { listenAddress := "127.0.0.1", protocol := { maxUdpSize := 65547, crcLength := 0, compression := false } }
    let h := (History.start ⟨.v4 127 0 0 1, 20260⟩ config.protocol 0).run ⟨fun _ => none, fun _ _ => none⟩
      [.queue oversized, .queue [170]]
    config.fault? = none ∧ (∀ message ∈ h.accepted, message.length < 4294967296) ∧
    h.session.sender.queued = [oversized, [170]] ∧ (h.session.update 0).sent = [] ∧
    (h.session.update 0).session.sender.queued = [] ∧ ¬ h.session.Conserves 0 := by
  intro config h
  have hpair : Bundle.size [oversized, [170]] = 65543 := by
    rw [Bundle.size_pair_of_large length_oversized.ge, length_oversized]
    rfl
  have hfits : Packet.headerLength + Bundle.size [oversized, [170]] ≤ config.protocol.maxUdpSize.toNat := by
    rw [hpair]
    decide
  obtain ⟨hsender, -, hupdate⟩ := update_pair ⟨fun _ => none, fun _ _ => none⟩ ⟨.v4 127 0 0 1, 20260⟩
    length_oversized.ge (by decide) hfits 0
  refine ⟨by decide, length_lt_of_mem_oversized (by decide), congrArg Sender.queued hsender,
    congrArg Tick.sent hupdate, congrArg (fun tick => tick.session.sender.queued) hupdate, ?_⟩
  exact not_conserves_pair _ _ length_oversized.ge (by decide) hfits 0

end Session

end GameGateway
