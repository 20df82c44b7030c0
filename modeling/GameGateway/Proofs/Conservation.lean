import GameGateway.Proofs.Identity
import Mathlib

/-!
# Framing conserves messages

Whatever a peer sends, and however its answers come in between flushes, the packets that a session has
framed and the fragments that wait behind them say exactly the messages that have left the queue. At the end
this is stated of every history of a fresh session.

## Implementation notes

The invariant is `Session.Sound`, over a session, the messages that it took and the packets that it framed.
Its clause on what the packets say needs no bounds on sizes or messages, so that it also shows that a
faithful peer never commits a violation; the clause on which messages they say needs both.
-/

namespace GameGateway

/-- Settings under which every message has a frame: room behind the headers, and no packet beyond the
reach of a 16-bit size. -/
structure ProtocolConfig.Framable (config : ProtocolConfig) : Prop where
  size_ge : minUdpSize.toNat ≤ config.maxUdpSize.toNat
  size_le : config.maxUdpSize.toNat ≤ 65535
  crc_le : config.crcLength.toNat ≤ maxCrcLength.toNat

namespace ProtocolConfig

variable {config : ProtocolConfig}

/-- Settings that a server starts with leave room for headers and filter. -/
theorem sizes_of_fault? (h : config.fault? = none) :
    minUdpSize.toNat ≤ config.maxUdpSize.toNat ∧ config.crcLength.toNat ≤ maxCrcLength.toNat := by
  simp only [fault?] at h
  split at h
  · cases h
  · rename_i hmin
    split at h
    · cases h
    · rename_i hcrc
      exact ⟨UInt32.le_iff_toNat_le.1 (UInt32.not_lt.1 hmin), UInt8.le_iff_toNat_le.1 (UInt8.not_lt.1 hcrc)⟩

/-- Settings that a server starts with have a window for which sequence numbers compare unambiguously. -/
theorem windowSize_bounds (h : config.fault? = none) :
    0 < config.windowSize.toNat ∧ config.windowSize.toNat ≤ maxWindowSize.toNat := by
  have hinside : ¬ (config.windowSize = 0 ∨ maxWindowSize < config.windowSize) := by
    intro houtside
    simp only [fault?, if_pos houtside] at h
    split_ifs at h
  obtain ⟨hzero, hmax⟩ := not_or.1 hinside
  refine ⟨Nat.pos_of_ne_zero fun hnat => hzero (UInt16.toNat_inj.1 hnat), ?_⟩
  exact UInt16.le_iff_toNat_le.1 (UInt16.not_lt.1 hmax)

/-- What the validation of settings demands is enough, below the largest datagram of the network. -/
theorem framable_of_fault? (h : config.fault? = none) (hsize : config.maxUdpSize.toNat ≤ 65535) :
    config.Framable :=
  ⟨(sizes_of_fault? h).1, hsize, (sizes_of_fault? h).2⟩

end ProtocolConfig

namespace Session

open Receiver

theorem toNat_clamp (asked high low : UInt32) :
    (max (min asked high) low).toNat = max (min asked.toNat high.toNat) low.toNat := by
  have hmin : min asked high = if asked ≤ high then asked else high := rfl
  have hmax : ∀ n : UInt32, max n low = if n ≤ low then low else n := fun _ => rfl
  have hminimum : (min asked high).toNat = min asked.toNat high.toNat := by
    rw [hmin, Nat.min_def, apply_ite UInt32.toNat]
    rfl
  rw [hmax, apply_ite UInt32.toNat, hminimum, Nat.max_def, ← hminimum]
  rfl

/-- Every filter and size limit that is agreed on leaves room for a fragment, and no budget exceeds the
size limit of the settings. -/
theorem Agreed.budget_range {s : Session} (h : s.Agreed) (hge : minUdpSize.toNat ≤ s.config.maxUdpSize.toNat)
    (hcrc : s.config.crcLength.toNat ≤ maxCrcLength.toNat) :
    Fragment.totalLength < s.budget ∧ Packet.headerLength + s.budget ≤ s.config.maxUdpSize.toNat := by
  have hflag : s.filter.compression.toNat ≤ 1 := Bool.toNat_le _
  have hmin : minUdpSize.toNat = 64 := rfl
  have hmax : maxCrcLength.toNat = 4 := rfl
  simp only [budget, FilterParams.overhead, Packet.headerLength, Fragment.totalLength]
  rcases h with ⟨hfilter, hsize⟩ | ⟨seed, asked, hfilter, hsize⟩
  · have hzero : s.filter.crcLength.toNat = 0 := by rw [hfilter]; rfl
    rw [hsize]
    omega
  · have hlength : s.filter.crcLength = s.config.crcLength := by rw [hfilter]
    have hlimit : s.maxUdpSize.toNat =
        max (min asked.toNat s.config.maxUdpSize.toNat) minUdpSize.toNat := by
      rw [hsize, toNat_clamp]
    rw [hlength, hlimit]
    omega

/-- Under framable settings payloads stay below a 16-bit size. -/
theorem Agreed.budget_bounds {s : Session} (h : s.Agreed) (hconfig : s.config.Framable) :
    Fragment.totalLength < s.budget ∧ s.budget < 65536 := by
  obtain ⟨hroom, hbudget⟩ := h.budget_range hconfig.size_ge hconfig.crc_le
  have hsize := hconfig.size_le
  exact ⟨hroom, by omega⟩

/-- What holds of a session with the messages that it took and the packets that it framed. -/
structure Sound (config : ProtocolConfig) (accepted framed : List Bytes) (s : Session) : Prop where
  config_eq : s.config = config
  agreed : s.Agreed
  ledger : Sender.Ledger framed s.sender
  /-- The packets and the waiting fragments are whole messages, and under the bounds on sizes and messages
  they are those that have left the queue. -/
  reads : s.isOver = false →
    ∃ said, consumeAll none (Sender.stream framed s.sender) = (none, .ok said) ∧
      (config.Framable → (∀ message ∈ accepted, Sendable message) →
        said ++ passedOn s.sender.queued = passedOn accepted)
  /-- The queue is the end of what was taken. -/
  queued : s.isOver = false → s.sender.queued <:+ accepted

variable {config : ProtocolConfig} {accepted framed : List Bytes} {s s' : Session}

theorem sound_create (endpoint : Endpoint) (config : ProtocolConfig) (now : Nat) :
    Sound config [] [] (create endpoint config now) where
  config_eq := rfl
  agreed := .inl ⟨rfl, rfl⟩
  ledger := Sender.ledger_nil
  reads := fun _ => ⟨[], rfl, fun _ _ => rfl⟩
  queued := fun _ => List.suffix_refl []

theorem Sound.keeps (h : Sound config accepted framed s) (hkeeps : Keeps s s') :
    Sound config accepted framed s' where
  config_eq := hkeeps.config.trans h.config_eq
  agreed := hkeeps.agreed h.agreed
  ledger := h.ledger.of_sublist hkeeps.next hkeeps.unacked
  reads := by
    intro hopen
    obtain ⟨said, hread, hsaid⟩ := h.reads (hkeeps.isOpen hopen)
    obtain ⟨hqueued, hfragments⟩ := hkeeps.waiting hopen
    refine ⟨said, ?_, ?_⟩
    · rw [Sender.stream, hfragments]
      exact hread
    · rw [hqueued]
      exact hsaid
  queued := by
    intro hopen
    rw [(hkeeps.waiting hopen).1]
    exact h.queued (hkeeps.isOpen hopen)

theorem Sound.queue (h : Sound config accepted framed s) (hopen : s.isOver = false) (message : Bytes) :
    Sound config (accepted ++ [message]) framed { s with sender := s.sender.queue message } where
  config_eq := h.config_eq
  agreed := h.agreed
  ledger := h.ledger.of_sublist rfl (.refl _)
  reads := by
    intro _
    obtain ⟨said, hread, hsaid⟩ := h.reads hopen
    refine ⟨said, hread, fun hconfig hsendable => ?_⟩
    have hrest := hsaid hconfig fun m hm => hsendable m (List.mem_append_left _ hm)
    calc
      said ++ passedOn (s.sender.queued ++ [message]) =
          said ++ passedOn s.sender.queued ++ passedOn [message] := by
        rw [passedOn_append, List.append_assoc]
      _ = passedOn accepted ++ passedOn [message] := by rw [hrest]
      _ = passedOn (accepted ++ [message]) := (passedOn_append ..).symm
  queued := by
    intro _
    obtain ⟨front, hfront⟩ := h.queued hopen
    exact ⟨front, by rw [← hfront]; simp [Sender.queue]⟩

theorem Sound.flush (h : Sound config accepted framed s) (hopen : s.isOver = false) (now : Nat) :
    Sound config accepted (framed ++ (s.flushed now).2) { s with sender := (s.flushed now).1 } := by
  have hlooked := h.keeps (keeps_looked now s)
  have hflushes := Sender.flush_flushes s.budget s.config.windowSize.toNat now (s.looked now)
  obtain ⟨said, hread, hsaid⟩ := hlooked.reads hopen
  obtain ⟨more, hmore, hqueue⟩ := hflushes.reads hread
  constructor
  · exact h.config_eq
  · exact h.agreed
  · exact hflushes.ledger hlooked.ledger
  · intro _
    refine ⟨said ++ more, hmore, fun hconfig hsendable => ?_⟩
    obtain ⟨hroom, hsize⟩ := h.agreed.budget_bounds (h.config_eq ▸ hconfig)
    have hwaiting := hqueue hroom hsize fun m hm =>
      hsendable m ((hlooked.queued hopen).subset hm)
    calc
      said ++ more ++ passedOn (s.flushed now).1.queued =
          said ++ (more ++ passedOn (s.flushed now).1.queued) := List.append_assoc ..
      _ = said ++ passedOn s.sender.queued := congrArg (said ++ ·) hwaiting
      _ = passedOn accepted := hsaid hconfig hsendable
  · intro _
    exact hflushes.queued_suffix.trans (hlooked.queued hopen)

/-- Every call leaves a sound history sound. -/
theorem Sound.step (codec : Codec) {h : History} (hsound : Sound config h.accepted h.framed h.session)
    (event : Event) :
    Sound config (h.step codec event).accepted (h.step codec event).framed
      (h.step codec event).session := by
  cases event with
  | queue message =>
    cases hclosed : h.session.isOver with
    | true => simpa [History.step, Session.queue, hclosed] using hsound
    | false => simpa [History.step, Session.queue, hclosed] using hsound.queue hclosed message
  | connect accountId playerId => exact hsound.keeps (keeps_connect accountId playerId h.session)
  | close reason => exact hsound.keeps (keeps_close reason h.session)
  | update now =>
    simp only [History.step]
    rcases update_cases now h.session with ⟨hframed, -, -, hs | hs⟩ | ⟨hopen, hframed, hs⟩
    · rw [hframed, hs, List.append_nil]
      exact hsound
    · rw [hframed, hs, List.append_nil]
      exact hsound.keeps (keeps_looked now h.session)
    · rw [hframed, hs]
      exact hsound.flush hopen now
  | handle now seed datagram => exact hsound.keeps (keeps_handle codec now seed datagram h.session)
  | finish => exact hsound.keeps (keeps_finish h.session)

/-- Every run leaves a sound history sound. -/
theorem Sound.run (codec : Codec) {h : History} (hsound : Sound config h.accepted h.framed h.session)
    (events : List Event) :
    Sound config (h.run codec events).accepted (h.run codec events).framed
      (h.run codec events).session :=
  History.run_preserves (P := fun h => Sound config h.accepted h.framed h.session)
    (fun _ event hsound => hsound.step codec event) hsound events

/-- The packets that were framed, also those that were released, and the fragments that wait are read
without a violation and without a message left open; their messages, and behind them those that wait, are
the messages that were taken. -/
theorem History.framed_read_accepted (codec : Codec) (endpoint : Endpoint) (config : ProtocolConfig)
    (start : Nat) (events : List Event) (hconfig : config.Framable)
    (hopen : ((History.start endpoint config start).run codec events).session.isClosed = false)
    (hmessages : ∀ message ∈ ((History.start endpoint config start).run codec events).accepted,
      message ≠ [] ∧ Sendable message) :
    let h := (History.start endpoint config start).run codec events
    ∃ said,
      consumeAll none
          (h.framed.map Item.ofPacket ++ h.session.sender.fragments.map Item.ofFragment) =
        (none, .ok said) ∧
      said ++ h.session.sender.queued = h.accepted := by
  intro h
  have hsound : Sound config h.accepted h.framed h.session :=
    (sound_create endpoint config start).run codec events
  have hstays : h.session.isOver = false := (History.flagged_run codec endpoint config start events).symm.trans hopen
  obtain ⟨said, hread, hsaid⟩ := hsound.reads hstays
  refine ⟨said, hread, ?_⟩
  have hwhole := hsaid hconfig fun message hm => (hmessages message hm).2
  have haccepted : passedOn h.accepted = h.accepted :=
    passedOn_eq_self fun message hm => (hmessages message hm).1
  have hqueued : passedOn h.session.sender.queued = h.session.sender.queued :=
    passedOn_eq_self fun message hm => (hmessages message ((hsound.queued hstays).subset hm)).1
  rw [hqueued, haccepted] at hwhole
  exact hwhole

/-- A run in which the peer negotiates a smaller size between the cut of a message and the last flush. -/
theorem History.framed_read_accepted_renegotiated :
    let h := (History.start ⟨.v4 127 0 0 1, 20260⟩ { maxUdpSize := 80, windowSize := 2 } 0).run
      ⟨fun _ => none, fun _ _ => none⟩
      [.queue [1, 2], .queue (List.replicate 100 7), .queue [3], .update 0,
        .handle 1 9 [0, 1, 0, 0, 0, 3, 0, 0, 0, 5, 0, 0, 0, 64], .update 2]
    h.accepted = [[1, 2], List.replicate 100 7, [3]] ∧ h.session.sender.queued = [[3]] ∧
      ∃ said,
        consumeAll none
            (h.framed.map Item.ofPacket ++ h.session.sender.fragments.map Item.ofFragment) =
          (none, .ok said) ∧
        said ++ h.session.sender.queued = h.accepted := by
  intro h
  have haccepted : h.accepted = [[1, 2], List.replicate 100 7, [3]] := by cbv
  refine ⟨haccepted, by cbv, ?_⟩
  apply History.framed_read_accepted
  · exact ⟨by decide, by decide, by decide⟩
  · cbv
  · intro message hm
    have hlisted : message ∈ [[1, 2], List.replicate 100 7, [3]] := haccepted ▸ hm
    have hall : ∀ m ∈ [[1, 2], List.replicate 100 7, [3]],
        m ≠ [] ∧ m.length < 4294967296 ∧ ¬ Bundle.Opens m := by decide
    obtain ⟨hne, hlength, hopens⟩ := hall message hlisted
    exact ⟨hne, hlength, hopens⟩

end Session

end GameGateway
