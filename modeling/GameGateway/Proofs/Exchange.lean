import GameGateway.Proofs.Link
import GameGateway.Proofs.Progress

/-!
# Exchange without loss

Two fresh sessions whose datagrams all arrive, in order. One side sends, in rounds: it has its maintenance
pass, the other side takes what this sent, and the answers go back. Every round leaves nothing in flight and
makes the backlog less, so that all messages have arrived after a number of rounds that only the messages
determine, however often the sequence numbers wrap around meanwhile.

## Implementation notes

`Link.Rested` holds between two rounds. Within a round the number that the receiving side expects is that
of the packet that it takes, and the acknowledgements that come back release the packets in flight one by
one.
-/

namespace GameGateway

/-- The first element of the rest of a list, and what stands behind it. -/
theorem of_drop_eq_cons {α : Type} {l rest : List α} {a : α} {i : Nat} (h : l.drop i = a :: rest) :
    l[i]? = some a ∧ l.drop (i + 1) = rest := by
  constructor
  · rw [← List.head?_drop, h]
    rfl
  · rw [← List.tail_drop, h]
    rfl

namespace Sender

variable {framed : List Bytes} {s : Sender} {q : Nat}

/-- An acknowledgement of the first packet in flight releases this one alone. -/
theorem map_key_acknowledge (h : s.unacked.map SentPacket.key = (numbered framed).drop q)
    (hq : q < framed.length) :
    (s.acknowledge (UInt16.ofNat q)).unacked.map SentPacket.key = (numbered framed).drop (q + 1) := by
  have hkey : ∀ {i packet rest}, (numbered framed).drop i = packet :: rest →
      packet.1 = UInt16.ofNat i ∧ rest = (numbered framed).drop (i + 1) := by
    intro i packet rest hdrop
    obtain ⟨hfirst, hbehind⟩ := of_drop_eq_cons hdrop
    rw [getElem?_numbered] at hfirst
    obtain ⟨_, -, rfl⟩ := Option.map_eq_some_iff.1 hfirst
    exact ⟨rfl, hbehind.symm⟩
  have hlength : (numbered framed).length = framed.length := by simp [numbered]
  cases hunacked : s.unacked with
  | nil =>
    rw [hunacked, List.map_nil] at h
    have hnone := List.drop_eq_nil_iff.1 h.symm
    omega
  | cons p rest =>
    rw [hunacked, List.map_cons] at h
    obtain ⟨hp, hrest⟩ := hkey h.symm
    have hzero : Sequence.distance p.sequence (UInt16.ofNat q) = 0 := by
      rw [show p.sequence = UInt16.ofNat q from hp]
      exact Sequence.distance_self _
    simp only [acknowledge, hunacked, List.dropWhile_cons, hzero, Int.le_refl, decide_true, if_true]
    rw [← hrest]
    apply congrArg
    -- the packet behind it is ahead of the acknowledged one
    cases rest with
    | nil => rfl
    | cons p' rest =>
      obtain ⟨hp', -⟩ := hkey (hrest.symm.trans (List.map_cons ..))
      have hdistance : Sequence.distance p'.sequence (UInt16.ofNat q) = (q : Int) - (q + 1 : Nat) := by
        rw [show p'.sequence = UInt16.ofNat (q + 1) from hp']
        exact Sequence.distance_ofNat (by omega) (by omega)
      have hahead : ¬ 0 ≤ Sequence.distance p'.sequence (UInt16.ofNat q) := by omega
      simp [hahead]

end Sender

namespace Receiver.Unbounded

variable {window : Nat} {r : Unbounded} {item : Item} {a : Arrival} {messages : List Bytes}

/-- A receiver that holds nothing takes the expected item and acknowledges it. -/
theorem Arrives.of_expected (ha : Arrives window r.count item r a) (hheld : r.held = [])
    (hok : a.result = .ok messages) :
    a.receiver.held = [] ∧ a.receiver.count = r.count + 1 ∧
      a.notices = [(Opcode.acknowledge, r.count)] := by
  cases ha with
  | late before => exact absurd before (Nat.lt_irrefl _)
  | beyond ahead outside => exact absurd ahead (Nat.lt_irrefl _)
  | early ahead inside => exact absurd ahead (Nat.lt_irrefl _)
  | violation expected processed => cases hok
  | @next r' r'' first result expected processed rest =>
    have hcount := count_process processed
    have hnone : r'.held = [] := by
      obtain ⟨assembly, -, rfl⟩ := process_eq_ok_iff.1 processed
      exact hheld
    cases rest with
    | done missing =>
      refine ⟨hnone, hcount, ?_⟩
      simp [Arrival.notices, Except.map, hcount]
    | violation found processed => simp [hnone] at found
    | next found processed rest => simp [hnone] at found

end Receiver.Unbounded

namespace Link

open Session Receiver

/-- The delivery of the datagrams in a run of places. -/
def deliveries (side : Side) (now : Nat) (seed : Nat → UInt32) (place count : Nat) : List Event :=
  (List.range' place count).map fun place => .deliver side now (seed place) place

/-- Gives a side all that the other one has sent from a place on. -/
def deliverFrom (codec : Codec) (side : Side) (now : Nat) (seed : Nat → UInt32) (place : Nat)
    (l : Link) : Link :=
  l.run codec (deliveries side now seed place ((l side.other).sent.length - place))

/-- A round: the left side has its maintenance pass, the right side takes all that this sent, and the left
side takes all that the right side answered. -/
def round (codec : Codec) (now : Nat) (seed : Side → Nat → UInt32) (l : Link) : Link :=
  let updated := l.step codec (.update .left now)
  let taken := updated.deliverFrom codec .right now (seed .right) (l .left).sent.length
  taken.deliverFrom codec .left now (seed .left) (l .right).sent.length

variable {config : ProtocolConfig} {l : Link} {codec : Codec} {now : Nat} {r r' : Unbounded}

@[simp] theorem call_left_left (event : Session.Event) :
    l.call codec .left event .left = (l .left).step codec event := Function.update_self ..

@[simp] theorem call_left_right (event : Session.Event) :
    l.call codec .left event .right = l .right := Function.update_of_ne (by decide) ..

@[simp] theorem call_right_right (event : Session.Event) :
    l.call codec .right event .right = (l .right).step codec event := Function.update_self ..

@[simp] theorem call_right_left (event : Session.Event) :
    l.call codec .right event .left = l .left := Function.update_of_ne (by decide) ..

theorem step_deliver {side : Side} {place : Nat} {packet : Bytes} (seed : UInt32)
    (h : (l side.other).sent[place]? = some ⟨.passThrough, packet⟩) :
    l.step codec (.deliver side now seed place) = l.call codec side (.handle now seed packet) := by
  simp only [step, h, Outbound.wire, Filter.encode_passThrough]

theorem run_cons (event : Event) (events : List Event) :
    l.run codec (event :: events) = (l.step codec event).run codec events := rfl

theorem deliveries_succ (side : Side) (now : Nat) (seed : Nat → UInt32) (place count : Nat) :
    deliveries side now seed place (count + 1) =
      .deliver side now (seed place) place :: deliveries side now seed (place + 1) count := by
  simp [deliveries, List.range'_succ]

theorem deliverFrom_eq {side : Side} {seed : Nat → UInt32} {place count : Nat}
    (h : (l side.other).sent.length = place + count) :
    l.deliverFrom codec side now seed place = l.run codec (deliveries side now seed place count) := by
  rw [deliverFrom, h, Nat.add_sub_cancel_left]

/-- The acknowledgements of a run of numbers. -/
def acknowledgements (first count : Nat) : List Outbound :=
  (List.range' first count).map fun q => noticed (Opcode.acknowledge, q)

theorem acknowledgements_succ (first count : Nat) :
    acknowledgements first (count + 1) =
      noticed (Opcode.acknowledge, first) :: acknowledgements (first + 1) count := by
  simp [acknowledgements, List.range'_succ]

/-! ## The way there -/

/-- The right side takes the next packet and acknowledges it. -/
theorem take_packet (codec : Codec) (now : Nat) (h : Linked config (l .left) (l .right) r r')
    (hheld : r'.held = []) {packet : Bytes} (hpacket : (l .left).framed[r'.count]? = some packet) (seed : UInt32) :
    ∃ r'', Linked config (l .left) ((l .right).step codec (.handle now seed packet)) r r'' ∧
      r''.held = [] ∧ r''.count = r'.count + 1 ∧
      ((l .right).step codec (.handle now seed packet)).sent =
        (l .right).sent ++ [noticed (Opcode.acknowledge, r'.count)] := by
  have hplaced : Placed (l .left).framed r'.count (Item.ofPacket packet) := by
    rw [Placed, List.getElem?_map, hpacket]
    rfl
  have hlow : r'.count ≤ r'.count + 32768 := Nat.le_add_right ..
  have hhigh : r'.count ≤ r'.count + 32767 := Nat.le_add_right ..
  have hown := h.peerFaithful
  obtain ⟨messages, hok⟩ := hown.arrive_ok h.ownFaithful hplaced hhigh config.windowSize.toNat
  obtain ⟨hnone, hcount, hnotices⟩ :=
    (Unbounded.arrive_arrives config.windowSize.toNat r'.count (Item.ofPacket packet) r').of_expected
      hheld hok
  refine ⟨_, (h.symm.handle_packet hpacket hlow hhigh codec now seed).symm, hnone, hcount, ?_⟩
  have hhandle := hown.plain.handle_item hown.receiver hown.settled hplaced hlow hhigh codec now seed
  rw [← h.ownFaithful.sound.ledger.packet _ packet hpacket, hown.sound.config_eq] at hhandle
  simp only [History.step, History.react, hhandle, hnotices, List.map_cons, List.map_nil]

/-- The right side takes all packets that it lacks and acknowledges each. -/
theorem take_packets (codec : Codec) (now : Nat) {packets : List Bytes}
    (h : Linked config (l .left) (l .right) r r') (hheld : r'.held = []) (seed : Nat → UInt32) {place : Nat}
    (hframed : (l .left).framed.drop r'.count = packets)
    (hsent : (l .left).sent.drop place = packets.map (Outbound.mk .passThrough)) :
    let l' := l.run codec (deliveries .right now seed place packets.length)
    l' .left = l .left ∧
      (l' .right).sent = (l .right).sent ++ acknowledgements r'.count packets.length ∧
      ∃ r'', Linked config (l' .left) (l' .right) r r'' ∧ r''.held = [] ∧
        r''.count = r'.count + packets.length := by
  induction packets generalizing l r' place with
  | nil => exact ⟨rfl, (List.append_nil _).symm, r', h, hheld, rfl⟩
  | cons packet packets ih =>
    obtain ⟨hpacket, hframed⟩ := of_drop_eq_cons hframed
    obtain ⟨hdatagram, hsent⟩ := of_drop_eq_cons (hsent.trans (List.map_cons ..))
    obtain ⟨r'', hlinked, hheld, hcount, hanswer⟩ :=
      take_packet codec now h hheld hpacket (seed place)
    rw [List.length_cons, deliveries_succ, run_cons, step_deliver (seed place) hdatagram]
    obtain ⟨hleft, hright, r₁, hlinked, hheld, hcount'⟩ :=
      ih (l := l.call codec .right (.handle now (seed place) packet)) (by simpa using hlinked) hheld
        (by simpa [hcount] using hframed) (by simpa using hsent)
    refine ⟨by simpa using hleft, ?_, r₁, hlinked, hheld, by omega⟩
    rw [hright, call_right_right, hanswer, hcount, acknowledgements_succ, List.append_assoc]
    rfl

/-! ## The way back -/

/-- What a left side does with an acknowledgement: it releases packets. -/
theorem step_acknowledgement (codec : Codec) (now : Nat) (h : Linked config (l .left) (l .right) r r')
    (seed : UInt32) (q : Nat) :
    (l .left).step codec
        (.handle now seed (Packet.notice Opcode.acknowledge (UInt16.ofNat q))) =
      { l .left with
        session := { (l .left).session.touched now with
          sender := (l .left).session.sender.acknowledge (UInt16.ofNat q) } } := by
  simp [History.step, History.react, h.ownFaithful.plain.handle_acknowledge, Except.toOption]

/-- The left side takes the acknowledgements of all packets in flight, one behind the other. -/
theorem take_acknowledgements (codec : Codec) (now : Nat) {count : Nat}
    (h : Linked config (l .left) (l .right) r r') (seed : Nat → UInt32) {q place : Nat}
    (hunacked : (l .left).session.sender.unacked.map SentPacket.key =
      (Sender.numbered (l .left).framed).drop q)
    (hflight : (l .left).framed.length = q + count) (hnear : count ≤ 32768)
    (htaken : r'.count = (l .left).framed.length)
    (hsent : (l .right).sent.drop place = acknowledgements q count)
    (hheard : (l .left).session.lastActivity = now) :
    let l' := l.run codec (deliveries .left now seed place count)
    Linked config (l' .left) (l' .right) r r' ∧ l' .right = l .right ∧
      (l' .left).session.sender.unacked = [] ∧ (l' .left).session.lastActivity = now ∧
      (l' .left).framed = (l .left).framed ∧ (l' .left).accepted = (l .left).accepted ∧
      (l' .left).session.sender.backlog = (l .left).session.sender.backlog := by
  induction count generalizing l q place with
  | zero =>
    have hlength : (Sender.numbered (l .left).framed).length = q := by
      simpa [Sender.numbered] using hflight
    have hnone : (l .left).session.sender.unacked = [] := by
      rw [List.drop_eq_nil_of_le (Nat.le_of_eq hlength)] at hunacked
      exact List.map_eq_nil_iff.1 hunacked
    exact ⟨h, rfl, hnone, hheard, rfl, rfl, rfl⟩
  | succ count ih =>
    rw [acknowledgements_succ] at hsent
    obtain ⟨hdatagram, hsent⟩ := of_drop_eq_cons hsent
    have hkeys := Sender.map_key_acknowledge hunacked (by omega)
    have hlinked := h.handle_acknowledge (q := q) (by omega) (by omega) codec now (seed place)
    have hstep := step_acknowledgement codec now h (seed place) q
    let l₁ := l.call codec .left
      (.handle now (seed place) (Packet.notice Opcode.acknowledge (UInt16.ofNat q)))
    have hleft : l₁ .left = (l .left).step codec
        (.handle now (seed place) (Packet.notice Opcode.acknowledge (UInt16.ofNat q))) :=
      call_left_left _
    have hright : l₁ .right = l .right := call_left_right _
    rw [← hleft] at hstep hlinked
    rw [← hright] at hlinked hsent
    have hless : (l .left).framed.length = q + 1 + count := by omega
    obtain ⟨hlinked, hkept, hunacked, hheard, hframed, haccepted, hbacklog⟩ :=
      ih hlinked (by rw [hstep]; exact hkeys) (by rw [hstep]; exact hless) (by omega)
        (by rw [hstep]; exact htaken) hsent (by rw [hstep]; rfl)
    rw [deliveries_succ, run_cons, step_deliver (seed place) hdatagram]
    rw [hstep] at hframed haccepted hbacklog
    exact ⟨hlinked, hkept.trans hright, hunacked, hheard, hframed, haccepted, hbacklog⟩

/-! ## Rounds -/

/-- What holds between two rounds: the receiving side has all packets that were framed and holds none
back, nothing is in flight, and the time stands still. -/
structure Rested (config : ProtocolConfig) (now : Nat) (r r' : Unbounded) (l : Link) : Prop where
  linked : Linked config (l .left) (l .right) r r'
  held : r'.held = []
  taken : r'.count = (l .left).framed.length
  unacked : (l .left).session.sender.unacked = []
  heard : (l .left).session.lastActivity = now

/-- Between two rounds, a maintenance pass flushes and does nothing else. -/
theorem Rested.update_eq (h : Rested config now r r' l) (codec : Codec) :
    ((l .left).session.update now).health = .alive ∧
      (l .left).step codec (.update now) =
        { l .left with
          session := { (l .left).session with sender := ((l .left).session.flushed now).1 }
          framed := (l .left).framed ++ ((l .left).session.flushed now).2
          sent := (l .left).sent ++ ((l .left).session.flushed now).2.map (Outbound.mk .passThrough) } := by
  obtain ⟨hopen, hpasses⟩ := h.linked.ownFaithful.plain
  have hinTime : (l .left).session.isTimedOut now = false := by
    simp [isTimedOut, h.heard]
  have hnothing : (l .left).session.lookThrough now = ⟨[], [], false⟩ := by
    simp [lookThrough, h.unacked, Sender.resend]
  have hphase : ¬ (l .left).session.phase = .closed ∧ ¬ (l .left).session.phase = .disconnecting := by
    simpa [isOver, and_comm] using hopen
  have hupdate : (l .left).session.update now =
      { session := { (l .left).session with sender := ((l .left).session.flushed now).1 }
        sent := ((l .left).session.flushed now).2.map (Outbound.mk .passThrough) } := by
    simp [update, hphase, hinTime, hnothing, outbound, hpasses]
  simp [History.step, framed, hupdate]

/-- What a maintenance pass between two rounds frames: packets that go into flight, no more of them than
the window has room for. -/
theorem Rested.flushed (h : Rested config now r r' l) (hpositive : 0 < config.windowSize.toNat) :
    ((l .left).session.flushed now).1.unacked.map SentPacket.key =
        (Sender.numbered ((l .left).framed ++ ((l .left).session.flushed now).2)).drop
          (l .left).framed.length ∧
      ((l .left).session.flushed now).2.length ≤ config.windowSize.toNat ∧
      (((l .left).session.flushed now).1.backlog = 0 ∨
        ((l .left).session.flushed now).1.backlog < (l .left).session.sender.backlog) := by
  have hsound := h.linked.ownFaithful.sound
  have hnone : ((l .left).session.looked now).unacked = [] := by
    simp [looked, lookThrough, h.unacked, Sender.resend]
  have hwindow : (l .left).session.config.windowSize.toNat = config.windowSize.toNat := by
    rw [hsound.config_eq]
  have hflushes := Sender.flush_flushes (l .left).session.budget
    (l .left).session.config.windowSize.toNat now ((l .left).session.looked now)
  obtain ⟨added, hnumbered, hunacked⟩ :=
    hflushes.unacked_eq (hsound.keeps (keeps_looked now (l .left).session)).ledger
  refine ⟨?_, ?_, ?_⟩
  · have hlength : (Sender.numbered (l .left).framed).length = (l .left).framed.length := by
      simp [Sender.numbered]
    rw [← hlength, Session.flushed, hnumbered, hunacked, hnone, List.drop_left]
    rfl
  · have hframed := hflushes.length_unacked
    have hroom := hflushes.unacked_le (by rw [hnone]; exact Nat.zero_le _)
    rw [hnone, List.length_nil, Nat.zero_add] at hframed
    rw [← hwindow, Session.flushed, ← hframed]
    exact hroom
  · exact Sender.backlog_flush_lt (l .left).session.budget now (hwindow ▸ hpositive) hnone

/-- The first half of a round: the left side frames packets, and the right side takes and acknowledges them. -/
theorem Rested.sends (h : Rested config now r r' l) (codec : Codec) (seed : Nat → UInt32) :
    let packets := ((l .left).session.flushed now).2
    let l' := (l.step codec (.update .left now)).deliverFrom codec .right now seed (l .left).sent.length
    l' .left = (l .left).step codec (.update now) ∧
      (l' .right).sent =
        (l .right).sent ++ acknowledgements (l .left).framed.length packets.length ∧
      ∃ r'', Linked config (l' .left) (l' .right) r r'' ∧ r''.held = [] ∧
        r''.count = (l .left).framed.length + packets.length := by
  intro packets l'
  obtain ⟨-, hstep⟩ := h.update_eq codec
  let updated := l.step codec (.update .left now)
  have hleft : updated .left = (l .left).step codec (.update now) := call_left_left _
  have hright : updated .right = l .right := call_left_right _
  have hlinked : Linked config (updated .left) (updated .right) r r' := by
    rw [hleft, hright]
    exact h.linked.update codec now
  have hframed : (updated .left).framed = (l .left).framed ++ packets := by rw [hleft, hstep]
  have hsent : (updated .left).sent = (l .left).sent ++ packets.map (Outbound.mk .passThrough) := by
    rw [hleft, hstep]
  have hdue : (updated .left).sent.length = (l .left).sent.length + packets.length := by
    rw [hsent, List.length_append, List.length_map]
  have hdelivered : l' = updated.run codec
      (deliveries .right now seed (l .left).sent.length packets.length) := deliverFrom_eq hdue
  obtain ⟨hkept, hanswers, r'', htaken, hheld, hcount⟩ :=
    take_packets codec now hlinked h.held seed
      (by rw [hframed, h.taken, List.drop_left]) (by rw [hsent, List.drop_left])
  rw [← hdelivered] at hkept hanswers htaken
  refine ⟨hkept.trans hleft, ?_, r'', htaken, hheld, hcount.trans (by rw [h.taken])⟩
  rw [hanswers, hright, h.taken]

/-- A round leaves nothing in flight, and the backlog gets less. -/
theorem Rested.round (h : Rested config now r r' l) (hpositive : 0 < config.windowSize.toNat)
    (hwindow : config.windowSize.toNat ≤ 32767) (codec : Codec) (seed : Side → Nat → UInt32) :
    (∃ r'', Rested config now r r'' (l.round codec now seed)) ∧
      (l.round codec now seed .left).accepted = (l .left).accepted ∧
      ((l.round codec now seed .left).session.sender.backlog = 0 ∨
        (l.round codec now seed .left).session.sender.backlog < (l .left).session.sender.backlog) := by
  obtain ⟨-, hstep⟩ := h.update_eq codec
  obtain ⟨hflight, hframes, hbacklog⟩ := h.flushed hpositive
  obtain ⟨hleft, hanswers, r'', hlinked, hheld, hcount⟩ := h.sends codec (seed .right)
  generalize ((l .left).session.flushed now).2 = packets at *
  generalize htaken : (l.step codec (.update .left now)).deliverFrom codec .right now (seed .right)
    (l .left).sent.length = taken at hleft hanswers hlinked
  have hlength : (taken .left).framed.length = (l .left).framed.length + packets.length := by
    rw [hleft, hstep, List.length_append]
  have hdue : (taken .right).sent.length = (l .right).sent.length + packets.length := by
    simp [hanswers, acknowledgements]
  have hround : l.round codec now seed =
      taken.run codec (deliveries .left now (seed .left) (l .right).sent.length packets.length) := by
    rw [Link.round, htaken]
    exact deliverFrom_eq hdue
  obtain ⟨hlinked, -, hunacked, hheard, hframed, haccepted, hrest⟩ :=
    take_acknowledgements codec now hlinked (seed .left)
      (by rw [hleft, hstep]; exact hflight) hlength (by omega) (hcount.trans hlength.symm)
      (by rw [hanswers, List.drop_left]) (by rw [hleft, hstep]; exact h.heard)
  rw [← hround] at hlinked hunacked hheard hframed haccepted hrest
  refine ⟨⟨r'', hlinked, hheld, ?_, hunacked, hheard⟩, ?_, ?_⟩
  · rw [hframed, hlength, hcount]
  · rw [haccepted, hleft, hstep]
  · rw [hrest, hleft, hstep]
    exact hbacklog

theorem rested_start (endpoint : Side → Endpoint) (config : ProtocolConfig) (now : Nat) :
    Rested config now {} {} (start endpoint config fun _ => now) where
  linked := linked_start endpoint config fun _ => now
  held := rfl
  taken := rfl
  unacked := rfl
  heard := rfl

/-- Messages that are queued between two rounds are taken, and all that they change is the backlog. -/
theorem Rested.queue (h : Rested config now r r' l) (codec : Codec) (messages : List Bytes) :
    let l' := l.run codec (messages.map (.queue .left))
    Rested config now r r' l' ∧ (l' .left).accepted = (l .left).accepted ++ messages ∧
      (l' .left).session.sender.backlog = (l .left).session.sender.backlog +
        (messages.map fun message => message.length + 1).sum := by
  induction messages generalizing l with
  | nil => exact ⟨h, (List.append_nil _).symm, rfl⟩
  | cons message messages ih =>
    have hopen : (l .left).session.isOver = false := h.linked.ownFaithful.plain.isOpen
    have hstep : (l .left).step codec (.queue message) =
        { l .left with
          session := { (l .left).session with sender := (l .left).session.sender.queue message }
          accepted := (l .left).accepted ++ [message] } := by
      simp [History.step, Session.queue, hopen]
    have hlinked := h.linked.queue codec message
    rw [hstep] at hlinked
    have hqueued : Rested config now r r' (l.call codec .left (.queue message)) := by
      constructor
      · rw [call_left_left, call_left_right, hstep]
        exact hlinked
      · exact h.held
      · rw [call_left_left, hstep]
        exact h.taken
      · rw [call_left_left, hstep]
        exact h.unacked
      · rw [call_left_left, hstep]
        exact h.heard
    obtain ⟨hrested, haccepted, hbacklog⟩ := ih hqueued
    rw [List.map_cons, run_cons]
    refine ⟨hrested, haccepted.trans ?_, hbacklog.trans ?_⟩
    · rw [call_left_left, hstep, List.append_assoc]
      rfl
    · rw [call_left_left, hstep]
      simp only [Sender.backlog, Sender.queue, List.map_append, List.map_cons, List.map_nil,
        List.sum_append, List.sum_cons, List.sum_nil]
      omega

/-- After any number of rounds the sides rest, and the backlog has become less by at least one in each, or
is gone. -/
theorem Rested.rounds (h : Rested config now r r' l) (hpositive : 0 < config.windowSize.toNat)
    (hwindow : config.windowSize.toNat ≤ 32767) (codec : Codec) (seed : Side → Nat → UInt32)
    (n : Nat) :
    let l' := (Link.round codec now seed)^[n] l
    (∃ r'', Rested config now r r'' l') ∧ (l' .left).accepted = (l .left).accepted ∧
      ((l' .left).session.sender.backlog = 0 ∨
        (l' .left).session.sender.backlog + n ≤ (l .left).session.sender.backlog) := by
  induction n with
  | zero => exact ⟨⟨r', h⟩, rfl, Or.inr (Nat.le_refl _)⟩
  | succ n ih =>
    obtain ⟨⟨r'', hrested⟩, haccepted, hbacklog⟩ := ih
    obtain ⟨hnext, haccepted', hbacklog'⟩ := hrested.round hpositive hwindow codec seed
    rw [Function.iterate_succ_apply']
    refine ⟨hnext, haccepted'.trans haccepted, ?_⟩
    omega

/-- When nothing waits, the receiving side has passed on all messages that were taken, the empty ones
aside. -/
theorem Rested.delivered_eq (h : Rested config now r r' l) (hconfig : config.Framable)
    (hmessages : ∀ message ∈ (l .left).accepted, Sendable message)
    (hqueued : (l .left).session.sender.queued = [])
    (hfragments : (l .left).session.sender.fragments = []) :
    (l .right).delivered = (l .left).accepted.filter fun message => !message.isEmpty := by
  have hright := h.linked.peerFaithful
  obtain ⟨said, hread, hsaid⟩ :=
    h.linked.ownFaithful.sound.reads h.linked.ownFaithful.plain.isOpen
  have hlog : r'.log = (l .left).framed.map Item.ofPacket := by
    apply (prefix_of_placed hright.settled.log).eq_of_length
    rw [List.length_map]
    exact h.taken
  have hreads := hright.reads
  rw [Sender.stream, hfragments, List.map_nil, List.append_nil, ← hlog, hreads] at hread
  obtain rfl : (l .right).delivered = said := Except.ok.inj (Prod.mk.inj hread).2
  have hwhole := hsaid hconfig hmessages
  rw [hqueued] at hwhole
  simpa [passedOn] using hwhole

/-- Without loss, a side that sends in rounds is alive in each, neither side commits a violation, and after
as many rounds as the messages and their bytes count, nothing waits or is in flight, and the other side has
passed on exactly the messages, the empty ones aside. -/
theorem rounds_deliver (codec : Codec) (endpoint : Side → Endpoint) (config : ProtocolConfig)
    (now : Nat) (seed : Side → Nat → UInt32) (messages : List Bytes) (hconfig : config.fault? = none)
    (hsize : config.maxUdpSize.toNat ≤ 65535) (hmessages : ∀ message ∈ messages, Sendable message) :
    let queued := (start endpoint config fun _ => now).run codec (messages.map (.queue .left))
    let l := fun n => (round codec now seed)^[n] queued
    (∀ n, (l n .left).accepted = messages ∧ ((l n .left).session.update now).health = .alive ∧
      ∀ side, (l n side).violations = []) ∧
    ∀ n, (messages.map fun message => message.length + 1).sum ≤ n →
      (l n .left).session.sender.queued = [] ∧ (l n .left).session.sender.fragments = [] ∧
        (l n .left).session.sender.unacked = [] ∧
        (l n .right).delivered = messages.filter fun message => !message.isEmpty := by
  intro queued l
  obtain ⟨hpositive, hwindow⟩ := config.windowSize_bounds hconfig
  obtain ⟨hrested, haccepted, hbacklog⟩ :=
    (rested_start endpoint config now).queue codec messages
  have hrounds := fun n => hrested.rounds hpositive hwindow codec seed n
  have hall : ∀ n, (l n .left).accepted = messages := fun n => (hrounds n).2.1.trans haccepted
  constructor
  · intro n
    obtain ⟨⟨r', hn⟩, -, -⟩ := hrounds n
    refine ⟨hall n, (hn.update_eq codec).1, fun side => ?_⟩
    cases side with
    | left => exact hn.linked.ownFaithful.unviolated
    | right => exact hn.linked.peerFaithful.unviolated
  · intro n hn
    obtain ⟨⟨r', hrest⟩, -, hless⟩ := hrounds n
    have hempty : (start endpoint config (fun _ => now) .left).session.sender.backlog = 0 := rfl
    have hnone : (l n .left).session.sender.backlog = 0 := by
      rcases hless with hzero | hless
      · exact hzero
      · rw [hbacklog, hempty, Nat.zero_add] at hless
        have hgone : (l n .left).session.sender.backlog + n ≤ n := Nat.le_trans hless hn
        omega
    obtain ⟨hqueued, hfragments⟩ := Sender.idle_of_backlog hnone
    refine ⟨hqueued, hfragments, hrest.unacked, ?_⟩
    have hsendable : ∀ message ∈ (l n .left).accepted, Sendable message := by
      rw [hall n]
      exact hmessages
    rw [hrest.delivered_eq (ProtocolConfig.framable_of_fault? hconfig hsize) hsendable hqueued
      hfragments]
    exact congrArg (List.filter fun message => !message.isEmpty) (hall n)

/-- A short, an empty and a long message, of which the long one takes two packets, through a window of
two. -/
theorem rounds_deliver_windowed :
    let messages : List Bytes := [[1, 2], [], List.replicate 100 7, [3]]
    let queued := (start (fun _ => ⟨.v4 127 0 0 1, 20260⟩) { maxUdpSize := 64, windowSize := 2 }
      fun _ => 0).run ⟨fun _ => none, fun _ _ => none⟩ (messages.map (.queue .left))
    let l := fun n => (round ⟨fun _ => none, fun _ _ => none⟩ 0 fun _ _ => 0)^[n] queued
    (∀ message ∈ messages, Sendable message) ∧ (l 107 .left).session.sender.unacked = [] ∧
      (l 107 .right).delivered = [[1, 2], List.replicate 100 7, [3]] := by
  intro messages queued l
  have hmessages : ∀ message ∈ messages, Sendable message := by
    intro message hm
    have hall : ∀ m ∈ messages, m.length < 4294967296 ∧ ¬ Bundle.Opens m := by decide
    obtain ⟨hlength, hopens⟩ := hall message hm
    exact ⟨hlength, hopens⟩
  have hdone : ∀ n, (messages.map fun message => message.length + 1).sum ≤ n →
      (l n .left).session.sender.queued = [] ∧ (l n .left).session.sender.fragments = [] ∧
        (l n .left).session.sender.unacked = [] ∧
        (l n .right).delivered = messages.filter fun message => !message.isEmpty :=
    (rounds_deliver ⟨fun _ => none, fun _ _ => none⟩ (fun _ => ⟨.v4 127 0 0 1, 20260⟩)
      { maxUdpSize := 64, windowSize := 2 } 0 (fun _ _ => 0) messages (by decide) (by decide)
      hmessages).2
  obtain ⟨-, -, hunacked, hdelivered⟩ := hdone 107 (by decide)
  exact ⟨hmessages, hunacked, hdelivered⟩

end Link

end GameGateway
