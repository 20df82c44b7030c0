import GameGateway.Proofs.Container
import GameGateway.Proofs.Flight

/-!
# The life of a session

A session goes through its phases in one direction. When it starts to shut down it drops what waits and what is in
flight, and nothing but its last call changes it from then on: `History.step_of_closed`. It tells the peer about it at
most once.

## Implementation notes

The flag of sessions that shut down is a field of its own, and `History.flagged_run` says that it agrees with the
phase. Which calls raise it is said by `Session.raises`, call by call and packet by packet as the calls are carried
out, without reading the phase or the flag that they leave; `History.isOver_run` says that these are the calls that
shut a session down.
-/

namespace GameGateway

/-- The place of a phase in the life of a session. -/
def Phase.rank : Phase → Nat
  | .uninitialized => 0
  | .handshaking => 1
  | .connected => 2
  | .disconnecting => 3
  | .closed => 4

/-! ## Datagrams keep the opcode -/

namespace Filter

theorem opcode_encode (codec : Codec) (params : FilterParams) {opcode : UInt16} {packet : Bytes}
    (h : Opcode.bytes opcode <+: packet) : Opcode.bytes opcode <+: encode codec params packet := by
  obtain ⟨rest, rfl⟩ := h
  have hflagged : Opcode.bytes opcode <+: flagged codec params (Opcode.bytes opcode ++ rest) := by
    unfold flagged
    split
    · rw [List.take_left' (Packet.length_bytes opcode)]
      exact List.prefix_append _ _
    · exact List.prefix_append _ _
  exact hflagged.trans (List.prefix_append _ _)

end Filter

/-- The datagram tells the peer that the connection is shut down. -/
def Outbound.IsFarewell (codec : Codec) (out : Outbound) : Prop := Opcode.bytes Opcode.disconnect <+: out.wire codec

instance (codec : Codec) : DecidablePred (Outbound.IsFarewell codec) := fun out =>
  inferInstanceAs (Decidable (Opcode.bytes Opcode.disconnect <+: out.wire codec))

theorem Outbound.not_isFarewell {codec : Codec} {out : Outbound} {opcode : UInt16}
    (h : Opcode.bytes opcode <+: out.packet) (hne : opcode ≠ Opcode.disconnect) : ¬ out.IsFarewell codec :=
  fun hfarewell => hne (Packet.opcode_unique (Filter.opcode_encode codec out.filter h) hfarewell)

theorem Outbound.not_isFarewell_of_onChannel {codec : Codec} {out : Outbound} (h : Packet.OnChannel out.packet) :
    ¬ out.IsFarewell codec := by
  rcases Packet.onChannel_iff.1 h with hopens | hopens
  · exact not_isFarewell hopens (by decide)
  · exact not_isFarewell hopens (by decide)

theorem Outbound.not_isFarewell_of_isAnswer {codec : Codec} {out : Outbound} (h : Packet.IsAnswer out.packet) :
    ¬ out.IsFarewell codec := by
  obtain ⟨opcode, hmem, hopens⟩ := h
  apply not_isFarewell hopens
  rintro rfl
  exact absurd hmem (by decide)

/-- Nothing waits and nothing is in flight. -/
structure Sender.Idle (s : Sender) : Prop where
  queued : s.queued = []
  fragments : s.fragments = []
  unacked : s.unacked = []

theorem Sender.idle_clear (s : Sender) : s.clear.Idle := ⟨rfl, rfl, rfl⟩

namespace Session

variable {s : Session} {now : Nat}

/-! ## Phases go forward -/

theorem isOver_iff : s.isOver = true ↔ s.phase = .disconnecting ∨ s.phase = .closed := by
  simp [isOver]

theorem rank_le_connected (h : s.isOver = false) : s.phase.rank ≤ Phase.connected.rank := by
  cases hphase : s.phase with
  | disconnecting => simp [isOver, hphase] at h
  | closed => simp [isOver, hphase] at h
  | uninitialized => decide
  | handshaking => decide
  | connected => decide

theorem rank_le_closed (s : Session) : s.phase.rank ≤ Phase.closed.rank := by
  cases s.phase <;> decide

theorem rank_awake (s : Session) : s.phase.rank ≤ s.awake.phase.rank := by
  unfold awake
  split
  · rename_i hphase
    rw [hphase]
    exact Nat.zero_le _
  · exact Nat.le_refl _

theorem rank_handle (codec : Codec) (now : Nat) (seed : UInt32) (datagram : Bytes) (s : Session) :
    s.phase.rank ≤ (s.handle codec now seed datagram).session.phase.rank := by
  rcases handle_cases codec now seed datagram s with
    hcase | ⟨hopen, hcase | ⟨request, -, hcase⟩ | ⟨packet, -, hcase⟩⟩
  · rw [hcase]
  · rw [hcase]
    exact rank_awake s
  · rw [hcase, phase_greet]
    exact rank_awake s
  · rw [hcase]
    rcases phase_receive now packet s.awake with hphase | hphase
    · rw [hphase]
      exact rank_awake s
    · rw [hphase]
      exact Nat.le_trans (rank_le_connected hopen) (by decide)

/-! ## What shuts a session down -/

/-- The packets of a datagram that a session acts on. -/
def taken (codec : Codec) (datagram : Bytes) (s : Session) : List Packet :=
  if s.isOver ∨ datagram.length < 2 ∨ SessionRequest.opens datagram then []
  else
    match Filter.decode codec s.filter datagram with
    | .ok packet => Packet.leaves packet
    | .error _ => []

/-- Whether one of some packets tells that this connection is shut down, up to the first violation. -/
def shutBy (now : Nat) (s : Session) : List Packet → Bool
  | [] => false
  | packet :: packets =>
    packet == .disconnect s.connectionId ||
      match (s.react now packet).result with
      | .error _ => false
      | .ok _ => (s.react now packet).session.shutBy now packets

/-- Whether a call raises the flag of sessions that shut down. -/
def raises (codec : Codec) (s : Session) : Event → Bool
  | .queue _ | .connect _ _ | .update _ => false
  | .close _ => s.phase != .disconnecting && s.phase != .closed
  | .handle now _ datagram => (s.touched now).shutBy now (s.taken codec datagram)
  | .finish => true

theorem isOver_react (now : Nat) (packet : Packet) (s : Session) :
    (s.react now packet).session.isOver = (s.isOver || packet == .disconnect s.connectionId) := by
  cases packet with
  | disconnect connectionId =>
    by_cases hid : connectionId = s.connectionId
    · simp [react, hid, disconnect, isOver]
    · simp [react, hid]
  | ping => simp [react]
  | sequenced channel sequence payload => simp [react, isOver]
  | acknowledge sequence => simp [react, isOver]
  | outOfOrder sequence => simp [react, isOver]

theorem isOver_reactAll (now : Nat) (packets : List Packet) (s : Session) :
    (s.reactAll now packets).session.isOver = (s.isOver || s.shutBy now packets) := by
  induction packets generalizing s with
  | nil => exact (Bool.or_false _).symm
  | cons packet packets ih =>
    rw [shutBy, ← Bool.or_assoc, ← isOver_react now packet s]
    simp only [reactAll]
    cases (s.react now packet).result with
    | error v => exact (Bool.or_false _).symm
    | ok messages => exact ih _

theorem isOver_touched (now : Nat) (s : Session) : (s.touched now).isOver = s.isOver := isOver_awake s

theorem filter_awake (s : Session) : s.awake.filter = s.filter := by
  unfold awake
  split
  · rfl
  · rfl

/-- A datagram is ignored or answered as a request, and no packet of it is acted on, or all packets of it are. -/
theorem handle_taken_cases (codec : Codec) (now : Nat) (seed : UInt32) (datagram : Bytes) (s : Session) :
    (s.taken codec datagram = [] ∧
      (s.handle codec now seed datagram = { session := s } ∨ s.handle codec now seed datagram = { session := s.awake } ∨
        ∃ request, s.handle codec now seed datagram = s.awake.greet now seed request)) ∨
    (s.isOver = false ∧ ∃ packet, Packet.leaves packet = s.taken codec datagram ∧
      s.handle codec now seed datagram = s.awake.receive now packet) := by
  by_cases hready : s.isOver = true ∨ datagram.length < 2
  · left
    simp only [taken, handle, ← or_assoc, hready, true_or, if_true, and_self]
  cases hopens : SessionRequest.opens datagram with
  | true =>
    left
    simp only [taken, handle, ← or_assoc, hready, hopens, false_or, if_true, if_false, true_and]
    cases SessionRequest.parse? datagram with
    | none => exact Or.inl (Or.inr rfl)
    | some request => exact Or.inr ⟨request, rfl⟩
  | false =>
    simp only [taken, handle, ← or_assoc, hready, hopens, false_or, filter_awake, Bool.false_eq_true, if_false]
    cases Filter.decode codec s.filter datagram with
    | error e => exact Or.inl ⟨rfl, Or.inl (Or.inr rfl)⟩
    | ok packet => exact Or.inr ⟨Bool.eq_false_iff.2 (not_or.1 hready).1, packet, rfl, rfl⟩

/-- A session acts on no packet of a datagram, which then brings no message and does not shut the session down, or it
acts on all packets of it. -/
theorem handle_taken (codec : Codec) (now : Nat) (seed : UInt32) (datagram : Bytes) (s : Session) :
    (s.taken codec datagram = [] ∧ (s.handle codec now seed datagram).session.isOver = s.isOver ∧
      (s.handle codec now seed datagram).result = .ok []) ∨
    (s.isOver = false ∧ ∃ packet, Packet.leaves packet = s.taken codec datagram ∧
      s.handle codec now seed datagram = s.awake.receive now packet) := by
  apply (handle_taken_cases codec now seed datagram s).imp_left
  rintro ⟨htaken, hcase⟩
  refine ⟨htaken, ?_⟩
  obtain hcase | hcase | ⟨request, hcase⟩ := hcase
  · rw [hcase]
    exact ⟨rfl, rfl⟩
  · rw [hcase]
    exact ⟨isOver_awake s, rfl⟩
  · rw [hcase]
    refine ⟨?_, rfl⟩
    rw [isOver, phase_greet]
    exact isOver_awake s

theorem isOver_receive (now : Nat) (packet : Bytes) (s : Session) :
    (s.awake.receive now packet).session.isOver =
      (s.isOver || (s.touched now).shutBy now (Packet.leaves packet)) := by
  have htouched : ({ s.awake with lastActivity := now } : Session) = s.touched now := rfl
  have hall := isOver_reactAll now (Packet.leaves packet) (s.touched now)
  rw [isOver_touched] at hall
  rw [receive, htouched]
  split
  · exact hall
  · split
    · exact hall
    · exact hall

theorem isOver_handle (codec : Codec) (now : Nat) (seed : UInt32) (datagram : Bytes) (s : Session) :
    (s.handle codec now seed datagram).session.isOver =
      (s.isOver || (s.touched now).shutBy now (s.taken codec datagram)) := by
  rcases handle_taken codec now seed datagram s with ⟨htaken, hclosed, -⟩ | ⟨-, packet, htaken, hhandle⟩
  · rw [htaken, hclosed]
    exact (Bool.or_false _).symm
  · rw [hhandle, ← htaken]
    exact isOver_receive now packet s

/-! ## What is left behind -/

/-- A session that is shutting down has nothing to send, and in its last state nothing that came early or in pieces. -/
structure Emptied (s : Session) : Prop where
  sender : s.isOver = true → s.sender.Idle
  receiver : s.phase = .closed → s.receiver.held = [] ∧ s.receiver.assembly = none

theorem idle_react (now : Nat) (packet : Packet) (h : s.isOver = true → s.sender.Idle) :
    (s.react now packet).session.isOver = true → (s.react now packet).session.sender.Idle := by
  cases packet with
  | disconnect connectionId =>
    simp only [react]
    split
    · exact fun _ => Sender.idle_clear s.sender
    · exact h
  | ping => exact h
  | sequenced channel sequence payload => exact h
  | acknowledge sequence =>
    intro hclosed
    have hidle := h hclosed
    refine ⟨hidle.queued, hidle.fragments, ?_⟩
    simp [react, Sender.acknowledge, hidle.unacked]
  | outOfOrder sequence =>
    intro hclosed
    have hidle := h hclosed
    refine ⟨hidle.queued, hidle.fragments, ?_⟩
    simp [react, Sender.outOfOrder, hidle.unacked]

/-- Packets behind the one that shuts a session down fill nothing that it has dropped. -/
theorem carried_idle (now : Nat) :
    Carried now fun s s' _ => (s.isOver = true → s.sender.Idle) → s'.isOver = true → s'.sender.Idle where
  nil := fun _ => id
  append := fun hfirst hrest h => hrest (hfirst h)
  touch := fun _ => id
  react := fun _ packet => idle_react now packet
  acknowledgement := fun _ => id

theorem emptied_of_open (h : s.isOver = false) : s.Emptied where
  sender := fun hclosed => absurd (h.symm.trans hclosed) Bool.false_ne_true
  receiver := fun hphase => absurd hphase (phase_ne_closed h)

theorem emptied_disconnect (s : Session) : s.disconnect.Emptied where
  sender := fun _ => Sender.idle_clear s.sender
  receiver := by
    intro hphase
    cases hphase

theorem emptied_finish (s : Session) : s.finish.Emptied where
  sender := fun _ => Sender.idle_clear s.sender
  receiver := fun _ => ⟨rfl, rfl⟩

theorem Emptied.handle (h : s.Emptied) (codec : Codec) (now : Nat) (seed : UInt32) (datagram : Bytes) :
    (s.handle codec now seed datagram).session.Emptied := by
  constructor
  · apply (carried_idle now).handle
    · intro s' hidle
      rw [isOver_awake, sender_awake]
      exact hidle
    · intro s' request hidle
      rw [isOver, phase_greet, sender_greet]
      exact hidle
    · exact h.sender
  · by_cases hphase : s.phase = .closed
    · have hclosed : s.isOver = true := isOver_iff.2 (Or.inr hphase)
      have hsame : s.handle codec now seed datagram = { session := s } := by simp [Session.handle, hclosed]
      rw [hsame]
      exact h.receiver
    · intro hclosed
      exact absurd hclosed (phase_handle_ne_closed codec now seed datagram hphase)

/-! ## Histories -/

namespace History

variable {h : History}

theorem rank_step (codec : Codec) (h : History) (event : Event) :
    h.session.phase.rank ≤ (h.step codec event).session.phase.rank := by
  cases event with
  | queue message =>
    simp only [step, Session.queue]
    split
    · exact Nat.le_refl _
    · exact Nat.le_refl _
  | connect accountId playerId =>
    simp only [step, Session.connect]
    split
    · exact Nat.le_refl _
    · rename_i hopen
      exact rank_le_connected (Bool.eq_false_iff.2 hopen)
  | close reason =>
    simp only [step, Session.close]
    split
    · exact Nat.le_refl _
    · rename_i hopen
      have hbefore : Phase.connected.rank ≤ Phase.disconnecting.rank := by decide
      exact Nat.le_trans (rank_le_connected (Bool.eq_false_iff.2 hopen)) hbefore
  | update now =>
    obtain ⟨sender, hsession⟩ := update_session now h.session
    simp only [step, hsession]
    exact Nat.le_refl _
  | handle now seed datagram => exact rank_handle codec now seed datagram h.session
  | finish => exact rank_le_closed h.session

/-- Whether one of some calls raises the flag of sessions that shut down. -/
def raised (codec : Codec) (h : History) : List Event → Bool
  | [] => false
  | event :: events => h.session.raises codec event || (h.step codec event).raised codec events

theorem isOver_step (codec : Codec) (h : History) (event : Event) :
    (h.step codec event).session.isOver = (h.session.isOver || h.session.raises codec event) := by
  cases event with
  | queue message =>
    rw [raises, Bool.or_false]
    exact isOver_queue message h.session
  | connect accountId playerId =>
    rw [raises, Bool.or_false]
    simp only [step, Session.connect]
    split
    · rfl
    · rename_i hopen
      exact (Bool.eq_false_iff.2 hopen).symm
  | close reason =>
    cases hclosed : h.session.isOver with
    | true => simp [step, Session.close, hclosed]
    | false =>
      have hraises : h.session.raises codec (.close reason) = !h.session.isOver := by
        simp [raises, isOver, bne]
      rw [hraises, hclosed]
      simp only [step, close_of_open hclosed]
      rfl
  | update now =>
    obtain ⟨sender, hsession⟩ := update_session now h.session
    rw [raises, Bool.or_false]
    simp only [step, hsession]
    rfl
  | handle now seed datagram => exact isOver_handle codec now seed datagram h.session
  | finish => exact (Bool.or_true _).symm

/-- A session has started to shut down exactly if one of its calls raised the flag. -/
theorem isOver_run (codec : Codec) (h : History) (events : List Event) :
    (h.run codec events).session.isOver = (h.session.isOver || h.raised codec events) := by
  induction events generalizing h with
  | nil => exact (Bool.or_false _).symm
  | cons event events ih =>
    calc
      (h.run codec (event :: events)).session.isOver =
          ((h.step codec event).session.isOver || (h.step codec event).raised codec events) := ih _
      _ = (h.session.isOver || h.raised codec (event :: events)) := by
        rw [isOver_step, Bool.or_assoc]
        rfl

theorem emptied_step (hemptied : h.session.Emptied) (codec : Codec) (event : Event) :
    (h.step codec event).session.Emptied := by
  cases event with
  | queue message =>
    simp only [step, Session.queue]
    split
    · exact hemptied
    · rename_i hopen
      exact emptied_of_open (Bool.eq_false_iff.2 hopen)
  | connect accountId playerId =>
    simp only [step, Session.connect]
    split
    · exact hemptied
    · exact emptied_of_open rfl
  | close reason =>
    simp only [step, Session.close]
    split
    · exact hemptied
    · exact emptied_disconnect h.session
  | update now =>
    cases hclosed : h.session.isOver with
    | true =>
      simp only [step, (update_of_closed now hclosed).1]
      exact hemptied
    | false =>
      obtain ⟨sender, hsession⟩ := update_session now h.session
      simp only [step, hsession]
      exact emptied_of_open hclosed
  | handle now seed datagram => exact hemptied.handle codec now seed datagram
  | finish => exact emptied_finish h.session

theorem emptied_run (hemptied : h.session.Emptied) (codec : Codec) (events : List Event) :
    (h.run codec events).session.Emptied :=
  run_preserves (P := fun h => h.session.Emptied)
    (fun _ event hemptied => emptied_step hemptied codec event) hemptied events

/-- Behind its start to shut down nothing but its last call changes a session, and no call sends, frames, takes or
passes on anything. -/
theorem step_of_closed (hclosed : h.session.isOver = true) (codec : Codec) {event : Event}
    (hevent : event ≠ .finish) : h.step codec event = h := by
  cases event with
  | queue message => simp [step, Session.queue, hclosed]
  | connect accountId playerId => simp [step, Session.connect, hclosed]
  | close reason => simp [step, Session.close, hclosed]
  | update now =>
    obtain ⟨hsession, hsent⟩ := update_of_closed now hclosed
    have hframed : h.session.framed now = [] := by
      rcases update_cases now h.session with ⟨hframed, -⟩ | ⟨hopen, -⟩
      · exact hframed
      · exact absurd (hopen.symm.trans hclosed) Bool.false_ne_true
    simp [step, hsession, hsent, hframed]
  | handle now seed datagram => simp [step, Session.handle, react, hclosed, Except.toOption]
  | finish => exact absurd rfl hevent

/-- Behind the start of a shutdown nothing is sent or passed on, also by the last call. -/
theorem run_of_closed (hclosed : h.session.isOver = true) (codec : Codec) (events : List Event) :
    (h.run codec events).sent = h.sent ∧ (h.run codec events).delivered = h.delivered := by
  have hrun : (h.run codec events).session.isOver = true ∧ (h.run codec events).sent = h.sent ∧
      (h.run codec events).delivered = h.delivered := by
    apply run_preserves (P := fun h' => h'.session.isOver = true ∧ h'.sent = h.sent ∧ h'.delivered = h.delivered)
    · rintro h' event ⟨hclosed', hsent, hdelivered⟩
      by_cases hevent : event = .finish
      · rw [hevent]
        exact ⟨rfl, hsent, hdelivered⟩
      · rw [step_of_closed hclosed' codec hevent]
        exact ⟨hclosed', hsent, hdelivered⟩
    · exact ⟨hclosed, rfl, rfl⟩
  exact hrun.2

/-! ## Farewells -/

/-- The datagrams sent so far that tell the peer that the connection is shut down. -/
def farewells (codec : Codec) (h : History) : List Outbound := h.sent.filter fun out => out.IsFarewell codec

/-- There was at most one farewell, and none while the session is open. -/
structure FarewellOnce (codec : Codec) (h : History) : Prop where
  once : (h.farewells codec).length ≤ 1
  isOpen : h.session.isOver = false → h.farewells codec = []

theorem not_isFarewell_handle (hledger : Sender.Ledger h.framed h.session.sender) (codec : Codec) (now : Nat)
    (seed : UInt32) (datagram : Bytes) {out : Outbound}
    (hout : out ∈ (h.session.handle codec now seed datagram).sent) : ¬ out.IsFarewell codec := by
  rcases answers_handle codec now seed datagram h.session out hout with hanswer | hdata
  · exact Outbound.not_isFarewell_of_isAnswer hanswer
  · exact Outbound.not_isFarewell_of_onChannel (hledger.onChannel (hledger.mem_framed hdata))

theorem not_isFarewell_update (hledger : Sender.Ledger h.framed h.session.sender) (codec : Codec) {now : Nat}
    {out : Outbound} (hout : out ∈ (h.session.update now).sent) : ¬ out.IsFarewell codec :=
  Outbound.not_isFarewell_of_onChannel (onChannel_update hledger now out hout)

/-- Datagrams other than farewells. -/
theorem FarewellOnce.append {h' : History} {codec : Codec} (honce : FarewellOnce codec h) {sent : List Outbound}
    (hsent : h'.sent = h.sent ++ sent) (hnone : ∀ out ∈ sent, ¬ out.IsFarewell codec)
    (hopen : h'.session.isOver = false → h.session.isOver = false) : FarewellOnce codec h' := by
  have hsame : h'.farewells codec = h.farewells codec := by
    have hempty : sent.filter (fun out => out.IsFarewell codec) = [] := by
      apply List.filter_eq_nil_iff.2
      intro out hout
      simpa using hnone out hout
    rw [farewells, hsent, List.filter_append, hempty, List.append_nil]
    rfl
  constructor
  · rw [hsame]
    exact honce.once
  · intro hopen'
    rw [hsame]
    exact honce.isOpen (hopen hopen')

theorem farewellOnce_step {codec : Codec} (honce : FarewellOnce codec h)
    (hledger : Sender.Ledger h.framed h.session.sender) (event : Event) : FarewellOnce codec (h.step codec event) := by
  have hopen : (h.step codec event).session.isOver = false → h.session.isOver = false := by
    intro hopen
    rw [isOver_step] at hopen
    exact (Bool.or_eq_false_iff.1 hopen).1
  cases event with
  | queue message => exact honce.append (List.append_nil _).symm (by simp) hopen
  | connect accountId playerId => exact honce.append (List.append_nil _).symm (by simp) hopen
  | close reason =>
    cases hclosed : h.session.isOver with
    | true =>
      rw [step_of_closed hclosed codec (by simp)]
      exact honce
    | false =>
      have hstep : h.step codec (.close reason) =
          { h with
            session := h.session.disconnect
            sent := h.sent ++ [h.session.outbound (Packet.farewell h.session.connectionId reason)] } := by
        simp only [step, close_of_open hclosed]
      have hnone : (h.sent.filter fun out => out.IsFarewell codec) = [] := honce.isOpen hclosed
      rw [hstep]
      constructor
      · rw [farewells, List.filter_append, hnone, List.nil_append]
        exact List.length_filter_le _ [_]
      · intro hstill
        cases hstill
  | update now => exact honce.append rfl (fun out => not_isFarewell_update hledger codec) hopen
  | handle now seed datagram =>
    exact honce.append rfl (fun out => not_isFarewell_handle hledger codec now seed datagram) hopen
  | finish => exact honce.append (List.append_nil _).symm (by simp) hopen

theorem farewellOnce_run {config : ProtocolConfig} {codec : Codec} (honce : FarewellOnce codec h)
    (hsound : Sound config h.accepted h.framed h.session) (events : List Event) :
    FarewellOnce codec (h.run codec events) := by
  have hrun : FarewellOnce codec (h.run codec events) ∧
      Sound config (h.run codec events).accepted (h.run codec events).framed (h.run codec events).session := by
    apply run_preserves (P := fun h => FarewellOnce codec h ∧ Sound config h.accepted h.framed h.session)
    · rintro h event ⟨honce, hsound⟩
      exact ⟨farewellOnce_step honce hsound.ledger event, hsound.step codec event⟩
    · exact ⟨honce, hsound⟩
  exact hrun.1

/-- In every run: the phase never goes back; the flag is raised exactly when the session is shutting down or closed,
and then nothing waits and nothing is in flight, and once it is closed nothing is held or half put together; from then
on every call but the last changes nothing at all and is refused where it can be; and at most one datagram tells the
peer that the connection is shut down. -/
theorem shuts_down_once (codec : Codec) (endpoint : Endpoint) (config : ProtocolConfig) (now : Nat)
    (events : List Event) :
    let h := (start endpoint config now).run codec events
    let s := h.session
    (∀ event, s.phase.rank ≤ (h.step codec event).session.phase.rank) ∧
    ((start endpoint config now).raised codec events = true ↔ s.phase = .disconnecting ∨ s.phase = .closed) ∧
    (s.isClosed = true ↔ s.phase = .disconnecting ∨ s.phase = .closed) ∧
    (s.isClosed = true → s.sender.queued = [] ∧ s.sender.fragments = [] ∧ s.sender.unacked = []) ∧
    (s.phase = .closed → s.receiver.held = [] ∧ s.receiver.assembly = none) ∧
    (s.isClosed = true → (∀ event, event ≠ .finish → h.step codec event = h) ∧
      (∀ accountId playerId, s.connect accountId playerId = (s, false)) ∧
      (∀ reason, s.close reason = (s, [], false)) ∧
      (∀ message, s.queue message = (s, false)) ∧
      ∀ (kind : Message.Kind) (body : kind.Body), s.send kind body = (s, false)) ∧
    (h.farewells codec).length ≤ 1 := by
  intro h s
  have hsound : Sound config [] [] (start endpoint config now).session := sound_create endpoint config now
  have hemptied : s.Emptied := emptied_run (emptied_of_open rfl) codec events
  have hraised : s.isOver = (start endpoint config now).raised codec events := isOver_run codec _ events
  have hflagged : s.isClosed = s.isOver := flagged_run codec endpoint config now events
  rw [hflagged]
  refine ⟨rank_step codec h, ?_, isOver_iff, ?_, hemptied.receiver, ?_, ?_⟩
  · rw [← hraised]
    exact isOver_iff
  · intro hclosed
    have hidle := hemptied.sender hclosed
    exact ⟨hidle.queued, hidle.fragments, hidle.unacked⟩
  · intro hclosed
    refine ⟨fun event hevent => step_of_closed hclosed codec hevent, ?_, ?_, ?_, ?_⟩
    · intro accountId playerId
      exact if_pos hclosed
    · intro reason
      exact if_pos hclosed
    · intro message
      exact if_pos hclosed
    · intro kind body
      exact if_pos hclosed
  · have honce : FarewellOnce codec (start endpoint config now) := ⟨Nat.zero_le _, fun _ => rfl⟩
    exact (farewellOnce_run honce hsound events).once

end History

end Session

end GameGateway
