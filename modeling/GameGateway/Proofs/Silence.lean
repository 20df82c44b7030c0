import GameGateway.Proofs.Held
import GameGateway.Proofs.Lifecycle

/-!
# Silence behind a shutdown

A session that has started to shut down takes nothing any more, but it goes on with the datagram in which its peer told
it to: packets behind the disconnect are still answered, their messages are passed on, and the expected number is
acknowledged at the end. `History.silent_iff` says which datagrams make it speak up so late. There are no others:
behind a shutdown of its own it is silent, and every later call is.

## Implementation notes

`Session.speak` says again what a call sends and passes on, each piece with whether the session had started to shut
down by then. The phase is read before every packet of a datagram, because the disconnect may stand anywhere in it; the
pieces are those of the call itself (`History.erase_speech`). Messages of a datagram that is found to violate the
protocol are not passed on, which is why a violation can hush what came before it. A message carries the phase before
the packet that completes it. The phase at the return of the call would do as well: a packet that completes a message
is the expected one, so the acknowledgement at the end of the datagram is late whenever the call returns late.
-/

namespace GameGateway

section Stamp

variable {α : Type}

/-- What is said at one moment, with whether the session had started to shut down by then. -/
def stamp (closing : Bool) (said : List α) : List (Bool × α) := said.map (closing, ·)

/-- All of it was said before the session started to shut down. -/
def InTime (said : List (Bool × α)) : Prop := ∀ entry ∈ said, entry.1 = false

instance (said : List (Bool × α)) : Decidable (InTime said) :=
  inferInstanceAs (Decidable (∀ entry ∈ said, entry.1 = false))

@[simp] theorem map_snd_stamp (closing : Bool) (said : List α) : (stamp closing said).map Prod.snd = said := by
  simp [stamp, Function.comp_def]

@[simp] theorem stamp_nil (closing : Bool) : stamp closing ([] : List α) = [] := rfl

theorem stamp_append (closing : Bool) (said said' : List α) :
    stamp closing (said ++ said') = stamp closing said ++ stamp closing said' := List.map_append

theorem inTime_nil : InTime ([] : List (Bool × α)) := by
  intro entry hentry
  cases hentry

theorem inTime_append {said said' : List (Bool × α)} : InTime (said ++ said') ↔ InTime said ∧ InTime said' :=
  List.forall_mem_append

theorem inTime_stamp {closing : Bool} {said : List α} : InTime (stamp closing said) ↔ closing = false ∨ said = [] := by
  cases said with
  | nil => simp [inTime_nil]
  | cons first rest =>
    have hentry : ∀ entry ∈ stamp closing (first :: rest), entry.1 = closing := by
      intro entry hentry
      obtain ⟨piece, -, rfl⟩ := List.mem_map.1 hentry
      rfl
    constructor
    · intro h
      exact Or.inl (h (closing, first) List.mem_cons_self)
    · rintro (rfl | hnone)
      · exact hentry
      · cases hnone

end Stamp

/-- What packets make a session say: datagrams, and messages that are passed on unless one of the packets is a
violation. -/
structure Utterance where
  sent : List (Bool × Outbound) := []
  result : Except Violation (List (Bool × Bytes)) := .ok []

/-- What calls make a session say: datagrams, and messages from the peer that are passed on. -/
structure Speech where
  sent : List (Bool × Outbound) := []
  passed : List (Bool × Bytes) := []

/-- Nothing is said by a session that has started to shut down. -/
structure Speech.Silent (speech : Speech) : Prop where
  sent : InTime speech.sent
  passed : InTime speech.passed

instance (speech : Speech) : Decidable speech.Silent :=
  decidable_of_iff (InTime speech.sent ∧ InTime speech.passed) ⟨fun ⟨h, h'⟩ => ⟨h, h'⟩, fun ⟨h, h'⟩ => ⟨h, h'⟩⟩

namespace Session

variable {s s' : Session} {now : Nat} {packet : Packet} {packets front behind : List Packet} {messages : List Bytes}

/-! ## Packets piece by piece -/

/-- What acting on packets makes a session say. -/
def utterAll (now : Nat) (s : Session) : List Packet → Utterance
  | [] => {}
  | packet :: packets =>
    let first := s.react now packet
    match first.result with
    | .error v => { sent := stamp s.isOver first.sent, result := .error v }
    | .ok messages =>
      let rest := first.session.utterAll now packets
      { sent := stamp s.isOver first.sent ++ rest.sent
        result := rest.result.map (stamp s.isOver messages ++ ·) }

/-- The pieces are what the packets make the session send and pass on. -/
theorem erase_utterAll (now : Nat) (s : Session) (packets : List Packet) :
    (s.utterAll now packets).sent.map Prod.snd = (s.reactAll now packets).sent ∧
      (s.utterAll now packets).result.map (fun passed => passed.map Prod.snd) = (s.reactAll now packets).result := by
  induction packets generalizing s with
  | nil => exact ⟨rfl, rfl⟩
  | cons packet packets ih =>
    simp only [utterAll, reactAll]
    cases hresult : (s.react now packet).result with
    | error v => exact ⟨map_snd_stamp _ _, hresult.symm⟩
    | ok messages =>
      obtain ⟨hsent, hpassed⟩ := ih (s.react now packet).session
      simp only [List.map_append, map_snd_stamp, hsent, true_and, ← hpassed]
      cases ((s.react now packet).session.utterAll now packets).result with
      | error v => rfl
      | ok passed => simp [Except.map]

/-- While no packet shuts an open session down, all is said at the same side of the shutdown. -/
theorem utterAll_of_shutBy (now : Nat) (packets : List Packet) (s : Session)
    (h : s.shutBy now packets = true → s.isOver = true) :
    s.utterAll now packets =
      { sent := stamp s.isOver (s.reactAll now packets).sent
        result := (s.reactAll now packets).result.map (stamp s.isOver) } := by
  induction packets generalizing s with
  | nil => rfl
  | cons packet packets ih =>
    have hclosed : (s.react now packet).session.isOver = s.isOver := by
      rw [isOver_react]
      cases hmatch : packet == .disconnect s.connectionId with
      | false => exact Bool.or_false _
      | true =>
        rw [h (by rw [shutBy, hmatch, Bool.true_or])]
        rfl
    simp only [utterAll, reactAll]
    cases hresult : (s.react now packet).result with
    | error v => simp [hresult, Except.map]
    | ok messages =>
      have hrest := ih (s.react now packet).session fun hshut => by
        rw [hclosed]
        apply h
        rw [shutBy, hresult]
        exact Bool.or_eq_true_iff.2 (Or.inr hshut)
      rw [hrest, hclosed]
      cases ((s.react now packet).session.reactAll now packets).result with
      | error v => simp [Except.map, stamp_append]
      | ok more => simp [Except.map, stamp_append]

/-! ## The packet that shuts down -/

theorem reactAll_disconnect (now : Nat) (s : Session) (behind : List Packet) :
    s.reactAll now (.disconnect s.connectionId :: behind) = s.disconnect.reactAll now behind := by
  simp only [reactAll, react, if_true]
  rcases s.disconnect.reactAll now behind with ⟨session, sent, v | messages, advanced⟩
  · rfl
  · rfl

/-- The session behind some packets and the disconnect of its peer. -/
def cutOff (now : Nat) (front : List Packet) (s : Session) : Session := (s.reactAll now front).session.disconnect

theorem reactAll_cutOff (h : (s.reactAll now front).result = .ok messages) (behind : List Packet) :
    s.reactAll now (front ++ .disconnect s.connectionId :: behind) =
      let back := (s.cutOff now front).reactAll now behind
      { session := back.session
        sent := (s.reactAll now front).sent ++ back.sent
        result := back.result.map (messages ++ ·)
        advanced := (s.reactAll now front).advanced || back.advanced } := by
  have hback := reactAll_disconnect now (s.reactAll now front).session behind
  rw [connectionId_reactAll] at hback
  simp only [reactAll_append h, hback, cutOff]

/-- Behind the disconnect all is said late. -/
theorem utterAll_cutOff (h : (s.reactAll now front).result = .ok messages) (behind : List Packet) :
    ∃ passed, (s.utterAll now front).result = .ok passed ∧
      s.utterAll now (front ++ .disconnect s.connectionId :: behind) =
        let back := (s.cutOff now front).reactAll now behind
        { sent := (s.utterAll now front).sent ++ stamp true back.sent
          result := back.result.map fun more => passed ++ stamp true more } := by
  induction front generalizing s messages with
  | nil =>
    have hback : s.disconnect.utterAll now behind =
        { sent := stamp true (s.disconnect.reactAll now behind).sent
          result := (s.disconnect.reactAll now behind).result.map (stamp true) } :=
      utterAll_of_shutBy now behind s.disconnect fun _ => rfl
    refine ⟨[], rfl, ?_⟩
    simp only [List.nil_append, utterAll, react, if_true, stamp_nil, hback, cutOff, reactAll]
    cases (s.disconnect.reactAll now behind).result with
    | error v => rfl
    | ok more => rfl
  | cons packet front ih =>
    obtain ⟨said, more, hfirst, hfront, -⟩ := reactAll_cons_ok h
    obtain ⟨passed, hpassed, hall⟩ := ih hfront
    rw [connectionId_react] at hall
    have hcut : s.cutOff now (packet :: front) = (s.react now packet).session.cutOff now front := by
      simp only [cutOff, reactAll, hfirst]
    refine ⟨stamp s.isOver said ++ passed, ?_, ?_⟩
    · simp only [utterAll, hfirst, hpassed]
      rfl
    · simp only [List.cons_append, utterAll, hfirst, hall, hcut, List.append_assoc]
      cases (((s.react now packet).session.cutOff now front).reactAll now behind).result with
      | error v => rfl
      | ok late => simp [Except.map]

/-- The first packet that shuts a session down. -/
theorem exists_cutOff (h : s.shutBy now packets = true) :
    ∃ front behind messages, packets = front ++ .disconnect s.connectionId :: behind ∧
      (s.reactAll now front).result = .ok messages ∧ s.shutBy now front = false := by
  induction packets generalizing s with
  | nil => cases h
  | cons packet packets ih =>
    cases hmatch : packet == .disconnect s.connectionId with
    | true => exact ⟨[], packets, [], by rw [beq_iff_eq.1 hmatch]; rfl, rfl, rfl⟩
    | false =>
      rw [shutBy, hmatch, Bool.false_or] at h
      cases hresult : (s.react now packet).result with
      | error v =>
        rw [hresult] at h
        cases h
      | ok said =>
        rw [hresult] at h
        obtain ⟨front, behind, messages, hpackets, hfront, hstill⟩ := ih h
        refine ⟨packet :: front, behind, said ++ messages, ?_, ?_, ?_⟩
        · rw [hpackets, connectionId_react]
          rfl
        · simp only [reactAll, hresult, hfront]
          rfl
        · rw [shutBy, hmatch, hresult]
          exact hstill

/-! ## Packets that are not answered -/

/-- A session with nothing to send does not answer the packet: it is no ping, and if it is sequenced it lies beyond the
window. -/
def Ignores (s : Session) : Packet → Prop
  | .disconnect _ | .acknowledge _ | .outOfOrder _ => True
  | .ping => False
  | .sequenced _ sequence _ =>
    0 < Sequence.distance s.receiver.next sequence ∧
      s.config.windowSize.toNat ≤ Sequence.distance s.receiver.next sequence

theorem ignores_congr (hnext : s'.receiver.next = s.receiver.next) (hconfig : s'.config = s.config) :
    s'.Ignores packet ↔ s.Ignores packet := by
  cases packet with
  | sequenced channel sequence payload => simp only [Ignores, hnext, hconfig]
  | _ => exact Iff.rfl

theorem react_of_ignores (now : Nat) (hidle : s.sender.Idle) (h : s.Ignores packet) :
    (s.react now packet).sent = [] ∧ (s.react now packet).result = .ok [] ∧ (s.react now packet).advanced = false ∧
      (s.react now packet).session.sender.Idle := by
  cases packet with
  | disconnect connectionId =>
    refine ⟨rfl, rfl, rfl, ?_⟩
    simp only [react]
    split
    · exact Sender.idle_clear s.sender
    · exact hidle
  | ping => exact h.elim
  | sequenced channel sequence payload =>
    obtain ⟨hahead, hbeyond⟩ := h
    simp only [react]
    have harrives := Receiver.arrive_arrives s.config.windowSize sequence ⟨channel, payload⟩ s.receiver
    generalize s.receiver.arrive s.config.windowSize sequence ⟨channel, payload⟩ = arrival at harrives ⊢
    cases harrives with
    | late before => omega
    | beyond ahead outside => exact ⟨rfl, rfl, rfl, hidle⟩
    | early ahead inside => omega
    | violation expected processed => omega
    | next expected processed => omega
  | acknowledge sequence =>
    refine ⟨rfl, rfl, rfl, hidle.queued, hidle.fragments, ?_⟩
    simp [react, Sender.acknowledge, hidle.unacked]
  | outOfOrder sequence =>
    refine ⟨?_, rfl, rfl, hidle.queued, hidle.fragments, ?_⟩
    · simp [react, Sender.outOfOrder, hidle.unacked]
    · simp [react, Sender.outOfOrder, hidle.unacked]

/-- A packet that is neither answered nor expected nor a violation. -/
theorem ignores_of_react (hsent : (s.react now packet).sent = []) (hresult : (s.react now packet).result = .ok messages)
    (hstays : (s.react now packet).advanced = false) : s.Ignores packet := by
  cases packet with
  | disconnect connectionId => trivial
  | ping => cases hsent
  | sequenced channel sequence payload =>
    simp only [react] at hsent hresult hstays
    have harrives := Receiver.arrive_arrives s.config.windowSize sequence ⟨channel, payload⟩ s.receiver
    generalize s.receiver.arrive s.config.windowSize sequence ⟨channel, payload⟩ = arrival at *
    cases harrives with
    | late before => cases hsent
    | beyond ahead outside => exact ⟨ahead, outside⟩
    | early ahead inside => cases hsent
    | violation expected processed => cases hresult
    | next expected processed => cases hstays
  | acknowledge sequence => trivial
  | outOfOrder sequence => trivial

theorem reactAll_of_ignores (now : Nat) (hidle : s.sender.Idle) (h : ∀ packet ∈ packets, s.Ignores packet) :
    (s.reactAll now packets).sent = [] ∧ (s.reactAll now packets).result = .ok [] ∧
      (s.reactAll now packets).advanced = false := by
  induction packets generalizing s with
  | nil => exact ⟨rfl, rfl, rfl⟩
  | cons packet packets ih =>
    obtain ⟨hsent, hresult, hstays, hidle'⟩ := react_of_ignores now hidle (h packet List.mem_cons_self)
    obtain ⟨hsents, hresults, hstay⟩ := ih hidle' fun later hlater =>
      (ignores_congr (next_react hstays) (keeps_react now s packet).config).2 (h later (List.mem_cons_of_mem _ hlater))
    simp only [reactAll, hsent, hresult, hstays, hsents, hresults, hstay]
    exact ⟨rfl, rfl, rfl⟩

theorem ignores_of_reactAll (hsent : (s.reactAll now packets).sent = [])
    (hresult : (s.reactAll now packets).result = .ok messages) (hstays : (s.reactAll now packets).advanced = false) :
    ∀ packet ∈ packets, s.Ignores packet := by
  induction packets generalizing s messages with
  | nil => simp
  | cons packet packets ih =>
    obtain ⟨said, more, hfirst, hrest, -⟩ := reactAll_cons_ok hresult
    simp only [reactAll, hfirst] at hsent hstays
    obtain ⟨hnone, hnones⟩ := List.append_eq_nil_iff.1 hsent
    obtain ⟨hstill, hstills⟩ := Bool.or_eq_false_iff.1 hstays
    have hlater := ih hnones hrest hstills
    intro p hp
    rcases List.mem_cons.1 hp with rfl | hp
    · exact ignores_of_react hnone hfirst hstill
    · exact (ignores_congr (next_react hstill) (keeps_react now s packet).config).1 (hlater p hp)

/-! ## Packets that are expected -/

/-- The expected packet is the one that makes the expected number move on, unless it is a violation; any other packet
brings no message. -/
theorem advanced_react (hresult : (s.react now packet).result = .ok messages) :
    ((s.react now packet).advanced = true ∧ ∃ channel payload, packet = .sequenced channel s.receiver.next payload) ∨
      ((s.react now packet).advanced = false ∧ messages = [] ∧
        ∀ channel payload, packet ≠ .sequenced channel s.receiver.next payload) := by
  cases packet with
  | sequenced channel sequence payload =>
    have hother : Sequence.distance s.receiver.next sequence ≠ 0 →
        ∀ channel' payload', Packet.sequenced channel sequence payload ≠ .sequenced channel' s.receiver.next payload' := by
      intro hne channel' payload' heq
      rw [(Packet.sequenced.inj heq).2.1] at hne
      exact hne (Sequence.distance_self _)
    simp only [react] at hresult ⊢
    have harrives := Receiver.arrive_arrives s.config.windowSize sequence ⟨channel, payload⟩ s.receiver
    generalize s.receiver.arrive s.config.windowSize sequence ⟨channel, payload⟩ = arrival at harrives hresult ⊢
    cases harrives with
    | late before => exact Or.inr ⟨rfl, (Except.ok.inj hresult).symm, hother (by omega)⟩
    | beyond ahead outside => exact Or.inr ⟨rfl, (Except.ok.inj hresult).symm, hother (by omega)⟩
    | early ahead inside => exact Or.inr ⟨rfl, (Except.ok.inj hresult).symm, hother (by omega)⟩
    | violation expected processed => cases hresult
    | next expected processed =>
      left
      refine ⟨rfl, channel, payload, ?_⟩
      rw [← Sequence.distance_self s.receiver.next] at expected
      rw [Sequence.distance_inj expected]
  | _ =>
    refine Or.inr ⟨rfl, (Except.ok.inj hresult).symm, ?_⟩
    intro channel payload heq
    cases heq

theorem advanced_reactAll (hresult : (s.reactAll now packets).result = .ok messages) :
    (s.reactAll now packets).advanced = false ↔
      ∀ channel payload, .sequenced channel s.receiver.next payload ∉ packets := by
  induction packets generalizing s messages with
  | nil => simp [reactAll]
  | cons packet packets ih =>
    obtain ⟨said, more, hfirst, hrest, -⟩ := reactAll_cons_ok hresult
    simp only [reactAll, hfirst]
    rcases advanced_react hfirst with ⟨hadvanced, channel, payload, heq⟩ | ⟨hstays, -, hne⟩
    · simp only [hadvanced, Bool.true_or, Bool.true_eq_false, false_iff]
      intro hnone
      apply hnone channel payload
      rw [heq]
      exact List.mem_cons_self
    · simp only [hstays, Bool.false_or, ih hrest, next_react hstays, List.mem_cons, not_or]
      constructor
      · intro hnone channel payload
        exact ⟨(hne channel payload).symm, hnone channel payload⟩
      · intro hnone channel payload
        exact (hnone channel payload).2

/-- While the expected number stays no message becomes deliverable. -/
theorem messages_of_stays (hresult : (s.reactAll now packets).result = .ok messages)
    (hstays : (s.reactAll now packets).advanced = false) : messages = [] := by
  induction packets generalizing s messages with
  | nil => exact (Except.ok.inj hresult).symm
  | cons packet packets ih =>
    obtain ⟨said, more, hfirst, hrest, rfl⟩ := reactAll_cons_ok hresult
    simp only [reactAll, hfirst] at hstays
    obtain ⟨hstill, hstills⟩ := Bool.or_eq_false_iff.1 hstays
    rcases advanced_react hfirst with ⟨hadvanced, -⟩ | ⟨-, hnone, -⟩
    · exact absurd (hadvanced.symm.trans hstill) (by decide)
    · rw [hnone, ih hrest hstills]
      rfl

/-! ## Datagrams -/

/-- Behind the disconnect nothing is said: it is not answered, and the expected number has not moved on unless there is
a violation. -/
structure Hushed (now : Nat) (front behind : List Packet) (s : Session) : Prop where
  sent : ((s.cutOff now front).reactAll now behind).sent = []
  stays : ∀ messages, ((s.cutOff now front).reactAll now behind).result = .ok messages →
    (s.reactAll now front).advanced = false ∧ ((s.cutOff now front).reactAll now behind).advanced = false

/-- What a datagram with these packets makes a session say: what the packets do, and behind them, unless one of them is
a violation, the acknowledgement of what was expected. -/
def utter (now : Nat) (packets : List Packet) (s : Session) : Speech :=
  let said := s.utterAll now packets
  let all := s.reactAll now packets
  match said.result with
  | .error _ => { sent := said.sent }
  | .ok passed => { sent := said.sent ++ stamp all.session.isOver all.acknowledgements, passed }

/-- The packets of a datagram shut a session down only where that hushes it: what is behind the disconnect is a
violation that comes before anything is answered, or all of it is ignored and nothing before it was expected. -/
def FallsSilent (now : Nat) (packets : List Packet) (s : Session) : Prop :=
  ∀ front behind messages, packets = front ++ .disconnect s.connectionId :: behind →
    (s.reactAll now front).result = .ok messages →
    (∃ v, (s.reactAll now packets).result = .error v ∧
      (s.reactAll now packets).sent = (s.reactAll now front).sent) ∨
    ((∀ channel payload, .sequenced channel s.receiver.next payload ∉ front) ∧ ∀ packet ∈ behind, s.Ignores packet)

theorem idle_cutOff (now : Nat) (front : List Packet) (s : Session) : (s.cutOff now front).sender.Idle :=
  Sender.idle_clear _

/-- Before the expected number moves on, what is ignored behind the disconnect is what was ignored at first. -/
theorem ignores_cutOff (hstays : (s.reactAll now front).advanced = false) :
    (s.cutOff now front).Ignores packet ↔ s.Ignores packet :=
  ignores_congr (next_reactAll hstays) (keeps_reactAll now s front).config

theorem hushed_iff (hfront : (s.reactAll now front).result = .ok messages) :
    s.Hushed now front behind ↔
      (∃ v, (s.reactAll now (front ++ .disconnect s.connectionId :: behind)).result = .error v ∧
        (s.reactAll now (front ++ .disconnect s.connectionId :: behind)).sent = (s.reactAll now front).sent) ∨
      ((∀ channel payload, .sequenced channel s.receiver.next payload ∉ front) ∧
        ∀ packet ∈ behind, s.Ignores packet) := by
  simp only [reactAll_cutOff hfront, ← advanced_reactAll hfront, List.append_right_eq_self]
  constructor
  · intro h
    cases hresult : ((s.cutOff now front).reactAll now behind).result with
    | error v => exact Or.inl ⟨v, rfl, h.sent⟩
    | ok late =>
      obtain ⟨hstays, hstill⟩ := h.stays late hresult
      right
      refine ⟨hstays, fun packet hpacket => ?_⟩
      exact (ignores_cutOff hstays).1 (ignores_of_reactAll h.sent hresult hstill packet hpacket)
  · rintro (⟨v, hresult, hsent⟩ | ⟨hstays, hignored⟩)
    · refine ⟨hsent, fun late hlate => ?_⟩
      rw [hlate] at hresult
      cases hresult
    · obtain ⟨hsent, -, hstill⟩ := reactAll_of_ignores now (idle_cutOff now front s) fun packet hpacket =>
        (ignores_cutOff hstays).2 (hignored packet hpacket)
      exact ⟨hsent, fun late _ => ⟨hstays, hstill⟩⟩

/-- What is said behind the disconnect is late. -/
theorem hushed_of_silent (hfront : (s.reactAll now front).result = .ok messages)
    (hsilent : (s.utter now (front ++ .disconnect s.connectionId :: behind)).Silent) : s.Hushed now front behind := by
  obtain ⟨passed, hpassed, hutter⟩ := utterAll_cutOff hfront behind
  obtain ⟨hsent, -⟩ := hsilent
  have hclosed : ((s.cutOff now front).reactAll now behind).session.isOver = true :=
    (keeps_reactAll now (s.cutOff now front) behind).closed rfl
  simp only [utter, hutter, reactAll_cutOff hfront] at hsent
  cases hresult : ((s.cutOff now front).reactAll now behind).result with
  | error v =>
    rw [hresult] at hsent
    obtain ⟨-, hlate⟩ := inTime_append.1 hsent
    refine ⟨(inTime_stamp.1 hlate).resolve_left (by decide), fun late hlate => ?_⟩
    rw [hresult] at hlate
    cases hlate
  | ok late =>
    rw [hresult] at hsent
    obtain ⟨hpackets, hacknowledged⟩ := inTime_append.1 hsent
    obtain ⟨-, hlate⟩ := inTime_append.1 hpackets
    refine ⟨(inTime_stamp.1 hlate).resolve_left (by decide), fun _ _ => ?_⟩
    rw [hclosed] at hacknowledged
    have hnone := (inTime_stamp.1 hacknowledged).resolve_left (by decide)
    apply Bool.or_eq_false_iff.1
    cases hadvanced : (s.reactAll now front).advanced || ((s.cutOff now front).reactAll now behind).advanced with
    | false => rfl
    | true =>
      simp only [Reaction.acknowledgements, hadvanced, if_true] at hnone
      cases hnone

/-- An open session says in time what packets before any disconnect make it say. -/
theorem inTime_front (hopen : s.isOver = false) (hstill : s.shutBy now front = false) {passed : List (Bool × Bytes)}
    (hpassed : (s.utterAll now front).result = .ok passed) : InTime (s.utterAll now front).sent ∧ InTime passed := by
  have hutter := utterAll_of_shutBy now front s fun hshut =>
    absurd (hstill.symm.trans hshut) (by decide)
  rw [hutter, hopen] at hpassed ⊢
  refine ⟨inTime_stamp.2 (Or.inl rfl), ?_⟩
  cases hresult : (s.reactAll now front).result with
  | error v =>
    rw [hresult] at hpassed
    cases hpassed
  | ok messages =>
    rw [hresult] at hpassed
    rw [← Except.ok.inj hpassed]
    exact inTime_stamp.2 (Or.inl rfl)

theorem silent_of_hushed (hopen : s.isOver = false) (hfront : (s.reactAll now front).result = .ok messages)
    (hstill : s.shutBy now front = false) (h : s.Hushed now front behind) :
    (s.utter now (front ++ .disconnect s.connectionId :: behind)).Silent := by
  obtain ⟨passed, hpassed, hutter⟩ := utterAll_cutOff hfront behind
  obtain ⟨hsent, hpassedInTime⟩ := inTime_front hopen hstill hpassed
  simp only [utter, hutter, h.sent, stamp_nil, List.append_nil, reactAll_cutOff hfront]
  cases hresult : ((s.cutOff now front).reactAll now behind).result with
  | error v => exact ⟨hsent, inTime_nil⟩
  | ok late =>
    obtain ⟨hstays, hlate⟩ := h.stays late hresult
    have hnone : late = [] := messages_of_stays hresult hlate
    subst hnone
    constructor
    · simpa [Except.map, Reaction.acknowledgements, hstays, hlate] using hsent
    · simpa [Except.map] using hpassedInTime

/-- A datagram makes an open session say nothing late exactly if it falls silent. -/
theorem silent_utter_iff (hopen : s.isOver = false) : (s.utter now packets).Silent ↔ s.FallsSilent now packets := by
  constructor
  · intro hsilent front behind messages hpackets hfront
    subst hpackets
    exact (hushed_iff hfront).1 (hushed_of_silent hfront hsilent)
  · intro hfalls
    cases hshut : s.shutBy now packets with
    | true =>
      obtain ⟨front, behind, messages, rfl, hfront, hstill⟩ := exists_cutOff hshut
      have hhushed := (hushed_iff hfront).2 (hfalls front behind messages rfl hfront)
      exact silent_of_hushed hopen hfront hstill hhushed
    | false =>
      have hclosed := isOver_reactAll now packets s
      rw [hopen, hshut, Bool.or_self] at hclosed
      simp only [utter]
      cases hresult : (s.utterAll now packets).result with
      | error v =>
        have hutter := utterAll_of_shutBy now packets s fun hshut' =>
          absurd (hshut.symm.trans hshut') (by decide)
        refine ⟨?_, inTime_nil⟩
        rw [hutter]
        exact inTime_stamp.2 (Or.inl hopen)
      | ok passed =>
        obtain ⟨hsent, hpassed⟩ := inTime_front hopen hshut hresult
        exact ⟨inTime_append.2 ⟨hsent, inTime_stamp.2 (Or.inl hclosed)⟩, hpassed⟩

/-! ## Calls -/

/-- What a call makes a session say. -/
def speak (codec : Codec) (s : Session) : Event → Speech
  | .queue _ | .connect _ _ | .finish => {}
  | .close reason => { sent := stamp s.isOver (s.close reason).2.1 }
  | .update now => { sent := stamp s.isOver (s.update now).sent }
  | .handle now seed datagram =>
    if (s.taken codec datagram).isEmpty then { sent := stamp s.isOver (s.handle codec now seed datagram).sent }
    else (s.touched now).utter now (s.taken codec datagram)

/-- The pieces are what the datagram makes the session send and pass on. -/
theorem erase_utter (now : Nat) (packet : Bytes) (s : Session) :
    let said := (s.touched now).utter now (Packet.leaves packet)
    said.sent.map Prod.snd = (s.awake.receive now packet).sent ∧
      said.passed.map Prod.snd = (s.awake.receive now packet).result.toOption.getD [] := by
  intro said
  obtain ⟨hsent, hpassed⟩ := erase_utterAll now (s.touched now) (Packet.leaves packet)
  have hresult := result_receive now packet s
  cases hsaid : ((s.touched now).utterAll now (Packet.leaves packet)).result with
  | error v =>
    rw [hsaid] at hpassed
    have hreceive : s.awake.receive now packet = (s.touched now).reactAll now (Packet.leaves packet) := by
      have htouched : ({ s.awake with lastActivity := now } : Session) = s.touched now := rfl
      simp only [receive, htouched, ← hpassed]
      rfl
    have hutter : said = { sent := ((s.touched now).utterAll now (Packet.leaves packet)).sent } := by
      simp only [said, utter, hsaid]
    rw [hutter, hreceive, ← hpassed]
    exact ⟨hsent, rfl⟩
  | ok passed =>
    rw [hsaid] at hpassed
    have hreceive := receive_eq_acknowledged (s := s) hpassed.symm
    simp only [said, utter, hsaid, hreceive, Reaction.acknowledged, List.map_append, map_snd_stamp, hsent, ← hpassed,
      true_and]
    rfl

theorem silent_speak_handle (codec : Codec) (now : Nat) (seed : UInt32) (datagram : Bytes) (s : Session) :
    (s.speak codec (.handle now seed datagram)).Silent ↔
      (s.touched now).FallsSilent now (s.taken codec datagram) := by
  cases htaken : s.taken codec datagram with
  | nil =>
    have hspeak : s.speak codec (.handle now seed datagram) =
        { sent := stamp s.isOver (s.handle codec now seed datagram).sent } := by
      simp [speak, htaken]
    rw [hspeak]
    constructor
    · intro _ front behind messages hpackets _
      simp at hpackets
    · intro _
      refine ⟨inTime_stamp.2 ?_, inTime_nil⟩
      cases hclosed : s.isOver with
      | false => exact Or.inl rfl
      | true => exact Or.inr (by simp [Session.handle, hclosed])
  | cons packet packets =>
    have hne : s.taken codec datagram ≠ [] := by
      rw [htaken]
      exact List.cons_ne_nil _ _
    have hspeak : s.speak codec (.handle now seed datagram) = (s.touched now).utter now (packet :: packets) := by
      simp [speak, htaken]
    rw [hspeak]
    apply silent_utter_iff
    rcases handle_taken codec now seed datagram s with ⟨hnone, -⟩ | ⟨hopen, -⟩
    · exact absurd hnone hne
    · exact (isOver_touched now s).trans hopen

/-- Behind the start of a shutdown calls that take no datagram say nothing. -/
theorem silent_speak_of_ne (codec : Codec) (s : Session) {event : Event}
    (h : ∀ now seed datagram, event ≠ .handle now seed datagram) : (s.speak codec event).Silent := by
  cases event with
  | queue message => exact ⟨inTime_nil, inTime_nil⟩
  | connect accountId playerId => exact ⟨inTime_nil, inTime_nil⟩
  | close reason =>
    refine ⟨inTime_stamp.2 ?_, inTime_nil⟩
    cases hclosed : s.isOver with
    | false => exact Or.inl rfl
    | true => exact Or.inr (by simp [Session.close, hclosed])
  | update now =>
    refine ⟨inTime_stamp.2 ?_, inTime_nil⟩
    cases hclosed : s.isOver with
    | false => exact Or.inl rfl
    | true => exact Or.inr (update_of_closed now hclosed).2
  | handle now seed datagram => exact absurd rfl (h now seed datagram)
  | finish => exact ⟨inTime_nil, inTime_nil⟩

/-! ## Histories -/

namespace History

variable {h : History}

/-- What calls make a session say, one behind the other. -/
def speech (codec : Codec) (h : History) : List Event → Speech
  | [] => {}
  | event :: events =>
    let first := h.session.speak codec event
    let rest := (h.step codec event).speech codec events
    { sent := first.sent ++ rest.sent, passed := first.passed ++ rest.passed }

theorem erase_speak (codec : Codec) (h : History) (event : Event) :
    (h.step codec event).sent = h.sent ++ (h.session.speak codec event).sent.map Prod.snd ∧
      (h.step codec event).delivered = h.delivered ++ (h.session.speak codec event).passed.map Prod.snd := by
  cases event with
  | queue message => simp [step, speak]
  | connect accountId playerId => simp [step, speak]
  | close reason => simp [step, speak]
  | update now => simp [step, speak]
  | finish => simp [step, speak]
  | handle now seed datagram =>
    simp only [step, react, speak]
    rcases handle_taken codec now seed datagram h.session with ⟨hnone, -, hresult⟩ | ⟨-, packet, hleaves, hhandle⟩
    · simp [hnone, hresult, Except.toOption]
    · rw [← hleaves, hhandle]
      obtain ⟨hsent, hpassed⟩ := erase_utter now packet h.session
      cases hempty : (Packet.leaves packet).isEmpty with
      | false => simp [hsent, hpassed]
      | true =>
        have hmessages : (h.session.awake.receive now packet).result = .ok [] := by
          rw [result_receive, List.isEmpty_iff.1 hempty]
          rfl
        simp [hmessages, Except.toOption]

theorem erase_speech (codec : Codec) (h : History) (events : List Event) :
    (h.run codec events).sent = h.sent ++ (h.speech codec events).sent.map Prod.snd ∧
      (h.run codec events).delivered = h.delivered ++ (h.speech codec events).passed.map Prod.snd := by
  induction events generalizing h with
  | nil => exact ⟨(List.append_nil _).symm, (List.append_nil _).symm⟩
  | cons event events ih =>
    obtain ⟨hsent, hdelivered⟩ := erase_speak codec h event
    obtain ⟨hsents, hdeliveries⟩ := ih (h.step codec event)
    constructor
    · calc
        (h.run codec (event :: events)).sent = ((h.step codec event).run codec events).sent := rfl
        _ = h.sent ++ (h.speech codec (event :: events)).sent.map Prod.snd := by
          rw [hsents, hsent, speech, List.map_append, List.append_assoc]
    · calc
        (h.run codec (event :: events)).delivered = ((h.step codec event).run codec events).delivered := rfl
        _ = h.delivered ++ (h.speech codec (event :: events)).passed.map Prod.snd := by
          rw [hdeliveries, hdelivered, speech, List.map_append, List.append_assoc]

/-- A run is silent exactly if every call in it is. -/
theorem silent_speech_iff (codec : Codec) (h : History) (events : List Event) :
    (h.speech codec events).Silent ↔
      ∀ front event behind, events = front ++ event :: behind →
        ((h.run codec front).session.speak codec event).Silent := by
  induction events generalizing h with
  | nil =>
    constructor
    · intro _ front event behind hevents
      simp at hevents
    · intro _
      exact ⟨inTime_nil, inTime_nil⟩
  | cons event events ih =>
    constructor
    · rintro ⟨hsent, hpassed⟩ front event' behind hevents
      obtain ⟨hsent, hsents⟩ := inTime_append.1 hsent
      obtain ⟨hpassed, hpasseds⟩ := inTime_append.1 hpassed
      cases front with
      | nil =>
        obtain ⟨rfl, -⟩ := List.cons.inj hevents
        exact ⟨hsent, hpassed⟩
      | cons first front =>
        obtain ⟨rfl, hrest⟩ := List.cons.inj hevents
        exact (ih (h.step codec event)).1 ⟨hsents, hpasseds⟩ front event' behind hrest
    · intro hall
      have hfirst := hall [] event events rfl
      have hrest := (ih (h.step codec event)).2 fun front event' behind hevents =>
        hall (event :: front) event' behind (by rw [hevents]; rfl)
      exact ⟨inTime_append.2 ⟨hfirst.sent, hrest.sent⟩, inTime_append.2 ⟨hfirst.passed, hrest.passed⟩⟩

/-- A run says what it sends and passes on, and a session that is closed says its farewell last. It is silent exactly if
every datagram in it, wherever it shuts the session down, hushes it. -/
theorem silent_iff (codec : Codec) (endpoint : Endpoint) (config : ProtocolConfig) (now : Nat) (events : List Event) :
    let h := start endpoint config now
    let speech := h.speech codec events
    speech.sent.map Prod.snd = (h.run codec events).sent ∧
    speech.passed.map Prod.snd = (h.run codec events).delivered ∧
    (∀ front reason behind, events = front ++ .close reason :: behind →
      let s := (h.run codec front).session
      s.isOver = false →
      (h.run codec events).sent =
        (h.run codec front).sent ++ [s.outbound (Packet.farewell s.connectionId reason)] ∧
      (h.run codec events).delivered = (h.run codec front).delivered) ∧
    (speech.Silent ↔
      ∀ front now seed datagram behind, events = front ++ .handle now seed datagram :: behind →
        let s := (h.run codec front).session
        (s.touched now).FallsSilent now (s.taken codec datagram)) := by
  intro h speech
  obtain ⟨hsent, hdelivered⟩ := erase_speech codec h events
  refine ⟨hsent.symm, hdelivered.symm, ?_, ?_⟩
  · rintro front reason behind rfl s hopen
    have hstep : (h.run codec front).step codec (.close reason) =
        { h.run codec front with
          session := s.disconnect
          sent := (h.run codec front).sent ++ [s.outbound (Packet.farewell s.connectionId reason)] } := by
      simp only [step, close_of_open hopen, s]
    have hrun : h.run codec (front ++ .close reason :: behind) =
        ((h.run codec front).step codec (.close reason)).run codec behind := by
      rw [run, List.foldl_append]
      rfl
    have hbehind := run_of_closed (h := (h.run codec front).step codec (.close reason)) (by rw [hstep]; rfl) codec behind
    rw [hrun, hbehind.1, hbehind.2, hstep]
    exact ⟨rfl, rfl⟩
  · rw [silent_speech_iff]
    constructor
    · intro hall front now seed datagram behind hevents
      exact (silent_speak_handle codec now seed datagram _).1 (hall front _ behind hevents)
    · intro hall front event behind hevents
      cases event with
      | handle now seed datagram =>
        exact (silent_speak_handle codec now seed datagram _).2 (hall front now seed datagram behind hevents)
      | _ => exact silent_speak_of_ne codec _ (by simp)

/-- The peer's disconnect, and behind it in the same container a message and a ping: the message is passed on, and both
are answered. -/
theorem not_silent_container :
    let codec : Codec := ⟨fun _ => none, fun _ _ => none⟩
    let events : List Event := [.handle 0 0 [0, 3, 6, 0, 5, 0, 0, 0, 0, 5, 0, 9, 0, 0, 0xAA, 2, 0, 6]]
    let h := start ⟨.v4 127 0 0 1, 20260⟩ { crcLength := 0, compression := false } 0
    (h.run codec events).session.phase = .disconnecting ∧ (h.run codec events).violations = [] ∧
      (h.speech codec events).sent.map (fun said => (said.1, said.2.packet)) =
        [(true, [0, 6]), (true, [0, 0x15, 0, 0])] ∧
      (h.speech codec events).passed = [(true, [0xAA])] ∧
      ¬ (h.speech codec events).Silent := by
  decide +kernel

end History

end Session

end GameGateway
