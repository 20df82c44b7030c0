import GameGateway.Proofs.Peers

/-!
# Two sessions over a lossy network

Two fresh sessions with the same settings, joined by a network that may lose, double, delay and reorder
datagrams but makes up none. As long as neither side frames more than half a circle of sequence numbers, no
packet is released before the peer has it, and what the peer passes on is a prefix of the messages that
were taken.
-/

namespace GameGateway

/-- One of two ends. -/
inductive Side
  | left
  | right
  deriving DecidableEq, Repr

namespace Side

/-- The end across. -/
def other : Side → Side
  | left => right
  | right => left

theorem other_ne (side : Side) : side.other ≠ side := by
  cases side <;> decide

end Side

/-- Both ends with all that they have done. What a side has sent is on the network for good. -/
abbrev Link := Side → Session.History

namespace Link

open Session Receiver

/-- What happens at a side. Times and seeds are arbitrary. -/
inductive Event
  | queue (side : Side) (message : Bytes)
  | update (side : Side) (now : Nat)
  /-- A datagram comes from the other side: the one in the given place of all that it has sent. -/
  | deliver (side : Side) (now : Nat) (seed : UInt32) (place : Nat)

/-- Two fresh sessions with the same settings. -/
def start (endpoint : Side → Endpoint) (config : ProtocolConfig) (now : Side → Nat) : Link :=
  fun side => History.start (endpoint side) config (now side)

/-- A call of one side. -/
def call (codec : Codec) (side : Side) (event : Session.Event) (l : Link) : Link :=
  Function.update l side ((l side).step codec event)

/-- The ends after one more event. A delivery of what was never sent is none. -/
def step (codec : Codec) (l : Link) : Event → Link
  | .queue side message => l.call codec side (.queue message)
  | .update side now => l.call codec side (.update now)
  | .deliver side now seed place =>
    match (l side.other).sent[place]? with
    | some out => l.call codec side (.handle now seed (out.wire codec))
    | none => l

/-- The ends after a list of events. -/
def run (codec : Codec) (l : Link) (events : List Event) : Link := events.foldl (step codec) l

/-- The invariant, from the left end. -/
def Holds (config : ProtocolConfig) (l : Link) : Prop :=
  ∃ r r', Linked config (l .left) (l .right) r r'

variable {config : ProtocolConfig} {l : Link} {codec : Codec} {side : Side} {events : List Event}

/-- The invariant, from any end. -/
theorem holds_iff (side : Side) :
    Holds config l ↔ ∃ r r', Linked config (l side) (l side.other) r r' := by
  cases side with
  | left => exact Iff.rfl
  | right =>
    constructor
    · rintro ⟨r, r', h⟩
      exact ⟨r', r, h.symm⟩
    · rintro ⟨r, r', h⟩
      exact ⟨r', r, h.symm⟩

theorem linked_start (endpoint : Side → Endpoint) (config : ProtocolConfig) (now : Side → Nat) :
    Linked config (start endpoint config now .left) (start endpoint config now .right) {} {} := by
  have hfaithful : ∀ side, Faithful config (start endpoint config now side)
      (start endpoint config now side.other) {} := by
    intro side
    constructor
    · exact sound_create (endpoint side) config (now side)
    · exact plain_create (endpoint side) config (now side)
    · rfl
    · exact Unbounded.settled_empty _
    · exact Unbounded.reads_empty
    · intro out hout
      cases hout
    · rfl
  have hkept : ∀ side, Kept (start endpoint config now side) {} := by
    intro side i packet hi
    cases hi
  exact ⟨hfaithful .left, hfaithful .right, hkept .left, hkept .right⟩

theorem holds_start (endpoint : Side → Endpoint) (config : ProtocolConfig) (now : Side → Nat) :
    Holds config (start endpoint config now) :=
  ⟨{}, {}, linked_start endpoint config now⟩

/-- A call of a side that keeps the invariant of the two histories keeps that of the ends. -/
theorem Holds.call {event : Session.Event}
    (h : ∃ r r', Linked config ((l side).step codec event) (l side.other) r r') :
    Holds config (l.call codec side event) := by
  apply (holds_iff side).2
  rw [Link.call, Function.update_self, Function.update_of_ne side.other_ne]
  exact h

theorem Holds.step (h : Holds config l) (hbound : ∀ side, (l side).framed.length ≤ 32768)
    (event : Event) : Holds config (l.step codec event) := by
  cases event with
  | queue side message =>
    obtain ⟨r, r', hl⟩ := (holds_iff side).1 h
    exact Holds.call ⟨r, r', hl.queue codec message⟩
  | update side now =>
    obtain ⟨r, r', hl⟩ := (holds_iff side).1 h
    exact Holds.call ⟨r, r', hl.update codec now⟩
  | deliver side now seed place =>
    obtain ⟨r, r', hl⟩ := (holds_iff side).1 h
    simp only [Link.step]
    cases hsent : (l side.other).sent[place]? with
    | none => exact h
    | some out =>
      obtain ⟨r₁, hdelivered⟩ := hl.deliver (hbound side) (hbound side.other)
        (List.mem_of_getElem? hsent) codec now seed
      exact Holds.call ⟨r₁, r', hdelivered⟩

/-- No call forgets a framed packet. -/
theorem length_framed_call (codec : Codec) (side : Side) (event : Session.Event) (l : Link) (side' : Side) :
    (l side').framed.length ≤ (l.call codec side event side').framed.length := by
  by_cases hside : side' = side
  · subst hside
    rw [call, Function.update_self]
    exact History.length_framed_step codec (l side') event
  · have hsame : l.call codec side event side' = l side' := Function.update_of_ne hside _ _
    exact Nat.le_of_eq (congrArg (fun h => h.framed.length) hsame.symm)

theorem length_framed_run (codec : Codec) (events : List Event) (l : Link) (side : Side) :
    (l side).framed.length ≤ (l.run codec events side).framed.length := by
  induction events generalizing l with
  | nil => exact Nat.le_refl _
  | cons event events ih =>
    refine Nat.le_trans ?_ (ih (l.step codec event))
    cases event with
    | queue side' message => exact length_framed_call codec side' _ l side
    | update side' now => exact length_framed_call codec side' _ l side
    | deliver side' now seed place =>
      cases hsent : (l side'.other).sent[place]? with
      | none =>
        simp only [step, hsent]
        exact Nat.le_refl _
      | some out =>
        simp only [step, hsent]
        exact length_framed_call codec side' _ l side

/-- What a datagram does not change is not changed by a delivery. -/
theorem apply_deliver {α : Type} (f : History → α)
    (hf : ∀ h now seed datagram, f (h.step codec (.handle now seed datagram)) = f h) (l : Link)
    (side' side : Side) (now : Nat) (seed : UInt32) (place : Nat) :
    f (l.step codec (.deliver side' now seed place) side) = f (l side) := by
  cases hsent : (l side'.other).sent[place]? with
  | none => simp only [step, hsent]
  | some out =>
    simp only [step, hsent, call]
    by_cases hside : side = side'
    · subst hside
      rw [Function.update_self]
      apply hf
    · rw [Function.update_of_ne hside]

theorem framed_deliver (codec : Codec) (l : Link) (side' side : Side) (now : Nat) (seed : UInt32)
    (place : Nat) : (l.step codec (.deliver side' now seed place) side).framed = (l side).framed :=
  apply_deliver History.framed (fun _ _ _ _ => rfl) l side' side now seed place

theorem accepted_deliver (codec : Codec) (l : Link) (side' side : Side) (now : Nat) (seed : UInt32)
    (place : Nat) : (l.step codec (.deliver side' now seed place) side).accepted = (l side).accepted :=
  apply_deliver History.accepted (fun _ _ _ _ => rfl) l side' side now seed place

/-- The invariant holds along every run in which neither side frames too much. -/
theorem Holds.run (h : Holds config l)
    (hbound : ∀ side, (l.run codec events side).framed.length ≤ 32768) :
    Holds config (l.run codec events) := by
  induction events generalizing l with
  | nil => exact h
  | cons event events ih =>
    have hnow : ∀ side, (l side).framed.length ≤ 32768 := by
      intro side
      exact Nat.le_trans (length_framed_run codec (event :: events) l side) (hbound side)
    exact ih (h.step hnow event) hbound

variable (codec) (endpoint : Side → Endpoint) (config) (now : Side → Nat) (events)

/-- No packet is lost by a release: each that a side has framed is still in flight, or the other side holds
it, or the other side has processed it. -/
theorem framed_kept
    (hbound : ∀ side, ((start endpoint config now).run codec events side).framed.length ≤ 32768)
    (side : Side) :
    let l := (start endpoint config now).run codec events
    (l side).session.sender.next.toNat = (l side).framed.length ∧
      ∀ i packet, (l side).framed[i]? = some packet →
        (∃ p ∈ (l side).session.sender.unacked, p.sequence = UInt16.ofNat i ∧ p.data = packet) ∨
          (UInt16.ofNat i, Item.ofPacket packet) ∈ (l side.other).session.receiver.held ∨
          i < (l side.other).session.receiver.next.toNat := by
  intro l
  have hlength := hbound side
  obtain ⟨r, r', hl⟩ := (holds_iff side).1 ((holds_start endpoint config now).run hbound)
  have hcount := count_le_length hl.peerFaithful.settled
  have hreceiver := hl.peerFaithful.receiver
  constructor
  · rw [hl.ownFaithful.sound.ledger.next]
    exact UInt16.toNat_ofNat_of_lt' (Nat.lt_of_le_of_lt hlength (by decide))
  · intro i packet hi
    rcases hl.ownKept i packet hi with hflight | hprocessed | ⟨item, hheld⟩
    · left
      obtain ⟨p, hp, hkey⟩ := List.mem_map.1 hflight
      exact ⟨p, hp, Prod.mk.inj hkey⟩
    · right
      right
      have hnext : (UInt16.ofNat r'.count).toNat = r'.count :=
        UInt16.toNat_ofNat_of_lt' (Nat.lt_of_le_of_lt (Nat.le_trans hcount hlength) (by decide))
      rw [hreceiver, Unbounded.wrap]
      exact Nat.lt_of_lt_of_eq hprocessed hnext.symm
    · right
      left
      have hplaced : Placed (l side).framed i item := hl.peerFaithful.settled.held _ hheld
      rw [Placed, List.getElem?_map, hi] at hplaced
      cases hplaced
      rw [hreceiver]
      exact List.mem_map_of_mem hheld

/-- The second packet comes before the first, and the report of it goes back. -/
theorem framed_kept_reordered :
    let l := (start (fun _ => ⟨.v4 127 0 0 1, 20260⟩) {} fun _ => 0).run
      ⟨fun _ => none, fun _ _ => none⟩
      [.queue .left [1, 2], .update .left 0, .queue .left [3], .update .left 1, .deliver .right 2 0 1,
        .deliver .left 3 0 0]
    (∀ side, (l side).framed.length ≤ 32768) ∧
      (l .left).session.sender.next.toNat = (l .left).framed.length ∧
      ∀ i packet, (l .left).framed[i]? = some packet →
        (∃ p ∈ (l .left).session.sender.unacked, p.sequence = UInt16.ofNat i ∧ p.data = packet) ∨
          (UInt16.ofNat i, Item.ofPacket packet) ∈ (l .right).session.receiver.held ∨
          i < (l .right).session.receiver.next.toNat := by
  intro l
  have hbound : ∀ side, (l side).framed.length ≤ 32768 := by
    intro side
    simp only [l, run, List.foldl_cons, List.foldl_nil, framed_deliver]
    cases side with
    | left => exact of_decide_eq_true (by cbv)
    | right => exact of_decide_eq_true (by cbv)
  exact ⟨hbound, framed_kept _ _ _ _ _ hbound .left⟩

/-- No side ever commits a violation, and what one has passed on is a prefix of the messages that the
other has taken, the empty ones aside. -/
theorem delivered_prefix_accepted (hconfig : config.fault? = none)
    (hsize : config.maxUdpSize.toNat ≤ 65535)
    (hbound : ∀ side, ((start endpoint config now).run codec events side).framed.length ≤ 32768)
    (hmessages : ∀ side, ∀ message ∈ ((start endpoint config now).run codec events side).accepted,
      Sendable message)
    (side : Side) :
    let l := (start endpoint config now).run codec events
    (l side).violations = [] ∧
      (l side).delivered <+: (l side.other).accepted.filter fun message => !message.isEmpty := by
  intro l
  obtain ⟨r, r', hl⟩ := (holds_iff side).1 ((holds_start endpoint config now).run hbound)
  have hpeer := hl.peerFaithful
  refine ⟨hl.ownFaithful.unviolated, ?_⟩
  obtain ⟨said, hread, hsaid⟩ := hpeer.sound.reads hpeer.plain.isOpen
  have hlog : r.log <+: Sender.stream (l side.other).framed (l side.other).session.sender :=
    (prefix_of_placed hl.ownFaithful.settled.log).trans (List.prefix_append _ _)
  obtain ⟨assembly, first, hfirst, hprefix⟩ := consumeAll_of_prefix hlog hread
  have hdelivered : first = (l side).delivered := by
    have hreads := hl.ownFaithful.reads
    rw [Unbounded.Reads, hfirst] at hreads
    cases hreads
    rfl
  have hwhole := hsaid (ProtocolConfig.framable_of_fault? hconfig hsize) (hmessages side.other)
  rw [← hdelivered]
  apply hprefix.trans
  exact ⟨_, hwhole⟩

/-- A message in two fragments, of which the second comes first and the first comes twice. -/
theorem delivered_prefix_accepted_reordered :
    let l := (start (fun _ => ⟨.v4 127 0 0 1, 20260⟩) { maxUdpSize := 64 } fun _ => 0).run
      ⟨fun _ => none, fun _ _ => none⟩
      [.queue .left (List.replicate 70 1), .update .left 0, .deliver .right 2 0 1, .deliver .right 3 0 0,
        .deliver .right 4 0 0, .deliver .left 5 0 0]
    (∀ side, (l side).framed.length ≤ 32768) ∧ (l .left).accepted = [List.replicate 70 1] ∧
      (l .right).violations = [] ∧
      (l .right).delivered <+: (l .left).accepted.filter fun message => !message.isEmpty := by
  intro l
  have hbound : ∀ side, (l side).framed.length ≤ 32768 := by
    intro side
    simp only [l, run, List.foldl_cons, List.foldl_nil, framed_deliver]
    cases side with
    | left => exact of_decide_eq_true (by cbv)
    | right => exact of_decide_eq_true (by cbv)
  have hleft : (l .left).accepted = [List.replicate 70 1] := by
    simp only [l, run, List.foldl_cons, List.foldl_nil, accepted_deliver]
    cbv
  have hright : (l .right).accepted = [] := by
    simp only [l, run, List.foldl_cons, List.foldl_nil, accepted_deliver]
    cbv
  have hmessages : ∀ side, ∀ message ∈ (l side).accepted, Sendable message := by
    intro side message hm
    cases side with
    | left =>
      obtain rfl : message = List.replicate 70 1 := by
        rw [hleft] at hm
        exact List.mem_singleton.1 hm
      exact ⟨by decide, by decide⟩
    | right =>
      rw [hright] at hm
      cases hm
  exact ⟨hbound, hleft,
    delivered_prefix_accepted _ _ _ _ _ (by decide) (by decide) hbound hmessages .right⟩

end Link

end GameGateway
