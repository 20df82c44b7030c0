import GameGateway.Packet.Bundle
import GameGateway.Packet.Fragment
import GameGateway.Session.Sequence

/-!
# The sending side of a session

Messages wait in a queue. A flush frames them into sequenced packets: small messages are bundled as long
as a packet's budget lasts, a message over the budget is cut into fragments, and every packet takes a
place in the window of unacknowledged packets until the peer has it. A packet is kept as it was framed,
so that it is sent again with the same bytes.

## Implementation notes

`Sender.flushFrom` ends because each turn either takes a place in the window or takes a message from the
queue; the pair of what is left of both is its measure.
-/

namespace GameGateway

/-- A sequenced packet that the peer has not acknowledged. -/
structure SentPacket where
  sequence : UInt16
  /-- The packet before the filter. -/
  data : Bytes
  /-- When it was sent last. -/
  sentAt : Nat
  /-- How often it was sent again. -/
  resends : UInt32
  deriving DecidableEq, Repr

/-- The sending side of a session. -/
structure Sender where
  /-- The next sequence number. -/
  next : UInt16 := 0
  /-- Messages that wait for a flush. -/
  queued : List Bytes := []
  /-- Fragments of a split message that wait for a place in the window. -/
  fragments : List Bytes := []
  /-- Packets in flight, oldest first. -/
  unacked : List SentPacket := []
  deriving DecidableEq, Repr, Inhabited

namespace Sender

/-- Puts a message into the queue. -/
def queue (s : Sender) (message : Bytes) : Sender := { s with queued := s.queued ++ [message] }

/-- Drops everything that waits or is in flight. -/
def clear (s : Sender) : Sender := { s with queued := [], fragments := [], unacked := [] }

/-- The packet of a payload under the next sequence number. -/
def packet (s : Sender) (channel : Channel) (payload : Bytes) : Bytes :=
  Packet.header channel s.next ++ payload

/-- The state after a payload was framed. -/
def frame (s : Sender) (channel : Channel) (payload : Bytes) (now : Nat) : Sender :=
  { s with
    next := s.next + 1
    unacked := s.unacked ++ [⟨s.next, s.packet channel payload, now, 0⟩] }

/-- Frames a group of messages. A group that cannot be bundled is lost. -/
def flushGroup (now : Nat) (group : List Bytes) (s : Sender) : Sender × List Bytes :=
  if group.isEmpty then (s, [])
  else
    match Bundle.pack group with
    | .ok payload => (s.frame .data payload now, [s.packet .data payload])
    | .error _ => (s, [])

theorem queued_flushGroup (now : Nat) (group : List Bytes) (s : Sender) :
    (flushGroup now group s).1.queued = s.queued := by
  unfold flushGroup
  split
  · rfl
  · split <;> rfl

theorem length_unacked_flushGroup (now : Nat) (group : List Bytes) (s : Sender) :
    s.unacked.length ≤ (flushGroup now group s).1.unacked.length := by
  unfold flushGroup
  split
  · exact Nat.le_refl _
  · split
    · simp [frame]
    · exact Nat.le_refl _

/-- Whether a message has to start a group of its own. -/
def closesGroup (budget : Nat) (group : List Bytes) (message : Bytes) : Bool :=
  !group.isEmpty && (budget < message.length || budget < Bundle.size group + Bundle.cost message)

/-- Cuts a message over the budget and queues its fragments. A message that cannot be cut is lost. -/
def cut (budget : Nat) (message : Bytes) (s : Sender) : Sender :=
  match Fragment.split message budget with
  | .ok fragments => { s with fragments := s.fragments ++ fragments }
  | .error _ => s

theorem queued_cut (budget : Nat) (message : Bytes) (s : Sender) :
    (cut budget message s).queued = s.queued := by
  unfold cut
  split <;> rfl

theorem unacked_cut (budget : Nat) (message : Bytes) (s : Sender) :
    (cut budget message s).unacked = s.unacked := by
  unfold cut
  split <;> rfl

/-- A turn of a flush that takes a message from the queue and no place from the window makes the measure
less. -/
theorem flush_measure_lt {window before after shorter longer : Nat} (hq : shorter < longer)
    (hu : before ≤ after) :
    Prod.Lex (· < ·) (· < ·) (window - after, shorter) (window - before, longer) := by
  rcases Nat.lt_or_ge (window - after) (window - before) with h | h
  · exact Prod.Lex.left _ _ h
  · have heq : window - after = window - before := by omega
    rw [heq]
    exact Prod.Lex.right _ hq

/-- Frames what the window has room for, given the group of messages collected so far. Answers the
packets in the order of their framing. -/
def flushFrom (budget window now : Nat) (group : List Bytes) (s : Sender) : Sender × List Bytes :=
  if s.unacked.length < window then
    match s.fragments with
    | fragment :: fragments =>
      let framed := { s with fragments }.frame .fragment fragment now
      let rest := flushFrom budget window now group framed
      (rest.1, s.packet .fragment fragment :: rest.2)
    | [] =>
      match hq : s.queued with
      | [] => flushGroup now group s
      | message :: queued =>
        have shorter : queued.length < s.queued.length := by simp [hq]
        let popped := { s with queued }
        let closed := flushGroup now group popped
        if closesGroup budget group message then
          if window ≤ closed.1.unacked.length then
            ({ closed.1 with queued := message :: closed.1.queued }, closed.2)
          else if budget < message.length then
            let rest := flushFrom budget window now [] (cut budget message closed.1)
            (rest.1, closed.2 ++ rest.2)
          else
            let rest := flushFrom budget window now [message] closed.1
            (rest.1, closed.2 ++ rest.2)
        else if budget < message.length then
          flushFrom budget window now group (cut budget message popped)
        else flushFrom budget window now (group ++ [message]) popped
  else flushGroup now group s
termination_by (window - s.unacked.length, s.queued.length)
decreasing_by
  · apply Prod.Lex.left
    simp only [frame, List.length_append, List.length_singleton]
    omega
  · rw [unacked_cut, queued_cut, queued_flushGroup]
    exact flush_measure_lt shorter (length_unacked_flushGroup now group { s with queued })
  · rw [queued_flushGroup]
    exact flush_measure_lt shorter (length_unacked_flushGroup now group { s with queued })
  · rw [unacked_cut, queued_cut]
    exact Prod.Lex.right _ shorter
  · exact Prod.Lex.right _ shorter

/-- Frames what the window has room for. -/
def flush (budget window now : Nat) (s : Sender) : Sender × List Bytes :=
  flushFrom budget window now [] s

/-- Whether the peer has not answered a packet for the given time. -/
def isDue (delay now : Nat) (p : SentPacket) : Bool := delay ≤ now - p.sentAt

/-- A packet after it was sent again. -/
def resent (now : Nat) (p : SentPacket) : SentPacket :=
  { p with sentAt := now, resends := p.resends + 1 }

/-- What becomes of the packets in flight when they are looked through for those that are due. -/
structure Resend where
  packets : List SentPacket
  /-- The packets to send again, in order. -/
  due : List Bytes
  /-- Whether a packet was due that may not be sent again. The packets behind it are not looked at. -/
  exhausted : Bool
  deriving DecidableEq, Repr

/-- Looks the packets in flight through for those that are due. -/
def resend (delay now : Nat) (limit : UInt32) : List SentPacket → Resend
  | [] => ⟨[], [], false⟩
  | p :: rest =>
    if isDue delay now p then
      if limit ≤ p.resends then ⟨p :: rest, [], true⟩
      else
        let tail := resend delay now limit rest
        ⟨resent now p :: tail.packets, p.data :: tail.due, tail.exhausted⟩
    else
      let tail := resend delay now limit rest
      ⟨p :: tail.packets, tail.due, tail.exhausted⟩

/-- The peer has everything up to a number: releases packets from the front. -/
def acknowledge (sequence : UInt16) (s : Sender) : Sender :=
  { s with unacked := s.unacked.dropWhile fun p => 0 ≤ Sequence.distance p.sequence sequence }

/-- Whether a packet comes before the one that the peer holds out of order. -/
def isBefore (sequence : UInt16) (p : SentPacket) : Bool :=
  0 < Sequence.distance p.sequence sequence

/-- The peer holds a packet out of order: releases it and sends again what comes before it. Answers the
packets that are sent. -/
def outOfOrder (sequence : UInt16) (now : Nat) (s : Sender) : Sender × List Bytes :=
  let kept := s.unacked.filter fun p => p.sequence != sequence
  ({ s with unacked := kept.map fun p => if isBefore sequence p then resent now p else p },
    (kept.filter (isBefore sequence)).map (·.data))

end Sender

end GameGateway
