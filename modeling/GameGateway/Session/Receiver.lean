import GameGateway.Packet.Bundle
import GameGateway.Packet.Fragment
import GameGateway.Session.Sequence

/-!
# The receiving side of a session

Sequenced packets are processed in the order of their numbers. One that comes early is held, up to a
window ahead of the expected number; when the expected one arrives, the held ones behind it follow.
-/

namespace GameGateway

/-- What a sequenced packet carries. -/
structure Item where
  channel : Channel
  payload : Bytes
  deriving DecidableEq, Repr

/-- The receiving side of a session. -/
structure Receiver where
  /-- The expected sequence number. -/
  next : UInt16 := 0
  /-- Items that came early, by number. -/
  held : List (UInt16 × Item) := []
  /-- The message of which some fragments have come. -/
  assembly : Option Fragment.Assembly := none
  deriving DecidableEq, Repr, Inhabited

namespace Receiver

/-- The messages of a payload. Empty messages are left out, and a damaged bundle has none. -/
def messages (payload : Bytes) : List Bytes :=
  match Bundle.unpack payload with
  | .ok messages => messages.filter fun message => !message.isEmpty
  | .error _ => []

/-- Processes an item: the messages that it completes. After a violation no assembly is left. -/
def process (item : Item) (r : Receiver) : Receiver × Except Violation (List Bytes) :=
  match item.channel with
  | .data => (r, .ok (messages item.payload))
  | .fragment =>
    match Fragment.accept r.assembly item.payload with
    | .ok (assembly, complete) =>
      ({ r with assembly }, .ok ((complete.map messages).getD []))
    | .error v => ({ r with assembly := none }, .error v)

theorem held_process (item : Item) (r : Receiver) : (process item r).1.held = r.held := by
  unfold process
  split
  · rfl
  · split <;> rfl

section Held

variable {κ : Type} [BEq κ]

/-- The held items without the one of a number. -/
def release (sequence : κ) (held : List (κ × Item)) : List (κ × Item) :=
  held.filter fun entry => entry.1 != sequence

/-- The held items with one more; an item of the same number is replaced. -/
def hold (sequence : κ) (item : Item) (held : List (κ × Item)) : List (κ × Item) :=
  (sequence, item) :: release sequence held

theorem length_release_lt [LawfulBEq κ] {sequence : κ} {item : Item} {held : List (κ × Item)}
    (h : held.lookup sequence = some item) : (release sequence held).length < held.length := by
  induction held with
  | nil => simp at h
  | cons entry held ih =>
    rw [List.lookup_cons] at h
    by_cases he : sequence == entry.1
    · have hle := List.length_filter_le (fun entry : κ × Item => entry.1 != sequence) held
      have heq : entry.1 = sequence := (beq_iff_eq.1 he).symm
      simp only [release, List.filter_cons, heq, bne_self_eq_false, Bool.false_eq_true, if_false,
        List.length_cons]
      omega
    · simp only [he] at h
      have hlt := ih h
      have hne : (entry.1 != sequence) = true := by
        simp only [bne_iff_ne]
        intro heq
        exact he (by simp [heq])
      simp only [release] at hlt
      simp only [release, List.filter_cons, hne, if_true, List.length_cons]
      omega

end Held

/-- Processes held items for as long as the expected one is among them. -/
def drain (r : Receiver) : Receiver × Except Violation (List Bytes) :=
  match h : r.held.lookup r.next with
  | none => (r, .ok [])
  | some item =>
    have : (release r.next r.held).length < r.held.length := length_release_lt h
    let processed := process item { r with held := release r.next r.held }
    match processed.2 with
    | .error v => (processed.1, .error v)
    | .ok first =>
      let rest := drain { processed.1 with next := r.next + 1 }
      (rest.1, rest.2.map (first ++ ·))
termination_by r.held.length
decreasing_by simpa only [held_process] using this

/-- What a sequenced packet does to the receiver. -/
structure Arrival where
  receiver : Receiver
  /-- The messages that became deliverable. -/
  result : Except Violation (List Bytes) := .ok []
  /-- The notice that is due to the peer at once: opcode and sequence number. -/
  notice : Option (UInt16 × UInt16) := none
  /-- Whether the expected number moved on, which is acknowledged when the datagram is done. -/
  advanced : Bool := false

/-- Takes a sequenced packet. One that was processed before is acknowledged again, one beyond the window
is ignored, one ahead of the expected number is held and reported. -/
def arrive (window : UInt16) (sequence : UInt16) (item : Item) (r : Receiver) : Arrival :=
  let d := Sequence.distance r.next sequence
  if d < 0 then { receiver := r, notice := some (Opcode.acknowledge, r.next - 1) }
  else if 0 < d then
    if window.toNat ≤ d.toNat then { receiver := r }
    else
      { receiver := { r with held := hold sequence item r.held }
        notice := some (Opcode.outOfOrder, sequence) }
  else
    let processed := process item r
    match processed.2 with
    | .error v => { receiver := processed.1, result := .error v }
    | .ok first =>
      let rest := drain { processed.1 with next := r.next + 1 }
      { receiver := rest.1, result := rest.2.map (first ++ ·), advanced := true }

end Receiver

end GameGateway
