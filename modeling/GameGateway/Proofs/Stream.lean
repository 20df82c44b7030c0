import GameGateway.Session.Receiver

/-!
# Streams of items

The items of a connection are processed one behind the other, and only the assembly passes from one to the
next. `Receiver.consumeAll` is `Receiver.process` along a list of items.

## Implementation notes

Reading is kept apart from the sequence number and the held items: `Receiver.process_eq` says that
processing neither reads nor changes them, so the same stream can be read behind any receiver.
-/

namespace GameGateway

/-- What stands in a list with one more element at its end. -/
theorem of_getElem?_concat {α : Type} {l : List α} {a b : α} {i : Nat} (h : (l ++ [a])[i]? = some b) :
    l[i]? = some b ∨ i = l.length ∧ a = b := by
  rw [List.getElem?_append] at h
  split at h
  · exact Or.inl h
  · right
    obtain ⟨hzero, hab⟩ : i - l.length = 0 ∧ a = b := by
      simpa [List.getElem?_singleton] using h
    exact ⟨by omega, hab⟩

namespace Item

/-- A piece of an oversized message as an item. -/
def ofFragment (fragment : Bytes) : Item := ⟨.fragment, fragment⟩

/-- The packet of an item under a sequence number. -/
def packet (item : Item) (sequence : UInt16) : Bytes :=
  Packet.header item.channel sequence ++ item.payload

/-- The item of a sequenced packet: its channel, and all that follows the header. -/
def ofPacket (packet : Bytes) : Item :=
  { channel := if packet.take 2 = Opcode.bytes Opcode.fragment then .fragment else .data
    payload := packet.drop Packet.headerLength }

theorem take_header (channel : Channel) (sequence : UInt16) (payload : Bytes) :
    (Packet.header channel sequence ++ payload).take 2 = Opcode.bytes channel.opcode := by
  rw [Packet.header, List.append_assoc, List.take_left']
  simp [Opcode.bytes, Fixed.width]

@[simp] theorem ofPacket_packet (item : Item) (sequence : UInt16) :
    ofPacket (item.packet sequence) = item := by
  obtain ⟨channel, payload⟩ := item
  have hpayload : (Packet.header channel sequence ++ payload).drop Packet.headerLength = payload :=
    List.drop_left' (Packet.length_header channel sequence)
  simp only [ofPacket, packet, take_header, hpayload]
  cases channel <;> rfl

end Item

namespace Receiver

/-- Processes an item behind an assembly: the assembly that is left, and the messages. -/
def consume (assembly : Option Fragment.Assembly) (item : Item) :
    Option Fragment.Assembly × Except Violation (List Bytes) :=
  let processed := process item { assembly }
  (processed.1.assembly, processed.2)

theorem process_eq (item : Item) (r : Receiver) :
    process item r =
      ({ r with assembly := (consume r.assembly item).1 }, (consume r.assembly item).2) := by
  cases hc : item.channel with
  | data => simp only [consume, process, hc]
  | fragment =>
    simp only [consume, process, hc]
    cases Fragment.accept r.assembly item.payload with
    | ok _ => rfl
    | error _ => rfl

theorem consume_data (assembly : Option Fragment.Assembly) (payload : Bytes) :
    consume assembly ⟨.data, payload⟩ = (assembly, .ok (messages payload)) := rfl

theorem consume_fragment {assembly next : Option Fragment.Assembly} {fragment : Bytes}
    {complete : Option Bytes} (h : Fragment.accept assembly fragment = .ok (next, complete)) :
    consume assembly (.ofFragment fragment) = (next, .ok ((complete.map messages).getD [])) := by
  simp only [consume, process, Item.ofFragment, h]

/-- Processes items in order behind an assembly, up to the first violation: the assembly that is left, and
all messages. -/
def consumeAll (assembly : Option Fragment.Assembly) :
    List Item → Option Fragment.Assembly × Except Violation (List Bytes)
  | [] => (assembly, .ok [])
  | item :: items =>
    match consume assembly item with
    | (next, .error v) => (next, .error v)
    | (next, .ok first) =>
      let rest := consumeAll next items
      (rest.1, rest.2.map (first ++ ·))

theorem consumeAll_cons {assembly next : Option Fragment.Assembly} {item : Item} {first : List Bytes}
    (h : consume assembly item = (next, .ok first)) (items : List Item) :
    consumeAll assembly (item :: items) =
      ((consumeAll next items).1, (consumeAll next items).2.map (first ++ ·)) := by
  simp only [consumeAll, h]

theorem consumeAll_cons_error {assembly next : Option Fragment.Assembly} {item : Item} {v : Violation}
    (h : consume assembly item = (next, .error v)) (items : List Item) :
    consumeAll assembly (item :: items) = (next, .error v) := by
  simp only [consumeAll, h]

/-- A stream is read without a violation exactly when its first item and what follows are. -/
theorem consumeAll_cons_ok_iff {a c : Option Fragment.Assembly} {item : Item} {items : List Item}
    {messages : List Bytes} :
    consumeAll a (item :: items) = (c, .ok messages) ↔
      ∃ b first rest, consume a item = (b, .ok first) ∧ consumeAll b items = (c, .ok rest) ∧
        messages = first ++ rest := by
  constructor
  · intro h
    rcases hitem : consume a item with ⟨b, _ | first⟩
    · rw [consumeAll_cons_error hitem] at h
      cases h
    · rw [consumeAll_cons hitem] at h
      rcases hitems : consumeAll b items with ⟨d, _ | rest⟩
      · rw [hitems] at h
        cases h
      · rw [hitems] at h
        cases h
        exact ⟨b, first, rest, rfl, hitems, rfl⟩
  · rintro ⟨b, first, rest, hitem, hitems, rfl⟩
    rw [consumeAll_cons hitem, hitems]
    rfl

/-- Two streams, one behind the other, are read without a violation exactly when both are. -/
theorem consumeAll_append_ok_iff {a c : Option Fragment.Assembly} {front items : List Item}
    {messages : List Bytes} :
    consumeAll a (front ++ items) = (c, .ok messages) ↔
      ∃ b first rest, consumeAll a front = (b, .ok first) ∧ consumeAll b items = (c, .ok rest) ∧
        messages = first ++ rest := by
  induction front generalizing a messages with
  | nil =>
    constructor
    · intro h
      exact ⟨a, [], messages, rfl, h, rfl⟩
    · rintro ⟨b, first, rest, hfront, hitems, rfl⟩
      cases hfront
      exact hitems
  | cons item front ih =>
    rw [List.cons_append, consumeAll_cons_ok_iff]
    constructor
    · rintro ⟨b, first, rest, hitem, hrest, rfl⟩
      obtain ⟨d, second, last, hfront, hitems, rfl⟩ := ih.1 hrest
      refine ⟨d, first ++ second, last, ?_, hitems, (List.append_assoc ..).symm⟩
      exact consumeAll_cons_ok_iff.2 ⟨b, first, second, hitem, hfront, rfl⟩
    · rintro ⟨d, init, last, hfront, hitems, rfl⟩
      obtain ⟨b, first, second, hitem, hsecond, rfl⟩ := consumeAll_cons_ok_iff.1 hfront
      refine ⟨b, first, second ++ last, hitem, ?_, List.append_assoc ..⟩
      exact ih.2 ⟨d, second, last, hsecond, hitems, rfl⟩

theorem consumeAll_append_ok {a b c : Option Fragment.Assembly} {front items : List Item}
    {first rest : List Bytes} (h : consumeAll a front = (b, .ok first))
    (h' : consumeAll b items = (c, .ok rest)) :
    consumeAll a (front ++ items) = (c, .ok (first ++ rest)) :=
  consumeAll_append_ok_iff.2 ⟨b, first, rest, h, h', rfl⟩

/-- A violation behind a stream without one is the violation of both together. -/
theorem consumeAll_append_error {a b c : Option Fragment.Assembly} {front items : List Item}
    {first : List Bytes} {v : Violation} (h : consumeAll a front = (b, .ok first))
    (h' : consumeAll b items = (c, .error v)) : consumeAll a (front ++ items) = (c, .error v) := by
  induction front generalizing a first with
  | nil =>
    cases h
    exact h'
  | cons item front ih =>
    obtain ⟨d, _, rest, hitem, hfront, -⟩ := consumeAll_cons_ok_iff.1 h
    rw [List.cons_append, consumeAll_cons hitem, ih hfront]
    rfl

/-- A prefix of a stream without a violation has none, and its messages come first. -/
theorem consumeAll_of_prefix {a c : Option Fragment.Assembly} {front items : List Item}
    {messages : List Bytes} (hp : front <+: items) (h : consumeAll a items = (c, .ok messages)) :
    ∃ b first, consumeAll a front = (b, .ok first) ∧ first <+: messages := by
  obtain ⟨rest, rfl⟩ := hp
  obtain ⟨b, first, last, hfront, -, rfl⟩ := consumeAll_append_ok_iff.1 h
  exact ⟨b, first, hfront, List.prefix_append first last⟩

/-! ## Arrivals -/

/-- All that can come of a sequenced packet: it comes late, or beyond the window, or early, or it is the expected one,
which may be a violation. -/
inductive Arrives (window sequence : UInt16) (item : Item) (r : Receiver) : Arrival → Prop
  | late (before : Sequence.distance r.next sequence < 0) :
      Arrives window sequence item r { receiver := r, notice := some (Opcode.acknowledge, r.next - 1) }
  | beyond (ahead : 0 < Sequence.distance r.next sequence)
      (outside : window.toNat ≤ Sequence.distance r.next sequence) :
      Arrives window sequence item r { receiver := r }
  | early (ahead : 0 < Sequence.distance r.next sequence)
      (inside : Sequence.distance r.next sequence < window.toNat) :
      Arrives window sequence item r
        { receiver := { r with held := hold sequence item r.held }
          notice := some (Opcode.outOfOrder, sequence) }
  | violation {r' : Receiver} {v : Violation} (expected : Sequence.distance r.next sequence = 0)
      (processed : process item r = (r', .error v)) :
      Arrives window sequence item r { receiver := r', result := .error v }
  | next {r' : Receiver} {first : List Bytes} (expected : Sequence.distance r.next sequence = 0)
      (processed : process item r = (r', .ok first)) :
      Arrives window sequence item r
        { receiver := (drain { r' with next := r.next + 1 }).1
          result := (drain { r' with next := r.next + 1 }).2.map (first ++ ·)
          advanced := true }

theorem arrive_arrives (window sequence : UInt16) (item : Item) (r : Receiver) :
    Arrives window sequence item r (r.arrive window sequence item) := by
  unfold arrive
  dsimp only
  by_cases hlate : Sequence.distance r.next sequence < 0
  · rw [if_pos hlate]
    exact .late hlate
  rw [if_neg hlate]
  by_cases hahead : 0 < Sequence.distance r.next sequence
  · rw [if_pos hahead]
    split
    · rename_i houtside
      exact .beyond hahead (by omega)
    · rename_i hinside
      exact .early hahead (by omega)
  rw [if_neg hahead]
  have hexpected : Sequence.distance r.next sequence = 0 := by omega
  rcases hprocess : process item r with ⟨r', v | first⟩
  · exact .violation hexpected hprocess
  · exact .next hexpected hprocess

end Receiver

end GameGateway
