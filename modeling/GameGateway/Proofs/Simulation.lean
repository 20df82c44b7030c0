import GameGateway.Proofs.Plain
import GameGateway.Proofs.Wrapping
import Mathlib

/-!
# Receiving a stream

The items of an endless stream arrive at a fresh session in any order, some never and some often. As long as
none is half a circle of sequence numbers away from the expected one, the session does what a receiver does
that counts without bound.
-/

namespace GameGateway

/-- The first violation, or all messages. -/
def Violation.collect : List (Except Violation (List Bytes)) → Except Violation (List Bytes)
  | [] => .ok []
  | .error v :: _ => .error v
  | .ok messages :: results => (collect results).map (messages ++ ·)

namespace Receiver.Unbounded

/-- Takes the items of a stream as they arrive. Answers what comes of each: the messages that it completes,
and the notices. -/
def takeAll (window : Nat) (stream : Nat → Item) (r : Unbounded) :
    List Nat → Unbounded × List (Except Violation (List Bytes) × List (UInt16 × Nat))
  | [] => (r, [])
  | index :: arrivals =>
    let arrival := r.arrive window index (stream index)
    let rest := takeAll window stream arrival.receiver arrivals
    (rest.1, (arrival.result, arrival.notices) :: rest.2)

/-- Every arrival is at most 32768 items behind the one that is expected when it arrives, and at most 32767
ahead of it. -/
def InReach (window : Nat) (stream : Nat → Item) (r : Unbounded) : List Nat → Prop
  | [] => True
  | index :: arrivals =>
    (r.count ≤ index + 32768 ∧ index ≤ r.count + 32767) ∧
      InReach window stream (r.arrive window index (stream index)).receiver arrivals

instance decidableInReach (window : Nat) (stream : Nat → Item) :
    ∀ r arrivals, Decidable (InReach window stream r arrivals)
  | _, [] => inferInstanceAs (Decidable True)
  | r, index :: arrivals =>
    have := decidableInReach window stream (r.arrive window index (stream index)).receiver arrivals
    inferInstanceAs (Decidable (_ ∧ _))

variable {window index : Nat} {item : Item} {stream : Nat → Item} {r : Unbounded} {arrivals : List Nat}
  {said messages : List Bytes} {v : Violation}

/-- A notice with its sequence number. -/
def wrapNotice (notice : UInt16 × Nat) : UInt16 × UInt16 := (notice.1, UInt16.ofNat notice.2)

/-- Notices commute with wrapping. -/
theorem Arrives.notices_wrap {a : Arrival} (ha : Arrives window index item r a) :
    a.wrap.notices = a.notices.map wrapNotice := by
  have hpos := ha.count_pos
  obtain ⟨receiver, v | messages, due, advanced⟩ := a
  · cases due <;> rfl
  · cases advanced with
    | false => cases due <;> rfl
    | true =>
      have hlast : UInt16.ofNat receiver.count - 1 = UInt16.ofNat (receiver.count - 1) :=
        Sequence.ofNat_sub_one (hpos rfl)
      cases due <;>
        simp [Arrival.wrap, Receiver.Arrival.notices, Arrival.notices, wrap, wrapNotice, hlast]

/-! ## What is processed -/

/-- The items of a stream. -/
def Of (stream : Nat → Item) (i : Nat) (item : Item) : Prop := item = stream i

/-- What a settled receiver has processed is the start of the stream. -/
theorem Settled.log_eq (h : Settled (Of stream) r) : r.log = (List.range r.count).map stream := by
  apply List.ext_getElem
  · simp [count]
  · intro i hi _
    have hitem : r.log[i] = stream i := h.log i r.log[i] (List.getElem?_eq_getElem hi)
    simpa using hitem

theorem Settled.arrive_stream (h : Settled (Of stream) r) (hhigh : index ≤ r.count + 32767) :
    Settled (Of stream) (arrive window index (stream index) r).receiver :=
  (arrive_arrives window index (stream index) r).settled h rfl hhigh

theorem Settled.takeAll (h : Settled (Of stream) r) (hreach : InReach window stream r arrivals) :
    Settled (Of stream) (Unbounded.takeAll window stream r arrivals).1 := by
  induction arrivals generalizing r with
  | nil => exact h
  | cons index arrivals ih =>
    obtain ⟨⟨-, hhigh⟩, hrest⟩ := hreach
    exact ih (h.arrive_stream hhigh) hrest

theorem count_le_takeAll (window : Nat) (stream : Nat → Item) (r : Unbounded) (arrivals : List Nat) :
    r.count ≤ (takeAll window stream r arrivals).1.count := by
  induction arrivals generalizing r with
  | nil => exact Nat.le_refl _
  | cons index arrivals ih =>
    exact Nat.le_trans (arrive_arrives window index (stream index) r).count_le (ih _)

/-- Without a violation, all messages are those of the log. -/
theorem Reads.takeAll (h : Reads r said)
    (hok : Violation.collect ((Unbounded.takeAll window stream r arrivals).2.map Prod.fst) = .ok messages) :
    Reads (Unbounded.takeAll window stream r arrivals).1 (said ++ messages) := by
  induction arrivals generalizing r said messages with
  | nil =>
    cases hok
    rw [List.append_nil]
    exact h
  | cons index arrivals ih =>
    simp only [Unbounded.takeAll, List.map_cons] at hok ⊢
    cases hresult : (Unbounded.arrive window index (stream index) r).result with
    | error v =>
      rw [hresult] at hok
      cases hok
    | ok first =>
      rw [hresult, Violation.collect] at hok
      obtain ⟨rest, hrest, rfl⟩ := map_eq_ok hok
      rw [← List.append_assoc]
      exact ih ((arrive_arrives window index (stream index) r).reads h hresult) hrest

/-- The first violation is that of the stream behind what was processed when it was found. -/
theorem Reads.takeAll_error (h : Reads r said) (hs : Settled (Of stream) r)
    (hreach : InReach window stream r arrivals)
    (herror : Violation.collect ((Unbounded.takeAll window stream r arrivals).2.map Prod.fst) = .error v) :
    ∃ n ≤ (Unbounded.takeAll window stream r arrivals).1.count,
      Breaks ((List.range n).map stream) (stream n) v := by
  induction arrivals generalizing r said with
  | nil => cases herror
  | cons index arrivals ih =>
    obtain ⟨⟨-, hhigh⟩, hrest⟩ := hreach
    have ha := arrive_arrives window index (stream index) r
    have harrived := ha.settled hs rfl hhigh
    simp only [Unbounded.takeAll, List.map_cons] at herror ⊢
    cases hresult : (Unbounded.arrive window index (stream index) r).result with
    | error v' =>
      rw [hresult] at herror
      cases herror
      obtain ⟨_, rfl, hbreaks⟩ := ha.reads_error h hs rfl hresult
      rw [harrived.log_eq] at hbreaks
      exact ⟨_, count_le_takeAll .., hbreaks⟩
    | ok first =>
      rw [hresult, Violation.collect] at herror
      exact ih (ha.reads h hresult) harrived hrest (map_eq_error herror)

end Receiver.Unbounded

namespace Session

open Receiver

/-- A notice as an unfiltered datagram. -/
def noticed (notice : UInt16 × Nat) : Outbound :=
  ⟨.passThrough, Packet.notice notice.1 (UInt16.ofNat notice.2)⟩

/-- What the packet of an item within reach does to a session whose receiver is a wrapped one. -/
theorem Plain.handle_item {s : Session} {r : Unbounded} {source : Nat → Item → Prop} {index : Nat}
    {item : Item} (h : s.Plain) (hr : s.receiver = r.wrap) (hs : Unbounded.Settled source r)
    (hitem : source index item) (hlow : r.count ≤ index + 32768) (hhigh : index ≤ r.count + 32767)
    (codec : Codec) (now : Nat) (seed : UInt32) :
    s.handle codec now seed (item.packet (UInt16.ofNat index)) =
      let arrival := r.arrive s.config.windowSize.toNat index item
      { session := { s.touched now with receiver := arrival.receiver.wrap }
        sent := arrival.notices.map noticed
        result := arrival.result
        advanced := arrival.advanced } := by
  have hnoticed : ((fun notice : UInt16 × UInt16 => s.outbound (Packet.notice notice.1 notice.2)) ∘
      Unbounded.wrapNotice) = noticed := by
    funext notice
    simp only [Function.comp_apply, outbound, h.passes]
    rfl
  have hhandle := h.handle_packet codec now seed item (UInt16.ofNat index)
  refine hhandle.trans ?_
  rw [hr, Unbounded.arrive_wrap hs hitem s.config.windowSize hlow hhigh]
  simp only [(Unbounded.arrive_arrives ..).notices_wrap, List.map_map, hnoticed]
  rfl

/-- The arrival of an item of a stream: the time, what the random source would give, and the item's
number. -/
structure Delivery where
  now : Nat
  seed : UInt32
  index : Nat

/-- Takes the packets of a stream as they arrive. Answers what each call returns and sends. -/
def takeAll (codec : Codec) (stream : Nat → Item) (s : Session) :
    List Delivery → Session × List (Except Violation (List Bytes) × List Outbound)
  | [] => (s, [])
  | d :: deliveries =>
    let reaction := s.handle codec d.now d.seed ((stream d.index).packet (UInt16.ofNat d.index))
    let rest := takeAll codec stream reaction.session deliveries
    (rest.1, (reaction.result, reaction.sent) :: rest.2)

/-- Whatever arrives within reach, the session and the receiver that counts without bound stay in step. -/
theorem Plain.takeAll {s : Session} {r : Unbounded} {window : UInt16} {stream : Nat → Item}
    (codec : Codec) (h : s.Plain) (hwindow : s.config.windowSize = window) (hr : s.receiver = r.wrap)
    (hs : Unbounded.Settled (Unbounded.Of stream) r) (deliveries : List Delivery)
    (hreach : Unbounded.InReach window.toNat stream r (deliveries.map Delivery.index)) :
    (s.takeAll codec stream deliveries).1.receiver =
        (Unbounded.takeAll window.toNat stream r (deliveries.map Delivery.index)).1.wrap ∧
      (s.takeAll codec stream deliveries).2 =
        (Unbounded.takeAll window.toNat stream r (deliveries.map Delivery.index)).2.map fun out =>
          (out.1, out.2.map noticed) := by
  induction deliveries generalizing s r with
  | nil => exact ⟨hr, rfl⟩
  | cons d deliveries ih =>
    obtain ⟨⟨hlow, hhigh⟩, hrest⟩ := hreach
    have hitem : Unbounded.Of stream d.index (stream d.index) := rfl
    have hhandle := h.handle_item hr hs hitem hlow hhigh codec d.now d.seed
    rw [hwindow] at hhandle
    have hplain : ({ s.touched d.now with
        receiver := (Unbounded.arrive window.toNat d.index (stream d.index) r).receiver.wrap } :
          Session).Plain := ⟨(h.touched d.now).isOpen, (h.touched d.now).passes⟩
    have htail := ih hplain (by rw [← hwindow, ← touched_config d.now s]) rfl
      (hs.arrive_stream hhigh) hrest
    simp only [Session.takeAll, List.map_cons, Unbounded.takeAll, hhandle]
    refine ⟨htail.1, ?_⟩
    rw [htail.2]

/-- A fresh session takes a stream as a receiver does that counts without bound: it returns the same
messages and violations, sends the same notices and expects the same number, all modulo `2 ^ 16`. What it
has processed is the start of the stream, each item once and in order; its messages are those of these
items, and its first violation is that of the stream. -/
theorem takeAll_create (codec : Codec) (endpoint : Endpoint) (config : ProtocolConfig) (start : Nat)
    (stream : Nat → Item) (deliveries : List Delivery)
    (hreach : Unbounded.InReach config.windowSize.toNat stream {} (deliveries.map Delivery.index)) :
    let session := (create endpoint config start).takeAll codec stream deliveries
    let ideal := Unbounded.takeAll config.windowSize.toNat stream {} (deliveries.map Delivery.index)
    (session.2 = ideal.2.map fun out => (out.1, out.2.map noticed)) ∧
      session.1.receiver = ideal.1.wrap ∧
      session.1.receiver.next.toNat = ideal.1.count % 65536 ∧
      ideal.1.log = (List.range ideal.1.count).map stream ∧
      (∀ messages, Violation.collect (session.2.map Prod.fst) = .ok messages →
        consumeAll none ideal.1.log = (ideal.1.assembly, .ok messages)) ∧
      ∀ v, Violation.collect (session.2.map Prod.fst) = .error v →
        ∃ n ≤ ideal.1.count, Unbounded.Breaks ((List.range n).map stream) (stream n) v := by
  intro session ideal
  have hsettled := Unbounded.settled_empty (Unbounded.Of stream)
  obtain ⟨hreceiver, hout⟩ :=
    (plain_create endpoint config start).takeAll codec rfl rfl hsettled deliveries hreach
  have hresults : session.2.map Prod.fst = ideal.2.map Prod.fst := by
    rw [hout, List.map_map]
    rfl
  refine ⟨hout, hreceiver, ?_, (hsettled.takeAll hreach).log_eq, ?_, ?_⟩
  · rw [hreceiver]
    exact UInt16.toNat_ofNat
  · intro messages hok
    rw [hresults] at hok
    exact Unbounded.reads_empty.takeAll hok
  · intro v herror
    rw [hresults] at herror
    exact Unbounded.reads_empty.takeAll_error hsettled hreach herror

/-- A stream of which the second item comes first, the first one twice, and the fourth never. -/
theorem takeAll_create_reordered :
    let stream : Nat → Item := fun i => ⟨.data, [UInt8.ofNat i, 7]⟩
    let session := (create ⟨.v4 127 0 0 1, 20260⟩ {} 0).takeAll ⟨fun _ => none, fun _ _ => none⟩ stream
      [⟨0, 0, 1⟩, ⟨1, 0, 0⟩, ⟨2, 0, 0⟩, ⟨3, 0, 4⟩, ⟨4, 0, 2⟩]
    let ideal := Unbounded.takeAll 128 stream {} [1, 0, 0, 4, 2]
    Unbounded.InReach 128 stream {} [1, 0, 0, 4, 2] ∧
      session.2.map Prod.fst = [.ok [], .ok [[0, 7], [1, 7]], .ok [], .ok [], .ok [[2, 7]]] ∧
      (session.2 = ideal.2.map fun out => (out.1, out.2.map noticed)) ∧
      ideal.1.log = (List.range 3).map stream := by
  intro stream session ideal
  have hreach : Unbounded.InReach 128 stream {} [1, 0, 0, 4, 2] := of_decide_eq_true (by cbv)
  have hcount : ideal.1.count = 3 := by cbv
  obtain ⟨hsent, -, -, hlog, -⟩ := takeAll_create ⟨fun _ => none, fun _ _ => none⟩
    ⟨.v4 127 0 0 1, 20260⟩ {} 0 stream [⟨0, 0, 1⟩, ⟨1, 0, 0⟩, ⟨2, 0, 0⟩, ⟨3, 0, 4⟩, ⟨4, 0, 2⟩] hreach
  have hout : session.2 = ideal.2.map fun out => (out.1, out.2.map noticed) := hsent
  refine ⟨hreach, ?_, hout, ?_⟩
  · calc
      session.2.map Prod.fst = ideal.2.map Prod.fst := by
        rw [hout, List.map_map]
        rfl
      _ = [.ok [], .ok [[0, 7], [1, 7]], .ok [], .ok [], .ok [[2, 7]]] := by cbv
  · rw [← hcount]
    exact hlog

end Session

end GameGateway
