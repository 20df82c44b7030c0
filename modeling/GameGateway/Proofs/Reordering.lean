import GameGateway.Proofs.Simulation

/-!
# Order of arrival

The packets of as many items as the window has places may come in any order, and each of them any number of times: what
a session returns over all of them, and what it expects, holds and puts together afterwards, is what the packets leave
in their order: `Session.takeAll_any_order`.

## Implementation notes

The items start at the number that the session expects, whatever it has processed before. A receiver that counts without
bound stands for it with a log of that length, `Unbounded.resumed`; only what the log has grown by is read,
`Unbounded.ReadsFrom`.
-/

namespace GameGateway

namespace Receiver.Unbounded

variable {stream : Nat → Item} {first n limit window index : Nat} {item : Item} {start final : Option Fragment.Assembly}
  {r r' : Unbounded} {a : Arrival} {arrivals : List Nat} {said more messages : List Bytes}
  {result : Except Violation (List Bytes)} {v : Violation}

/-- Some items of a stream, from the number `first` on. -/
def batch (stream : Nat → Item) (first n : Nat) : List Item := (List.range' first n).map stream

/-- The items of a stream before the number `limit`. -/
def Below (stream : Nat → Item) (limit : Nat) (i : Nat) (item : Item) : Prop := i < limit ∧ item = stream i

/-- A receiver that holds nothing and has processed so many items of a stream. -/
def resumed (stream : Nat → Item) (first : Nat) (assembly : Option Fragment.Assembly) : Unbounded :=
  { log := batch stream 0 first, assembly }

@[simp] theorem count_resumed (stream : Nat → Item) (first : Nat) (assembly : Option Fragment.Assembly) :
    (resumed stream first assembly).count = first := by
  simp [count, resumed, batch]

theorem settled_resumed (stream : Nat → Item) {first limit : Nat} (h : first ≤ limit)
    (assembly : Option Fragment.Assembly) : Settled (Below stream limit) (resumed stream first assembly) where
  log := by
    intro i item hi
    obtain ⟨hlt, rfl⟩ := List.getElem?_eq_some_iff.1 hi
    simp only [resumed, batch, List.length_map, List.length_range'] at hlt
    exact ⟨Nat.lt_of_lt_of_le hlt h, by simp [resumed, batch]⟩
  held := by simp [resumed]
  reach := by simp [resumed]
  ahead := by simp [resumed]

/-! ## What was processed of a batch -/

theorem Follows.count_le (h : Follows (Below stream limit) r) : r.count ≤ limit := by
  by_contra hover
  have hlt : limit < r.log.length := Nat.lt_of_not_le hover
  obtain ⟨hbelow, -⟩ := h.log limit r.log[limit] (List.getElem?_eq_getElem hlt)
  exact Nat.lt_irrefl _ hbelow

/-- The log has grown by the start of the batch. -/
theorem Follows.drop_log (h : Follows (Below stream limit) r) (first : Nat) :
    r.log.drop first = batch stream first (r.count - first) := by
  apply List.ext_getElem
  · simp [batch, count]
  · intro i hi _
    rw [List.length_drop] at hi
    have hlt : first + i < r.log.length := by omega
    obtain ⟨-, hitem⟩ := h.log (first + i) r.log[first + i] (List.getElem?_eq_getElem hlt)
    simpa [batch] using hitem

theorem batch_prefix {m : Nat} (h : m ≤ n) : batch stream first m <+: batch stream first n := by
  have hsplit : List.range' first n = List.range' first m ++ List.range' (first + m) (n - m) := by
    rw [List.range'_append_1, Nat.add_sub_cancel' h]
  rw [batch, batch, hsplit, List.map_append]
  exact List.prefix_append ..

/-- What the log has grown by from a number on reads as the given messages behind an assembly. -/
structure ReadsFrom (start : Option Fragment.Assembly) (first : Nat) (r : Unbounded) (said : List Bytes) : Prop where
  le_count : first ≤ r.count
  reads : consumeAll start (r.log.drop first) = (r.assembly, .ok said)

theorem readsFrom_resumed (stream : Nat → Item) (first : Nat) (start : Option Fragment.Assembly) :
    ReadsFrom start first (resumed stream first start) [] where
  le_count := Nat.le_of_eq (count_resumed stream first start).symm
  reads := by
    have hnone : (resumed stream first start).log.drop first = [] := by simp [resumed, batch]
    rw [hnone]
    rfl

theorem ReadsFrom.process (h : ReadsFrom start first r said) (hp : Unbounded.process item r = (r', .ok more)) :
    ReadsFrom start first r' (said ++ more) := by
  obtain ⟨assembly, hitem, rfl⟩ := process_eq_ok_iff.1 hp
  have hone : consumeAll r.assembly [item] = (assembly, .ok (more ++ [])) := consumeAll_cons hitem []
  rw [List.append_nil] at hone
  refine ⟨?_, ?_⟩
  · have hle := h.le_count
    simp only [count, List.length_append] at hle ⊢
    omega
  · simp only [List.drop_append_of_le_length h.le_count]
    exact consumeAll_append_ok h.reads hone

/-- A batch that can be read in its order has no violation at the expected item. -/
theorem ReadsFrom.process_ok (h : ReadsFrom start first r said) (hf : Follows (Below stream (first + n)) r)
    (hwhole : consumeAll start (batch stream first n) = (final, .ok messages)) (hlt : r.count < first + n) :
    ∃ r' more, Unbounded.process (stream r.count) r = (r', .ok more) := by
  rcases hp : Unbounded.process (stream r.count) r with ⟨r', v | more⟩
  · obtain ⟨assembly, hitem, -⟩ := process_eq_error_iff.1 hp
    have hle := h.le_count
    have hgrown : r.log.drop first ++ [stream r.count] = batch stream first (r.count - first + 1) := by
      rw [hf.drop_log first, batch, batch, List.range'_1_concat, List.map_append, List.map_singleton,
        Nat.add_sub_cancel' hle]
    have hfront : batch stream first (r.count - first + 1) <+: batch stream first n := batch_prefix (by omega)
    obtain ⟨b, more, hread, -⟩ := consumeAll_of_prefix hfront hwhole
    have hbroken := consumeAll_append_error h.reads (consumeAll_cons_error hitem [])
    rw [hgrown, hread] at hbroken
    cases hbroken
  · exact ⟨r', more, rfl⟩

/-- Nor has it one at the expected item when that is held. -/
theorem ReadsFrom.process_held (h : ReadsFrom start first r said) (hf : Follows (Below stream (first + n)) r)
    (hwhole : consumeAll start (batch stream first n) = (final, .ok messages))
    (hlookup : r.held.lookup r.count = some item) : ∃ r' more, Unbounded.process item r.released = (r', .ok more) := by
  have hreleased : ReadsFrom start first r.released said := ⟨h.le_count, h.reads⟩
  obtain ⟨hlt, hitem⟩ := hf.held _ (mem_of_lookup hlookup)
  have hexpected : item = stream r.released.count := hitem
  rw [hexpected]
  exact hreleased.process_ok hf.released.toFollows hwhole hlt

/-- A drain of items of a batch that can be read has no violation. -/
theorem Drains.readsFrom (hd : Drains r r' result) (hf : Follows (Below stream (first + n)) r)
    (hwhole : consumeAll start (batch stream first n) = (final, .ok messages)) (h : ReadsFrom start first r said) :
    ∃ more, result = .ok more ∧ ReadsFrom start first r' (said ++ more) := by
  induction hd generalizing said with
  | done missing => exact ⟨[], rfl, by rwa [List.append_nil]⟩
  | violation expected processed =>
    obtain ⟨_, _, hok⟩ := h.process_held hf hwhole expected
    cases processed.symm.trans hok
  | @next r r' r'' item next result expected processed rest ih =>
    have hreleased : ReadsFrom start first r.released said := ⟨h.le_count, h.reads⟩
    have hfollows := hf.released.process (hf.held _ (mem_of_lookup expected)) processed
    obtain ⟨last, rfl, hlast⟩ := ih hfollows (hreleased.process processed)
    exact ⟨next ++ last, rfl, by rwa [← List.append_assoc]⟩

/-- An arrival of an item of a batch that can be read has no violation. -/
theorem Arrives.readsFrom (ha : Arrives window index (stream index) r a) (hs : Settled (Below stream (first + n)) r)
    (hwhole : consumeAll start (batch stream first n) = (final, .ok messages)) (h : ReadsFrom start first r said)
    (hindex : index < first + n) : ∃ more, a.result = .ok more ∧ ReadsFrom start first a.receiver (said ++ more) := by
  have hidle : ReadsFrom start first r (said ++ []) := by rwa [List.append_nil]
  cases ha with
  | late before => exact ⟨[], rfl, hidle⟩
  | beyond ahead outside => exact ⟨[], rfl, hidle⟩
  | early ahead inside => exact ⟨[], rfl, hidle.le_count, hidle.reads⟩
  | violation expected processed =>
    subst expected
    obtain ⟨_, _, hok⟩ := h.process_ok hs.toFollows hwhole hindex
    cases processed.symm.trans hok
  | @next r' r'' more result expected processed rest =>
    subst expected
    have hfollows := hs.process (⟨hindex, rfl⟩) processed
    obtain ⟨last, rfl, hlast⟩ := rest.readsFrom hfollows hwhole (h.process processed)
    exact ⟨more ++ last, rfl, by rwa [← List.append_assoc]⟩

/-- An item that comes within the window is processed or held afterwards. -/
theorem Arrives.has_self (ha : Arrives window index item r a) (hindex : index < r.count + window)
    (hok : a.result = .ok more) : Has index a.receiver := by
  cases ha with
  | late before => exact Or.inl before
  | beyond ahead outside => omega
  | early ahead inside => exact Or.inr ⟨item, List.mem_cons_self ..⟩
  | violation expected processed => cases hok
  | next expected processed rest =>
    left
    have hone := count_process processed
    have hrest := rest.count_le
    simp only
    omega

/-! ## Runs of arrivals -/

/-- The numbers are those of a batch. -/
def Inside (first n : Nat) (arrivals : List Nat) : Prop := ∀ i ∈ arrivals, first ≤ i ∧ i < first + n

theorem Inside.tail (h : Inside first n (index :: arrivals)) : Inside first n arrivals :=
  fun i hi => h i (List.mem_cons_of_mem _ hi)

/-- The items of a batch are within reach, also behind a violation. -/
theorem Settled.inReach (hs : Settled (Below stream (first + n)) r) (hle : first ≤ r.count) (hn : n ≤ 32767)
    (hin : Inside first n arrivals) : InReach window stream r arrivals := by
  induction arrivals generalizing r with
  | nil => trivial
  | cons index arrivals ih =>
    obtain ⟨hlow, hhigh⟩ := hin index List.mem_cons_self
    have hcount := hs.count_le
    have harrives := arrive_arrives window index (stream index) r
    have hreach : index ≤ r.count + 32767 := by omega
    refine ⟨⟨by omega, hreach⟩, ih ?_ ?_ hin.tail⟩
    · exact harrives.settled hs (⟨hhigh, rfl⟩) hreach
    · exact Nat.le_trans hle harrives.count_le

/-- What a run of arrivals from a batch leaves. -/
theorem ReadsFrom.takeAll (h : ReadsFrom start first r said) (hs : Settled (Below stream (first + n)) r)
    (hwhole : consumeAll start (batch stream first n) = (final, .ok messages)) (hn : n ≤ window)
    (hwindow : window ≤ 32767) (hin : Inside first n arrivals) :
    let run := Unbounded.takeAll window stream r arrivals
    Settled (Below stream (first + n)) run.1 ∧
      (∃ more, Violation.collect (run.2.map Prod.fst) = .ok more ∧ ReadsFrom start first run.1 (said ++ more)) ∧
      (∀ i ∈ arrivals, Has i run.1) ∧ ∀ i, Has i r → Has i run.1 := by
  induction arrivals generalizing r said with
  | nil => exact ⟨hs, ⟨[], rfl, by rwa [List.append_nil]⟩, by simp, fun _ hi => hi⟩
  | cons index arrivals ih =>
    obtain ⟨hlow, hhigh⟩ := hin index List.mem_cons_self
    have hle := h.le_count
    have harrives := arrive_arrives window index (stream index) r
    have hsettled := harrives.settled hs (⟨hhigh, rfl⟩) (by omega)
    obtain ⟨more, hok, hreads⟩ := harrives.readsFrom hs hwhole h hhigh
    obtain ⟨hlast, ⟨rest, hrest, hall⟩, hhas, hkept⟩ := ih hreads hsettled hin.tail
    refine ⟨hlast, ⟨more ++ rest, ?_, ?_⟩, ?_, ?_⟩
    · simp only [Unbounded.takeAll, List.map_cons, hok, Violation.collect, hrest]
      rfl
    · rwa [← List.append_assoc]
    · intro i hi
      rcases List.mem_cons.1 hi with rfl | hi
      · exact hkept _ (harrives.has_self (by omega) hok)
      · exact hhas i hi
    · exact fun i hi => hkept i (harrives.has hi hok)

/-- A receiver that has every item of a batch has processed them all and holds none. -/
theorem Settled.done (hs : Settled (Below stream (first + n)) r) (hle : first ≤ r.count)
    (hall : ∀ i, first ≤ i → i < first + n → Has i r) : r.count = first + n ∧ r.held = [] := by
  have hcount : r.count = first + n := by
    have hupper := hs.count_le
    by_contra hne
    rcases hall r.count hle (by omega) with hlt | ⟨item, hheld⟩
    · omega
    · exact hs.ahead _ hheld rfl
  refine ⟨hcount, List.eq_nil_iff_forall_not_mem.2 fun entry he => ?_⟩
  obtain ⟨hfrom, -⟩ := hs.reach entry he
  obtain ⟨hbelow, -⟩ := hs.held entry he
  omega

/-- All items of a batch, in any order and any number of times, leave what they leave in their order. -/
theorem takeAll_batch (hwhole : consumeAll start (batch stream first n) = (final, .ok messages)) (hn : n ≤ window)
    (hwindow : window ≤ 32767) (hbatch : ∀ i, i ∈ arrivals ↔ first ≤ i ∧ i < first + n) :
    let run := takeAll window stream (resumed stream first start) arrivals
    Violation.collect (run.2.map Prod.fst) = .ok messages ∧
      run.1.count = first + n ∧ run.1.held = [] ∧ run.1.assembly = final := by
  obtain ⟨hs, ⟨more, hok, hreads⟩, hhas, -⟩ :=
    (readsFrom_resumed stream first start).takeAll (settled_resumed stream (Nat.le_add_right first n) start) hwhole hn
      hwindow
      fun i hi => (hbatch i).1 hi
  obtain ⟨hcount, hheld⟩ := hs.done hreads.le_count fun i hlow hhigh => hhas i ((hbatch i).2 ⟨hlow, hhigh⟩)
  have hread := hreads.reads
  rw [hs.drop_log first, hcount, Nat.add_sub_cancel_left, hwhole, List.nil_append] at hread
  obtain ⟨hfinal, hmore⟩ := Prod.mk.inj hread
  exact ⟨hok.trans hmore.symm, hcount, hheld, hfinal.symm⟩

/-! ## The items in their order -/

theorem drain_of_held_nil (hheld : r.held = []) : drain r = (r, .ok []) := by
  unfold drain
  split
  · rfl
  · rename_i item hsome
    rw [hheld] at hsome
    cases hsome

/-- A receiver that holds nothing takes the expected item and no other. -/
theorem arrive_ok (hheld : r.held = []) (hp : process item r = (r', .ok more)) (window : Nat) :
    arrive window r.count item r = { receiver := r', result := .ok more, advanced := true } := by
  have hkept : r'.held = [] := by
    rw [← hheld, ← held_process item r, hp]
  simp [arrive, hp, drain_of_held_nil hkept, Except.map]

theorem arrive_error (hp : process item r = (r', .error v)) (window : Nat) :
    arrive window r.count item r = { receiver := r', result := .error v } := by
  simp [arrive, hp]

/-- In their order, the items of a batch are processed one behind the other. -/
theorem collect_takeAll_inOrder (window : Nat) (stream : Nat → Item) (hheld : r.held = []) (n : Nat) :
    Violation.collect ((takeAll window stream r (List.range' r.count n)).2.map Prod.fst) =
      (consumeAll r.assembly (batch stream r.count n)).2 := by
  induction n generalizing r with
  | zero => rfl
  | succ n ih =>
    simp only [List.range'_succ, takeAll, List.map_cons, batch]
    rcases hp : process (stream r.count) r with ⟨r', v | more⟩
    · obtain ⟨next, hconsume, rfl⟩ := process_eq_error_iff.1 hp
      rw [arrive_error hp, consumeAll_cons_error hconsume]
      rfl
    · have hcount := count_process hp
      have hkept : r'.held = [] := by rw [← hheld, ← held_process (stream r.count) r, hp]
      have hrest := ih hkept
      obtain ⟨next, hconsume, rfl⟩ := process_eq_ok_iff.1 hp
      rw [hcount] at hrest
      rw [arrive_ok hheld hp, consumeAll_cons hconsume]
      exact congrArg (Except.map (more ++ ·)) hrest

/-! ## The last advance -/

/-- What moves the expected number on without a violation is acknowledged, and nothing else is said. -/
theorem Arrives.notices_of_count_lt (ha : Arrives window index item r a) (hok : a.result = .ok more)
    (hlt : r.count < a.receiver.count) :
    a.advanced = true ∧ a.notices = [(Opcode.acknowledge, a.receiver.count - 1)] := by
  cases ha with
  | late before => exact absurd hlt (Nat.lt_irrefl _)
  | beyond ahead outside => exact absurd hlt (Nat.lt_irrefl _)
  | early ahead inside => exact absurd hlt (Nat.lt_irrefl _)
  | violation expected processed => cases hok
  | @next r' r'' first result expected processed rest =>
    obtain ⟨last, rfl, -⟩ := map_eq_ok hok
    exact ⟨rfl, rfl⟩

/-- Items that were processed before are acknowledged again, each time by the last number. -/
theorem takeAll_late (h : ∀ i ∈ arrivals, i < r.count) :
    takeAll window stream r arrivals =
      (r, arrivals.map fun _ => (.ok [], [(Opcode.acknowledge, r.count - 1)])) := by
  induction arrivals with
  | nil => rfl
  | cons index arrivals ih =>
    have hlate : index < r.count := h index List.mem_cons_self
    have hrest := ih fun i hi => h i (List.mem_cons_of_mem _ hi)
    simp only [takeAll, arrive, if_pos hlate, hrest]
    rfl

/-- A run that processes a whole batch advances for the last time at some arrival, which acknowledges the whole batch;
those behind it are acknowledged again. -/
theorem exists_last_advance (h : ReadsFrom start first r said) (hs : Settled (Below stream (first + n)) r)
    (hwhole : consumeAll start (batch stream first n) = (final, .ok messages)) (hn : n ≤ 32767)
    (hin : Inside first n arrivals) (hlt : r.count < first + n)
    (hend : (takeAll window stream r arrivals).1.count = first + n) :
    ∃ front index back, arrivals = front ++ index :: back ∧
      let last := arrive window index (stream index) (takeAll window stream r front).1
      last.advanced = true ∧ last.notices = [(Opcode.acknowledge, first + n - 1)] ∧
        takeAll window stream last.receiver back =
          (last.receiver, back.map fun _ => (.ok [], [(Opcode.acknowledge, first + n - 1)])) := by
  induction arrivals generalizing r said with
  | nil => exact absurd hend (Nat.ne_of_lt hlt)
  | cons index arrivals ih =>
    obtain ⟨hlow, hhigh⟩ := hin index List.mem_cons_self
    have hle := h.le_count
    have harrives := arrive_arrives window index (stream index) r
    have hsettled := harrives.settled hs (⟨hhigh, rfl⟩) (by omega)
    obtain ⟨more, hok, hreads⟩ := harrives.readsFrom hs hwhole h hhigh
    by_cases hdone : (arrive window index (stream index) r).receiver.count = first + n
    · obtain ⟨hadvanced, hnotices⟩ := harrives.notices_of_count_lt hok (by omega)
      have hlate : ∀ i ∈ arrivals, i < (arrive window index (stream index) r).receiver.count := by
        intro i hi
        rw [hdone]
        exact (hin.tail i hi).2
      have hback : takeAll window stream (arrive window index (stream index) r).receiver arrivals = _ :=
        takeAll_late hlate
      rw [hdone] at hnotices hback
      exact ⟨[], index, arrivals, rfl, hadvanced, hnotices, hback⟩
    · have hcount := hsettled.count_le
      obtain ⟨front, last, back, rfl, hlast⟩ := ih hreads hsettled hin.tail (by omega) hend
      exact ⟨index :: front, last, back, rfl, hlast⟩

end Receiver.Unbounded

namespace Session

open Receiver

variable {s : Session} {codec : Codec} {first n : Nat} {stream : Nat → Item} {ordered deliveries : List Delivery}
  {messages : List Bytes}

/-- The packet of an item leaves a session open and unfiltered, and its settings alone. -/
theorem Plain.session_handle_packet (h : s.Plain) (codec : Codec) (now : Nat) (seed : UInt32) (item : Item)
    (sequence : UInt16) :
    (s.handle codec now seed (item.packet sequence)).session.Plain ∧
      (s.handle codec now seed (item.packet sequence)).session.config = s.config := by
  have htouched := h.touched now
  rw [h.handle_packet codec now seed item sequence]
  exact ⟨⟨htouched.isOpen, htouched.passes⟩, touched_config now s⟩

theorem Plain.session_takeAll (h : s.Plain) (codec : Codec) (stream : Nat → Item) (deliveries : List Delivery) :
    (s.takeAll codec stream deliveries).1.Plain ∧ (s.takeAll codec stream deliveries).1.config = s.config := by
  induction deliveries generalizing s with
  | nil => exact ⟨h, rfl⟩
  | cons d deliveries ih =>
    obtain ⟨hplain, hconfig⟩ :=
      h.session_handle_packet codec d.now d.seed (stream d.index) (UInt16.ofNat d.index)
    obtain ⟨hrest, hsame⟩ := ih hplain
    exact ⟨hrest, hsame.trans hconfig⟩

theorem takeAll_append (codec : Codec) (stream : Nat → Item) (s : Session) (front back : List Delivery) :
    s.takeAll codec stream (front ++ back) =
      (((s.takeAll codec stream front).1.takeAll codec stream back).1,
        (s.takeAll codec stream front).2 ++ ((s.takeAll codec stream front).1.takeAll codec stream back).2) := by
  induction front generalizing s with
  | nil => rfl
  | cons d front ih => simp only [List.cons_append, takeAll, ih]

/-! ## Sessions that await a batch -/

/-- An open session without a filter that expects the number `first`, holds nothing and has room for `n` packets in its
window. -/
structure Awaits (first n : Nat) (s : Session) : Prop extends s.Plain where
  next : s.receiver.next = UInt16.ofNat first
  held : s.receiver.held = []
  room : n ≤ s.config.windowSize.toNat
  window : s.config.windowSize.toNat ≤ 32767

/-- The receiver that counts without bound and stands for that of a session, which has processed `first` items. -/
def unwrapped (stream : Nat → Item) (first : Nat) (s : Session) : Unbounded :=
  Unbounded.resumed stream first s.receiver.assembly

theorem count_unwrapped (stream : Nat → Item) (first : Nat) (s : Session) :
    (s.unwrapped stream first).count = first := Unbounded.count_resumed ..

theorem settled_unwrapped (stream : Nat → Item) (first n : Nat) (s : Session) :
    Unbounded.Settled (Unbounded.Below stream (first + n)) (s.unwrapped stream first) :=
  Unbounded.settled_resumed stream (Nat.le_add_right first n) s.receiver.assembly

theorem readsFrom_unwrapped (stream : Nat → Item) (first : Nat) (s : Session) :
    Unbounded.ReadsFrom s.receiver.assembly first (s.unwrapped stream first) [] :=
  Unbounded.readsFrom_resumed stream first s.receiver.assembly

theorem Awaits.receiver_eq (h : s.Awaits first n) (stream : Nat → Item) :
    s.receiver = (s.unwrapped stream first).wrap := by
  have hnext := h.next
  have hheld := h.held
  simp only [unwrapped, Unbounded.wrap, Unbounded.count_resumed]
  generalize s.receiver = r at hnext hheld ⊢
  obtain ⟨next, held, assembly⟩ := r
  cases hnext
  cases hheld
  rfl

section Steps

variable {r : Unbounded} (h : s.Plain) (hr : s.receiver = r.wrap)
  (hs : Unbounded.Settled (Unbounded.Below stream (first + n)) r) (hle : first ≤ r.count) (hn : n ≤ 32767)

include h hr hs hle hn

/-- Over packets of a batch a session stays in step with a receiver that counts without bound. -/
theorem Plain.takeAll_inside (codec : Codec) (hin : Unbounded.Inside first n (deliveries.map Delivery.index)) :
    (s.takeAll codec stream deliveries).1.receiver =
        (Unbounded.takeAll s.config.windowSize.toNat stream r (deliveries.map Delivery.index)).1.wrap ∧
      (s.takeAll codec stream deliveries).2 =
        (Unbounded.takeAll s.config.windowSize.toNat stream r (deliveries.map Delivery.index)).2.map fun out =>
          (out.1, out.2.map noticed) :=
  h.takeAll codec rfl hr (hs.mono fun _ _ hitem => hitem.2) deliveries (hs.inReach hle hn hin)

/-- So it does over one of them. -/
theorem Plain.handle_inside (codec : Codec) {d : Delivery} (hlow : first ≤ d.index) (hhigh : d.index < first + n) :
    let last := s.handle codec d.now d.seed ((stream d.index).packet (UInt16.ofNat d.index))
    let arrival := r.arrive s.config.windowSize.toNat d.index (stream d.index)
    (last.session.Plain ∧ last.session.config = s.config ∧ last.session.receiver = arrival.receiver.wrap) ∧
      last.advanced = arrival.advanced ∧ last.sent = arrival.notices.map noticed ∧
      Unbounded.Settled (Unbounded.Below stream (first + n)) arrival.receiver ∧ first ≤ arrival.receiver.count := by
  have hcount := hs.count_le
  have hitem : Unbounded.Below stream (first + n) d.index (stream d.index) := ⟨hhigh, rfl⟩
  have harrives := Unbounded.arrive_arrives s.config.windowSize.toNat d.index (stream d.index) r
  obtain ⟨hplain, hconfig⟩ := h.session_handle_packet codec d.now d.seed (stream d.index) (UInt16.ofNat d.index)
  have hhandle := h.handle_item hr hs hitem (by omega) (by omega) codec d.now d.seed
  refine ⟨⟨hplain, hconfig, ?_⟩, ?_, ?_, harrives.settled hs hitem (by omega), Nat.le_trans hle harrives.count_le⟩
  · rw [hhandle]
  · rw [hhandle]
  · rw [hhandle]

end Steps

section Batch

variable (h : s.Awaits first n) (codec : Codec)

include h

theorem Awaits.reach : n ≤ 32767 := Nat.le_trans h.room h.window

theorem Awaits.takeAll_inside (hin : Unbounded.Inside first n (deliveries.map Delivery.index)) :
    (s.takeAll codec stream deliveries).1.receiver =
        (Unbounded.takeAll s.config.windowSize.toNat stream (s.unwrapped stream first)
          (deliveries.map Delivery.index)).1.wrap ∧
      (s.takeAll codec stream deliveries).2.map Prod.fst =
        (Unbounded.takeAll s.config.windowSize.toNat stream (s.unwrapped stream first)
          (deliveries.map Delivery.index)).2.map Prod.fst := by
  have hle : first ≤ (s.unwrapped stream first).count := Nat.le_of_eq (count_unwrapped ..).symm
  obtain ⟨hreceiver, hout⟩ :=
    h.toPlain.takeAll_inside (h.receiver_eq stream) (settled_unwrapped stream first n s) hle h.reach codec hin
  refine ⟨hreceiver, ?_⟩
  rw [hout, List.map_map]
  rfl

/-- What the session returns over the packets in their order is what their items read as. -/
theorem Awaits.collect_takeAll_ordered (hordered : ordered.map Delivery.index = List.range' first n) :
    Violation.collect ((s.takeAll codec stream ordered).2.map Prod.fst) =
      (consumeAll s.receiver.assembly (Unbounded.batch stream first n)).2 := by
  have hin : Unbounded.Inside first n (ordered.map Delivery.index) := by
    intro i hi
    rwa [hordered, List.mem_range'_1] at hi
  have hcollect := Unbounded.collect_takeAll_inOrder s.config.windowSize.toNat stream
    (r := s.unwrapped stream first) rfl n
  rw [count_unwrapped, ← hordered] at hcollect
  rw [(h.takeAll_inside codec hin).2, hcollect]
  rfl

variable {final : Option Fragment.Assembly}
  (hwhole : consumeAll s.receiver.assembly (Unbounded.batch stream first n) = (final, .ok messages))
  (hbatch : ∀ i, i ∈ deliveries.map Delivery.index ↔ first ≤ i ∧ i < first + n)

include hwhole hbatch

/-- A batch that can be read is returned and leaves the same receiver, whatever the order of its packets. -/
theorem Awaits.takeAll_batch :
    Violation.collect ((s.takeAll codec stream deliveries).2.map Prod.fst) = .ok messages ∧
      (s.takeAll codec stream deliveries).1.receiver =
        { next := UInt16.ofNat (first + n), held := [], assembly := final } := by
  obtain ⟨hreceiver, hresults⟩ := h.takeAll_inside codec fun i hi => (hbatch i).1 hi
  obtain ⟨hcollect, hcount, hheld, hassembly⟩ := Unbounded.takeAll_batch hwhole h.room h.window hbatch
  refine ⟨hresults ▸ hcollect, ?_⟩
  rw [hreceiver]
  simp only [unwrapped, Unbounded.wrap, hcount, hheld, hassembly]
  rfl

/-- The last call that moves the expected number on acknowledges the whole batch, and those behind it do it again. -/
theorem Awaits.exists_last_advance (hpos : 0 < n) :
    ∃ front d back, deliveries = front ++ d :: back ∧
      let last := (s.takeAll codec stream front).1.handle codec d.now d.seed
        ((stream d.index).packet (UInt16.ofNat d.index))
      let acknowledged := [noticed (Opcode.acknowledge, first + n - 1)]
      last.advanced = true ∧ last.sent = acknowledged ∧
        last.session.receiver = (s.takeAll codec stream deliveries).1.receiver ∧
        (last.session.takeAll codec stream back).2 = back.map fun _ => (.ok [], acknowledged) := by
  have hs := settled_unwrapped stream first n s
  have hreads := readsFrom_unwrapped stream first s
  have hin : Unbounded.Inside first n (deliveries.map Delivery.index) := fun i hi => (hbatch i).1 hi
  have hlt : (s.unwrapped stream first).count < first + n := by
    rw [count_unwrapped]
    omega
  have hend := (Unbounded.takeAll_batch hwhole h.room h.window hbatch).2.1
  obtain ⟨frontIndices, index, backIndices, hsplit, hadvanced, hnotices, hlate⟩ :=
    Unbounded.exists_last_advance hreads hs hwhole h.reach hin hlt hend
  obtain ⟨front, rest, rfl, rfl, hrest⟩ := List.map_eq_append_iff.1 hsplit
  obtain ⟨d, back, rfl, rfl, rfl⟩ := List.map_eq_cons_iff.1 hrest
  have hfront : Unbounded.Inside first n (front.map Delivery.index) := fun i hi =>
    hin i (by rw [hsplit]; exact List.mem_append_left _ hi)
  have hback : Unbounded.Inside first n (back.map Delivery.index) := fun i hi =>
    hin i (by rw [hsplit]; exact List.mem_append_right _ (List.mem_cons_of_mem _ hi))
  obtain ⟨hlow, hhigh⟩ := hin d.index (by rw [hsplit]; simp)
  obtain ⟨hplain, hconfig⟩ := h.toPlain.session_takeAll codec stream front
  obtain ⟨hsettled, ⟨_, -, hread⟩, -, -⟩ := hreads.takeAll hs hwhole h.room h.window hfront
  obtain ⟨⟨hplain', hconfig', hreceiver'⟩, hadvances, hsent, hsettled', hle'⟩ :=
    hplain.handle_inside (h.takeAll_inside codec hfront).1 hsettled hread.le_count h.reach codec hlow hhigh
  rw [hconfig] at hconfig' hreceiver' hadvances hsent hsettled' hle'
  obtain ⟨hlast, hout⟩ := hplain'.takeAll_inside hreceiver' hsettled' hle' h.reach codec hback
  rw [hconfig', hlate] at hlast hout
  refine ⟨front, d, back, rfl, hadvances.trans hadvanced, ?_, ?_, ?_⟩
  · rw [hsent, hnotices]
    rfl
  · rw [takeAll_append]
    exact hreceiver'.trans hlast.symm
  · rw [hout, List.map_map, List.map_map]
    rfl

end Batch

/-- A session that holds nothing takes as many packets as its window has places, from the expected one on, in any order
and each of them any number of times. It returns the messages that it returns in their order, and it is left with the
same expected number, nothing held and the same assembly. The last call that moves the expected number on sends one
acknowledgement, of the last packet; those behind it send the same again and return nothing. -/
theorem takeAll_any_order (codec : Codec) (h : s.Awaits first n) (hpos : 0 < n)
    (hordered : ordered.map Delivery.index = List.range' first n)
    (hok : Violation.collect ((s.takeAll codec stream ordered).2.map Prod.fst) = .ok messages)
    (hbatch : ∀ i, i ∈ deliveries.map Delivery.index ↔ first ≤ i ∧ i < first + n) :
    let run := s.takeAll codec stream deliveries
    let acknowledged := [noticed (Opcode.acknowledge, first + n - 1)]
    Violation.collect (run.2.map Prod.fst) = .ok messages ∧
      run.1.receiver = (s.takeAll codec stream ordered).1.receiver ∧
      run.1.receiver.next = UInt16.ofNat (first + n) ∧ run.1.receiver.held = [] ∧
      ∃ front d back, deliveries = front ++ d :: back ∧
        let last := (s.takeAll codec stream front).1.handle codec d.now d.seed
          ((stream d.index).packet (UInt16.ofNat d.index))
        last.advanced = true ∧ last.sent = acknowledged ∧ last.session.receiver = run.1.receiver ∧
          (last.session.takeAll codec stream back).2 = back.map fun _ => (.ok [], acknowledged) := by
  intro run acknowledged
  have hmem : ∀ i, i ∈ ordered.map Delivery.index ↔ first ≤ i ∧ i < first + n := by
    intro i
    rw [hordered, List.mem_range'_1]
  have hwhole : consumeAll s.receiver.assembly (Unbounded.batch stream first n) =
      ((consumeAll s.receiver.assembly (Unbounded.batch stream first n)).1, .ok messages) :=
    Prod.ext rfl (h.collect_takeAll_ordered codec hordered ▸ hok)
  obtain ⟨-, hinOrder⟩ := h.takeAll_batch codec hwhole hmem
  obtain ⟨hcollect, hreceiver⟩ := h.takeAll_batch codec hwhole hbatch
  refine ⟨hcollect, hreceiver.trans hinOrder.symm, ?_, ?_, h.exists_last_advance codec hwhole hbatch hpos⟩
  · exact congrArg Receiver.next hreceiver
  · exact congrArg Receiver.held hreceiver

/-- Three packets around the end of the sequence numbers, the last of them first and all but one twice; behind the
message of the first, the other two are the halves of one. -/
theorem takeAll_any_order_wrapped :
    let s : Session := { create ⟨.v4 127 0 0 1, 20260⟩ {} 0 with receiver := { next := 65534 } }
    let stream : Nat → Item := fun i =>
      if i = 65534 then ⟨.data, [9, 9]⟩ else if i = 65535 then ⟨.fragment, [0, 0, 0, 2, 7]⟩ else ⟨.fragment, [8]⟩
    let deliveries : List Delivery := [⟨0, 0, 65536⟩, ⟨1, 0, 65534⟩, ⟨2, 0, 65536⟩, ⟨3, 0, 65535⟩, ⟨4, 0, 65534⟩]
    let codec : Codec := ⟨fun _ => none, fun _ _ => none⟩
    s.Awaits 65534 3 ∧ (∀ i, i ∈ deliveries.map Delivery.index ↔ 65534 ≤ i ∧ i < 65534 + 3) ∧
      Violation.collect ((s.takeAll codec stream deliveries).2.map Prod.fst) = .ok [[9, 9], [7, 8]] ∧
      (s.takeAll codec stream deliveries).1.receiver.next = 1 ∧
      (s.takeAll codec stream deliveries).1.receiver.held = [] := by
  intro s stream deliveries codec
  have hawaits : s.Awaits 65534 3 :=
    { isOpen := rfl, passes := rfl, next := rfl, held := rfl, room := by decide, window := by decide }
  have hordered : ([⟨0, 0, 65534⟩, ⟨0, 0, 65535⟩, ⟨0, 0, 65536⟩] : List Delivery).map Delivery.index =
      List.range' 65534 3 := rfl
  have hread : (consumeAll s.receiver.assembly (Unbounded.batch stream 65534 3)).2 = .ok [[9, 9], [7, 8]] := by cbv
  have hok := (hawaits.collect_takeAll_ordered codec hordered).trans hread
  have hbatch : ∀ i, i ∈ deliveries.map Delivery.index ↔ 65534 ≤ i ∧ i < 65534 + 3 := by
    intro i
    simp only [deliveries, List.map_cons, List.map_nil, List.mem_cons, List.not_mem_nil, or_false]
    omega
  have hwrapped : UInt16.ofNat (65534 + 3) = 1 := by decide
  obtain ⟨hcollect, -, hnext, hheld, -⟩ := takeAll_any_order codec hawaits (by decide) hordered hok hbatch
  rw [hwrapped] at hnext
  exact ⟨hawaits, hbatch, hcollect, hnext, hheld⟩

end Session

end GameGateway
