import GameGateway.Proofs.Unbounded

/-!
# Sequence numbers that wrap around

While no number in use is further than half the circle from the expected one, a receiver does with numbers
modulo `2 ^ 16` exactly what one does that counts without bound: `Receiver.Unbounded.arrive_wrap`.
-/

namespace GameGateway

namespace Sequence

/-- Numbers less than a circle apart do not share a sequence number. -/
theorem ofNat_inj_of_near {a b : Nat} (hlow : a < b + 65536) (hhigh : b < a + 65536) :
    UInt16.ofNat a = UInt16.ofNat b ↔ a = b := by
  constructor
  · intro h
    have hmod : a % 65536 = b % 65536 := by
      have := congrArg UInt16.toNat h
      simpa using this
    omega
  · exact congrArg UInt16.ofNat

/-- Within half a circle, the distance of sequence numbers is that of the numbers. -/
theorem distance_ofNat {a b : Nat} (hlow : a ≤ b + 32768) (hhigh : b ≤ a + 32767) :
    distance (UInt16.ofNat a) (UInt16.ofNat b) = (b : Int) - a := by
  have hahead : (UInt16.ofNat b - UInt16.ofNat a).toNat = (65536 - a % 65536 + b % 65536) % 65536 := by
    simp [UInt16.toNat_sub]
  simp only [distance, hahead]
  split <;> omega

theorem ofNat_sub_one {n : Nat} (h : 0 < n) : UInt16.ofNat n - 1 = UInt16.ofNat (n - 1) := by
  obtain ⟨m, rfl⟩ : ∃ m, n = m + 1 := ⟨n - 1, by omega⟩
  rw [UInt16.ofNat_add, Nat.add_sub_cancel]
  exact UInt16.add_sub_cancel ..

end Sequence

namespace Receiver

section Wrap

variable {held : List (Nat × Item)} {k : Nat}

/-- Held items under their sequence numbers. -/
def wrapHeld (held : List (Nat × Item)) : List (UInt16 × Item) :=
  held.map fun entry => (UInt16.ofNat entry.1, entry.2)

/-- No held item shares its sequence number with another number. -/
def Apart (k : Nat) (held : List (Nat × Item)) : Prop :=
  ∀ entry ∈ held, UInt16.ofNat k = UInt16.ofNat entry.1 ↔ k = entry.1

theorem Apart.beq (h : Apart k held) {entry : Nat × Item} (he : entry ∈ held) :
    (UInt16.ofNat k == UInt16.ofNat entry.1) = (k == entry.1) := by
  rw [Bool.eq_iff_iff, beq_iff_eq, beq_iff_eq]
  exact h entry he

theorem lookup_wrapHeld (h : Apart k held) :
    (wrapHeld held).lookup (UInt16.ofNat k) = held.lookup k := by
  induction held with
  | nil => rfl
  | cons entry held ih =>
    have hfirst := h.beq (List.mem_cons_self ..)
    have hrest := ih fun e he => h e (List.mem_cons_of_mem _ he)
    rw [List.lookup_cons, ← hrest, ← hfirst]
    exact List.lookup_cons

theorem release_wrapHeld (h : Apart k held) :
    release (UInt16.ofNat k) (wrapHeld held) = wrapHeld (release k held) := by
  rw [release, wrapHeld, List.filter_map]
  apply congrArg
  apply List.filter_congr
  intro entry he
  rw [Function.comp_apply, bne_comm, bne, h.beq he, bne_comm]
  rfl

theorem hold_wrapHeld (h : Apart k held) (item : Item) :
    hold (UInt16.ofNat k) item (wrapHeld held) = wrapHeld (hold k item held) := by
  rw [hold, release_wrapHeld h]
  rfl

end Wrap

/-! ## The steps of a drain -/

theorem drain_of_missing {r : Receiver} (missing : r.held.lookup r.next = none) :
    drain r = (r, .ok []) := by
  unfold drain
  split
  · rfl
  · rename_i item hsome
    rw [missing] at hsome
    cases hsome

section Drain

variable {r r' : Receiver} {item : Item} {messages : List Bytes} {v : Violation}

theorem drain_of_violation (expected : r.held.lookup r.next = some item)
    (processed : process item { r with held := release r.next r.held } = (r', .error v)) :
    drain r = (r', .error v) := by
  unfold drain
  split
  · rename_i hnone
    rw [expected] at hnone
    cases hnone
  · rename_i item' hsome
    rw [expected] at hsome
    cases hsome
    simp only [processed]

theorem drain_of_next (expected : r.held.lookup r.next = some item)
    (processed : process item { r with held := release r.next r.held } = (r', .ok messages)) :
    drain r =
      ((drain { r' with next := r.next + 1 }).1,
        (drain { r' with next := r.next + 1 }).2.map (messages ++ ·)) := by
  rw [drain.eq_def r]
  split
  · rename_i hnone
    rw [expected] at hnone
    cases hnone
  · rename_i item' hsome
    rw [expected] at hsome
    cases hsome
    simp only [processed]

end Drain

namespace Unbounded

/-- The receiver with sequence numbers. -/
def wrap (r : Unbounded) : Receiver :=
  { next := UInt16.ofNat r.count, held := wrapHeld r.held, assembly := r.assembly }

/-- What an item does, with sequence numbers. -/
def Arrival.wrap (a : Arrival) : Receiver.Arrival :=
  { receiver := a.receiver.wrap
    result := a.result
    notice := a.notice.map fun notice => (notice.1, UInt16.ofNat notice.2)
    advanced := a.advanced }

variable {source : Nat → Item → Prop} {r r' : Unbounded} {index : Nat} {item : Item}
  {result : Except Violation (List Bytes)} {messages : List Bytes} {v : Violation}

/-- Every number within half a circle of the expected one is apart from the held ones. -/
theorem Follows.apart (h : Follows source r) (hlow : r.count ≤ index)
    (hhigh : index ≤ r.count + 32767) : Apart index r.held := by
  intro entry he
  obtain ⟨hfrom, hto⟩ := h.reach entry he
  exact Sequence.ofNat_inj_of_near (by omega) (by omega)

theorem Follows.apart_count (h : Follows source r) : Apart r.count r.held :=
  h.apart (Nat.le_refl _) (Nat.le_add_right _ _)

theorem wrap_succ (h : r'.count = r.count + 1) : { r'.wrap with next := r.wrap.next + 1 } = r'.wrap := by
  have hnext : r.wrap.next + 1 = UInt16.ofNat r'.count := by
    rw [h, UInt16.ofNat_add]
    rfl
  rw [hnext]
  rfl

/-- Processing commutes with wrapping; the expected number moves on in the caller of `Receiver.process`. -/
theorem process_wrap (hp : process item r = (r', .ok messages)) :
    Receiver.process item r.wrap = ({ r'.wrap with next := UInt16.ofNat r.count }, .ok messages) := by
  obtain ⟨assembly, hitem, rfl⟩ := process_eq_ok_iff.1 hp
  rw [process_eq]
  simp only [wrap, hitem]

theorem process_wrap_error (hp : process item r = (r', .error v)) :
    Receiver.process item r.wrap = (r'.wrap, .error v) := by
  obtain ⟨assembly, hitem, rfl⟩ := process_eq_error_iff.1 hp
  rw [process_eq]
  simp only [wrap, hitem]
  rfl

theorem wrap_released (h : Follows source r) :
    r.released.wrap = { r.wrap with held := release r.wrap.next r.wrap.held } := by
  have hheld := release_wrapHeld h.apart_count
  simp only [wrap, hheld]
  rfl

/-- A drain commutes with wrapping. -/
theorem Drains.wrap (hd : Drains r r' result) (h : Follows source r) :
    Receiver.drain r.wrap = (r'.wrap, result) := by
  induction hd with
  | @done r missing =>
    apply drain_of_missing
    rw [← missing]
    exact lookup_wrapHeld h.apart_count
  | @violation r r' item v expected processed =>
    have hlookup : r.wrap.held.lookup r.wrap.next = some item := by
      rw [← expected]
      exact lookup_wrapHeld h.apart_count
    apply drain_of_violation hlookup
    rw [← wrap_released h]
    exact process_wrap_error processed
  | @next r r' r'' item first result expected processed rest ih =>
    have hlookup : r.wrap.held.lookup r.wrap.next = some item := by
      rw [← expected]
      exact lookup_wrapHeld h.apart_count
    have hprocessed := process_wrap processed
    rw [wrap_released h] at hprocessed
    have hcount : r'.count = r.released.count + 1 := count_process processed
    have hnext : { r'.wrap with next := r.wrap.next + 1 } = r'.wrap := wrap_succ hcount
    have hdrain := ih (h.released.process (h.held _ (mem_of_lookup expected)) processed)
    rw [drain_of_next hlookup hprocessed]
    simp only [hnext, hdrain]

/-- The wrapping receiver does with an item within reach what the unbounded one does. -/
theorem arrive_wrap (h : Settled source r) (hitem : source index item) (window : UInt16)
    (hlow : r.count ≤ index + 32768) (hhigh : index ≤ r.count + 32767) :
    Receiver.arrive window (UInt16.ofNat index) item r.wrap =
      (Unbounded.arrive window.toNat index item r).wrap := by
  have hdistance : Sequence.distance r.wrap.next (UInt16.ofNat index) = (index : Int) - r.count :=
    Sequence.distance_ofNat hlow hhigh
  simp only [Receiver.arrive, hdistance, Unbounded.arrive]
  by_cases hlate : index < r.count
  · have hbefore : UInt16.ofNat r.count - 1 = UInt16.ofNat (r.count - 1) :=
      Sequence.ofNat_sub_one (by omega)
    rw [if_pos (by omega), if_pos hlate]
    simp only [Arrival.wrap, wrap, hbefore, Option.map_some]
  rw [if_neg (by omega), if_neg hlate]
  by_cases hearly : r.count < index
  · rw [if_pos (by omega), if_pos hearly]
    have htoNat : ((index : Int) - r.count).toNat = index - r.count := by omega
    rw [htoNat]
    split
    · rfl
    · have hheld := hold_wrapHeld (h.apart (Nat.le_of_lt hearly) hhigh) item
      simp only [Arrival.wrap, wrap, hheld, Option.map_some, count]
  rw [if_neg (by omega), if_neg hearly]
  have hexpected : index = r.count := by omega
  rcases hp : process item r with ⟨r', v | first⟩
  · simp only [process_wrap_error hp]
    rfl
  · have hnext : { r'.wrap with next := r.wrap.next + 1 } = r'.wrap := wrap_succ (count_process hp)
    have hdrain := (drain_drains r').wrap (h.process (hexpected ▸ hitem) hp)
    simp only [process_wrap hp, hnext, hdrain]
    rfl

end Unbounded

end Receiver

end GameGateway
