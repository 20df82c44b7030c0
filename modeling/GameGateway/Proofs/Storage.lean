import GameGateway.Proofs.Cursor

/-!
# Buffers are queues of bytes

Buffers are created, copied, written to, read from and appended to each other in any order (`Storage.Pool.run`), and
the history of each records what it was given and what its reads took. At every moment what was taken, followed by what
is unread, is what was given: `Storage.Pool.first_in_first_out`, which also says what the next append and the next read
come to.

## Implementation notes

The record looks at the storage for one thing only, the bytes that a read moves the cursor over. What an append gives
is taken from the other buffer's record.
-/

namespace GameGateway.Storage

/-- What can be written. -/
inductive Writing where
  | value (entry : Buffer.Entry)
  | bytes (bytes : Bytes)
  | sizePrefix (size : Nat)

/-- The bytes that are written, or why nothing is. -/
def Writing.form : Writing → Except FramingError Bytes
  | .value entry => .ok (entry.1.encode entry.2)
  | .bytes plain => .ok plain
  | .sizePrefix size => SizePrefix.encode size

/-! ## Histories -/

/-- A buffer and what came of it. -/
structure History where
  storage : Storage := .empty
  /-- The bytes that were written or appended. -/
  given : Bytes := []
  /-- The bytes that were read. -/
  taken : Bytes := []

namespace History

/-- Some bytes are written. -/
def write (h : History) (bytes : Bytes) : History :=
  { h with storage := h.storage.write bytes, given := h.given ++ bytes }

/-- What another buffer was given and has not lost again is appended. -/
def append (h other : History) : History :=
  { h with
    storage := h.storage.append other.storage
    given := h.given ++ other.given.drop other.taken.length }

/-- The bytes that the cursor moves over are taken. -/
def read (h : History) (what : Reading) : History :=
  let after := (what.run h.storage).2
  { h with
    storage := after
    taken := h.taken ++ h.storage.unread.take (after.readPosition - h.storage.readPosition) }

/-- The storage holds what was given, and its cursor stands behind what was taken. -/
structure Balanced (h : History) : Prop where
  inBounds : h.storage.InBounds
  given : h.given = h.storage.written
  taken : h.taken = h.storage.consumed

variable {h other : History}

theorem balanced_ofBytes (bytes : Bytes) : Balanced { storage := .ofBytes bytes, given := bytes } :=
  ⟨Nat.zero_le _, rfl, rfl⟩

theorem balanced_new : Balanced {} := balanced_ofBytes []

theorem Balanced.length_taken (hb : h.Balanced) : h.taken.length = h.storage.readPosition := by
  rw [hb.taken, hb.inBounds.length_consumed]

theorem Balanced.taken_append_unread (hb : h.Balanced) : h.taken ++ h.storage.unread = h.given := by
  rw [hb.taken, hb.given, consumed_append_unread]

theorem Balanced.write (hb : h.Balanced) (bytes : Bytes) : (h.write bytes).Balanced where
  inBounds := hb.inBounds.write bytes
  given := congrArg (· ++ bytes) hb.given
  taken := hb.taken.trans (consumed_write hb.inBounds bytes).symm

theorem Balanced.append (hb : h.Balanced) (hother : other.Balanced) : (h.append other).Balanced := by
  have hrest : other.given.drop other.taken.length = other.storage.unread := by
    calc
      other.given.drop other.taken.length = other.storage.written.drop other.storage.readPosition := by
        rw [hother.length_taken, hother.given]
      _ = other.storage.unread := rfl
  have hwrite : h.append other = h.write other.storage.unread := by
    rw [History.append, hrest, append_eq_write hb.inBounds]
    rfl
  rw [hwrite]
  exact hb.write _

theorem Balanced.read (hb : h.Balanced) (what : Reading) : (h.read what).Balanced := by
  obtain ⟨bytes, hpasses⟩ := what.exists_passes_run hb.inBounds
  have hmoved : (what.run h.storage).2.readPosition - h.storage.readPosition = bytes.length := by
    rw [hpasses.readPosition_eq, Nat.add_sub_cancel_left]
  have hbytes : h.storage.unread.take bytes.length = bytes := (List.prefix_iff_eq_take.1 hpasses.front).symm
  refine ⟨hpasses.inBounds hb.inBounds, ?_, ?_⟩
  · rw [History.read, hpasses.moved]
    exact hb.given
  · rw [History.read, hmoved, hbytes, hpasses.consumed_eq, hb.taken]

end History

/-! ## Many buffers -/

/-- What can be done to a buffer, with the numbers of other buffers that take part. -/
inductive Event where
  /-- A new buffer takes its place, with bytes to be read. -/
  | create (bytes : Bytes)
  /-- A copy of another buffer takes its place. -/
  | copy (source : Nat)
  | write (what : Writing)
  /-- What another buffer has left is appended; a new buffer takes the other's place. -/
  | append (source : Nat)
  | read (what : Reading)
  | peek (type : ScalarType)

/-- Numbered buffers with their histories. -/
abbrev Pool : Type := Nat → History

namespace Pool

/-- The buffers after something was done to one of them. -/
def step (pool : Pool) (target : Nat) : Event → Pool
  | .create bytes => Function.update pool target { storage := .ofBytes bytes, given := bytes }
  | .copy source => Function.update pool target (pool source)
  | .write what =>
    match what.form with
    | .ok bytes => Function.update pool target ((pool target).write bytes)
    | .error _ => pool
  | .append source =>
    let rest := Function.update pool source {}
    Function.update rest target ((rest target).append (pool source))
  | .read what => Function.update pool target ((pool target).read what)
  | .peek _ => pool

/-- New buffers. -/
def new : Pool := fun _ => {}

/-- The buffers after all this was done, each to the buffer of that number. -/
def run (pool : Pool) (events : List (Nat × Event)) : Pool :=
  events.foldl (fun pool event => pool.step event.1 event.2) pool

variable {pool : Pool}

theorem forall_update {P : History → Prop} (hall : ∀ i, P (pool i)) (target : Nat) {h : History} (hP : P h) :
    ∀ i, P (Function.update pool target h i) := by
  intro i
  rw [Function.update_apply]
  split
  · exact hP
  · exact hall i

theorem balanced_step (hall : ∀ i, (pool i).Balanced) (target : Nat) (event : Event) :
    ∀ i, (pool.step target event i).Balanced := by
  cases event with
  | create bytes => exact forall_update hall target (History.balanced_ofBytes bytes)
  | copy source => exact forall_update hall target (hall source)
  | write what =>
    cases hform : what.form with
    | ok bytes =>
      simp only [step, hform]
      exact forall_update hall target ((hall target).write bytes)
    | error e =>
      simp only [step, hform]
      exact hall
  | append source =>
    have hrest := forall_update hall source History.balanced_new
    exact forall_update hrest target ((hrest target).append (hall source))
  | read what => exact forall_update hall target ((hall target).read what)
  | peek type => exact hall

theorem balanced_run (hall : ∀ i, (pool i).Balanced) (events : List (Nat × Event)) :
    ∀ i, (pool.run events i).Balanced := by
  induction events generalizing pool with
  | nil => exact hall
  | cons event events ih => exact ih (balanced_step hall event.1 event.2)

/-- Whatever was done to the buffers, the cursor of each stands behind what was taken from it and in front of the rest
of what it was given. Appending to it adds what the other buffer has left, a peek answers what a read would, and a read
comes to what its parts say or stops at the first part that is not there in full, having consumed the parts before it. A
read of one part, if it fails, consumes nothing. -/
theorem first_in_first_out (events : List (Nat × Event)) (target : Nat) :
    let h := new.run events target
    let s := h.storage
    (s.readPosition ≤ s.writePosition ∧ h.taken.length = s.readPosition ∧ h.taken ++ s.unread = h.given) ∧
      (∀ other : Storage,
        (s.append other).consumed = s.consumed ∧ (s.append other).unread = s.unread ++ other.unread) ∧
      (∀ type : ScalarType, s.peek type.Value = ((Reading.value (.scalar type .big)).run s).1) ∧
      (∀ (what : Reading) result s', what.run s = (result, s') ↔ what.Outcome s result s') ∧
      ∀ (what : Reading) e s', what.isComposite = false →
        (what.run s = (.error e, s') ↔
          s' = s ∧ ∃ n, what.next? s.size [] = some n ∧ s.size < n ∧ e = .underflow n s.size) := by
  intro h s
  have hbalanced : h.Balanced := balanced_run (fun _ => History.balanced_new) events target
  have hs : s.InBounds := hbalanced.inBounds
  refine ⟨⟨hs, hbalanced.length_taken, hbalanced.taken_append_unread⟩, fun other => ?_, fun type => ?_,
    fun what result s' => what.run_eq_iff hs, fun what e s' hsimple => ?_⟩
  · rw [append_eq_write hs, consumed_write hs, unread_write hs]
    exact ⟨rfl, rfl⟩
  · exact Reading.peek_eq type s
  · rw [what.run_eq_iff hs, Reading.outcome_error_iff hsimple]

/-- A buffer of one byte takes what another has left behind its first byte; the count of a header is there then, and
the opcode is not. -/
example :
    let pool := new.run [(0, .write (.bytes [1])), (1, .create [0xAA, 0xBB, 0xCC]), (1, .read (.skip 1)),
      (0, .append 1), (0, .read .header)]
    (pool 0).storage = ⟨[1, 0xBB, 0xCC], 2⟩ ∧ (pool 0).taken = [1, 0xBB] ∧
      Reading.header.run ⟨[1, 0xBB, 0xCC], 0⟩ = (.error (.underflow 4 1), ⟨[1, 0xBB, 0xCC], 2⟩) := by
  decide +kernel

end Pool

end GameGateway.Storage
