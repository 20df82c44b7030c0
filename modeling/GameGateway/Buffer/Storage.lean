import GameGateway.Buffer
import GameGateway.Packet.Record

/-!
# Storage with a cursor

A buffer keeps everything that was written to it in one piece of storage, and beside it a cursor that stands behind what
was read. Writes go to the end of the storage, reads move the cursor. To append what another buffer has left, a buffer
takes the other's storage over if nothing was ever written to its own; else it puts the other's bytes behind its own and
keeps the part that was read.

## Implementation notes

A read that takes several parts moves the cursor part by part, so a failure in the middle leaves it behind the parts
that were there. Readers get at the bytes through `Reader.take` and `Reader.remaining` only.
-/

namespace GameGateway

/-- Bytes with a cursor. -/
structure Storage where
  /-- All bytes ever written. -/
  written : Bytes
  /-- How many of them were read. -/
  readPosition : Nat
  deriving DecidableEq, Repr

namespace Storage

/-- Storage to which nothing was written. -/
def empty : Storage := ⟨[], 0⟩

/-- Storage of unread bytes. -/
def ofBytes (bytes : Bytes) : Storage := ⟨bytes, 0⟩

/-- How many bytes were written. -/
def writePosition (s : Storage) : Nat := s.written.length

/-- How many bytes are unread. -/
def size (s : Storage) : Nat := s.writePosition - s.readPosition

/-- Whether everything was read. -/
def isEmpty (s : Storage) : Bool := s.size == 0

/-- The bytes before the cursor. -/
def consumed (s : Storage) : Bytes := s.written.take s.readPosition

/-- The bytes behind the cursor. -/
def unread (s : Storage) : Bytes := s.written.drop s.readPosition

/-- Writes bytes at the end. -/
def write (s : Storage) (bytes : Bytes) : Storage := { s with written := s.written ++ bytes }

/-- Takes over what other storage has left unread. -/
def append (s other : Storage) : Storage :=
  if s.written.isEmpty then ⟨other.unread, 0⟩ else s.write other.unread

/-- Reads a fixed-width value in network order and leaves the cursor where it is. -/
def peek (α : Type) [Fixed α] (s : Storage) : Except ReadError α :=
  if s.size < Fixed.width α then .error (.underflow (Fixed.width α) s.size)
  else .ok (Fixed.decode α .big (s.unread.take (Fixed.width α)))

/-- The buffer that is stored. -/
def buffer (s : Storage) : Buffer := ⟨s.consumed, s.unread⟩

/-- The stored buffer in one line. -/
def describe (s : Storage) : String := s.buffer.describe

end Storage

/-- A read through the cursor. It answers a value or the reason why there is none, and may have moved the cursor in both
cases. -/
def Reader (α : Type) : Type := ExceptT ReadError (StateM Storage) α

namespace Reader

variable {α β : Type}

instance : Monad Reader := inferInstanceAs (Monad (ExceptT ReadError (StateM Storage)))

instance : LawfulMonad Reader := inferInstanceAs (LawfulMonad (ExceptT ReadError (StateM Storage)))

instance : MonadStateOf Storage Reader := inferInstanceAs (MonadStateOf Storage (ExceptT ReadError (StateM Storage)))

instance : MonadExceptOf ReadError Reader :=
  inferInstanceAs (MonadExceptOf ReadError (ExceptT ReadError (StateM Storage)))

/-- The outcome of a read, with the storage behind it. -/
def run (r : Reader α) (s : Storage) : Except ReadError α × Storage := Id.run (StateT.run (ExceptT.run r) s)

/-- Moves the cursor over `n` bytes; leaves it where it is if there are fewer. -/
def take (n : Nat) : Reader Bytes := do
  let s ← get
  if s.size < n then throw (.underflow n s.size)
  else
    set { s with readPosition := s.readPosition + n }
    return s.unread.take n

/-- Passes over `n` bytes. -/
def skip (n : Nat) : Reader Unit := (fun _ => ()) <$> take n

/-- Takes all that is left. -/
def remaining : Reader Bytes := do
  let s ← get
  set { s with readPosition := s.writePosition }
  return s.unread

/-- Reads a fixed-width value. -/
def fixed (α : Type) [Fixed α] (order : ByteOrder) : Reader α := Fixed.decode α order <$> take (Fixed.width α)

/-- Reads a narrow text: a count of bytes, then UTF-8. -/
def narrow : Reader String := do
  let count ← fixed UInt16 .little
  let body ← take count.toNat
  match Utf8.decode? body with
  | some text => return text
  | none => throw (.invalidText count.toNat)

/-- Reads a wide text: a count of code units, then UTF-16. -/
def wide : Reader String := do
  let count ← fixed UInt32 .little
  let body ← take (count.toNat * 2)
  match Utf16.decode? (Text.units body) with
  | some text => return String.ofList text
  | none => throw (.invalidWideText count.toNat)

/-- Reads the operand count and the opcode of a message. -/
def header : Reader (UInt16 × UInt32) := do
  let count ← fixed UInt16 .little
  let opcode ← fixed UInt32 .little
  return (count, opcode)

/-- Reads a size; the three-byte form is taken for small sizes too. -/
def sizePrefix : Reader Nat := do
  let short ← fixed UInt8 .little
  if short.toNat = SizePrefix.sentinel then
    let long ← fixed UInt16 .big
    return long.toNat
  else return short.toNat

@[simp] theorem run_pure (a : α) (s : Storage) : (pure a : Reader α).run s = (.ok a, s) := rfl

@[simp] theorem run_throw (e : ReadError) (s : Storage) : (throw e : Reader α).run s = (.error e, s) := rfl

theorem run_bind (r : Reader α) (f : α → Reader β) (s : Storage) :
    (r >>= f).run s =
      match r.run s with
      | (.ok a, s') => (f a).run s'
      | (.error e, s') => (.error e, s') := by
  change Id.run (StateT.run (ExceptT.run r >>= ExceptT.bindCont f) s) = _
  rw [StateT.run_bind]
  change (match r.run s with | (result, s') => Id.run (StateT.run (ExceptT.bindCont f result) s')) = _
  rcases r.run s with ⟨_ | _, _⟩ <;> rfl

theorem run_bind_ok {r : Reader α} {f : α → Reader β} {s s' : Storage} {a : α} (h : r.run s = (.ok a, s')) :
    (r >>= f).run s = (f a).run s' := by
  rw [run_bind, h]

theorem run_bind_error {r : Reader α} {f : α → Reader β} {s s' : Storage} {e : ReadError}
    (h : r.run s = (.error e, s')) : (r >>= f).run s = (.error e, s') := by
  rw [run_bind, h]

theorem run_take (n : Nat) (s : Storage) :
    (take n).run s =
      if s.size < n then (.error (.underflow n s.size), s)
      else (.ok (s.unread.take n), { s with readPosition := s.readPosition + n }) := by
  have hget : (get : Reader Storage).run s = (.ok s, s) := rfl
  rw [take, run_bind_ok hget]
  split
  · rfl
  · rfl

theorem run_remaining (s : Storage) :
    remaining.run s = (.ok s.unread, { s with readPosition := s.writePosition }) := rfl

end Reader

end GameGateway
