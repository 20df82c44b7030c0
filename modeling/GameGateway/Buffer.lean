import GameGateway.Bytes.Hex
import GameGateway.Text

/-!
# Buffers with a read cursor

A buffer is what has been read and what is still unread. Writes go to the end of the unread part,
reads move bytes from its front to the part already read, so `consumed ++ unread` is always what was
written.

## Implementation notes

Reads are the decoders of `GameGateway.Decoder`; a buffer only keeps count of what they consumed. The
same decoders serve packets and messages, which need no cursor.
`GameGateway.Buffer.Storage` keeps a buffer in one piece.
-/

namespace GameGateway

/-- A byte queue that remembers what was read from it. -/
structure Buffer where
  /-- The bytes read so far. -/
  consumed : Bytes
  /-- The bytes still to be read. -/
  unread : Bytes
  deriving DecidableEq, Repr

namespace Buffer

/-- The buffer into which nothing was written. -/
def empty : Buffer := ⟨[], []⟩

/-- A buffer of unread bytes. -/
def ofBytes (bytes : Bytes) : Buffer := ⟨[], bytes⟩

/-- All bytes ever written. -/
def written (b : Buffer) : Bytes := b.consumed ++ b.unread

/-- How many bytes were read. -/
def readPosition (b : Buffer) : Nat := b.consumed.length

/-- How many bytes were written. -/
def writePosition (b : Buffer) : Nat := b.written.length

/-- How many bytes are unread. -/
def size (b : Buffer) : Nat := b.unread.length

/-- Whether everything was read. -/
def isEmpty (b : Buffer) : Bool := b.unread.isEmpty

/-- Writes bytes at the end. -/
def write (b : Buffer) (bytes : Bytes) : Buffer := { b with unread := b.unread ++ bytes }

/-- Writes what another buffer has left unread. -/
def append (b other : Buffer) : Buffer := b.write other.unread

/-- Runs a decoder on the unread part; what it consumes counts as read, also when it fails. -/
def read {α : Type} (b : Buffer) (d : Decoder α) : Except ReadError α × Buffer :=
  let (result, rest) := d.run b.unread
  (result, ⟨b.consumed ++ b.unread.take (b.unread.length - rest.length), rest⟩)

/-- A buffer in one line. -/
def describe (b : Buffer) : String :=
  "ByteBuffer \x7b read_position: " ++ toString b.readPosition ++ ", unread: \"" ++
    Bytes.hex b.unread ++ "\" \x7d"

@[simp] theorem written_empty : empty.written = [] := rfl

@[simp] theorem written_ofBytes (bytes : Bytes) : (ofBytes bytes).written = bytes := rfl

@[simp] theorem written_write (b : Buffer) (bytes : Bytes) :
    (b.write bytes).written = b.written ++ bytes := by
  simp [written, write]

@[simp] theorem written_append (b other : Buffer) :
    (b.append other).written = b.written ++ other.unread := by
  simp [append]

end Buffer

end GameGateway
