import GameGateway.Bytes

/-!
# Bit streams

Bytes hold bits from the least significant end. `BitStream.next?` takes one bit, `BitStream.take?` a
number of several bits, least significant first; each says by how much the stream gets shorter, which
is what bounds the loops of a reader.
-/

namespace GameGateway.Deflate

/-- The `width` low bits of a number, least significant first. -/
def bits : Nat → Nat → List Bool
  | 0, _ => []
  | width + 1, n => (n % 2 == 1) :: bits width (n / 2)

/-- The number whose bits are given, least significant first. -/
def number : List Bool → Nat
  | [] => 0
  | bit :: rest => bit.toNat + 2 * number rest

/-- Bits in bytes; the last byte is filled up with zeros. -/
def packBits (l : List Bool) : Bytes :=
  match l with
  | [] => []
  | bit :: rest => UInt8.ofNat (number (bit :: rest.take 7)) :: packBits (rest.drop 7)
termination_by l.length
decreasing_by simp only [List.length_cons, List.length_drop]; omega

/-- The unread part of a byte string, bit by bit. -/
structure BitStream where
  /-- The unread bits of the byte at hand. -/
  pending : List Bool
  /-- The bytes behind it. -/
  bytes : Bytes

namespace BitStream

/-- How many bits are unread. -/
def size (s : BitStream) : Nat := s.pending.length + 8 * s.bytes.length

/-- The stream at the start of a byte string. -/
def ofBytes (bytes : Bytes) : BitStream := ⟨[], bytes⟩

/-- Takes one bit. -/
def next? (s : BitStream) : Option (Bool × BitStream) :=
  match s.pending, s.bytes with
  | bit :: pending, bytes => some (bit, ⟨pending, bytes⟩)
  | [], byte :: bytes => some (byte.toNat % 2 == 1, ⟨bits 7 (byte.toNat / 2), bytes⟩)
  | [], [] => none

/-- Takes a number of `width` bits. -/
def take? : (width : Nat) → BitStream → Option (Nat × BitStream)
  | 0, s => some (0, s)
  | width + 1, s =>
    match s.next? with
    | some (bit, s) => (take? width s).map fun (n, s) => (bit.toNat + 2 * n, s)
    | none => none

theorem length_bits (width n : Nat) : (bits width n).length = width := by
  induction width generalizing n with
  | zero => rfl
  | succ width ih => simp [bits, ih]

theorem size_next? {s t : BitStream} {bit : Bool} (h : s.next? = some (bit, t)) :
    t.size + 1 = s.size := by
  obtain ⟨pending, bytes⟩ := s
  cases pending with
  | cons b rest =>
    simp only [next?, Option.some.injEq, Prod.mk.injEq] at h
    rw [← h.2]
    simp only [size, List.length_cons]
    omega
  | nil =>
    cases bytes with
    | nil => simp [next?] at h
    | cons b rest =>
      simp only [next?, Option.some.injEq, Prod.mk.injEq] at h
      rw [← h.2]
      simp only [size, length_bits, List.length_cons, List.length_nil]
      omega

theorem size_take? {width n : Nat} {s t : BitStream} (h : take? width s = some (n, t)) :
    t.size + width = s.size := by
  induction width generalizing n s with
  | zero =>
    simp only [take?, Option.some.injEq, Prod.mk.injEq] at h
    rw [h.2]
    rfl
  | succ width ih =>
    rw [take?] at h
    split at h
    · rename_i bit u hu
      obtain ⟨⟨m, v⟩, hv, hmap⟩ := Option.map_eq_some_iff.1 h
      have hs := size_next? hu
      simp only [Prod.mk.injEq] at hmap
      obtain ⟨-, rfl⟩ := hmap
      have ht := ih hv
      omega
    · cases h

end BitStream

end GameGateway.Deflate
