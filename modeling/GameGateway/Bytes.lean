/-!
# Byte strings and fixed-width words

A byte string is a list of bytes. A word of `width` bytes is laid out in little-endian or big-endian
order; reading back what was laid out gives the word again, and every string of `width` bytes is the
layout of exactly one word below `Bytes.words width`.

## Implementation notes

Layouts are defined on natural numbers once. The class `Fixed` ties a type of words to its numbers, so
that unsigned, signed and bit-pattern types share one codec and one pair of laws.
-/

namespace GameGateway

/-- A byte string. -/
abbrev Bytes := List UInt8

/-- The order in which the bytes of a word are laid out. -/
inductive ByteOrder where
  /-- Least significant byte first. -/
  | little
  /-- Most significant byte first, the order of protocol headers. -/
  | big
  deriving DecidableEq, Repr

namespace Bytes

/-- How many words there are of a width in bytes. -/
def words : Nat → Nat
  | 0 => 1
  | width + 1 => 256 * words width

/-- The `width` low bytes of a number, least significant first. -/
def ofNatLE : Nat → Nat → Bytes
  | 0, _ => []
  | width + 1, n => UInt8.ofNat n :: ofNatLE width (n / 256)

/-- The number whose bytes are given, least significant first. -/
def toNatLE : Bytes → Nat
  | [] => 0
  | b :: bs => b.toNat + 256 * toNatLE bs

@[simp] theorem length_ofNatLE (width n : Nat) : (ofNatLE width n).length = width := by
  induction width generalizing n with
  | zero => rfl
  | succ width ih => simp [ofNatLE, ih]

theorem toNatLE_lt (bs : Bytes) : toNatLE bs < words bs.length := by
  induction bs with
  | nil => exact Nat.one_pos
  | cons b bs ih =>
    have hb := b.toNat_lt
    simp only [toNatLE, List.length_cons, words]
    omega

theorem toNatLE_ofNatLE (width n : Nat) : toNatLE (ofNatLE width n) = n % words width := by
  induction width generalizing n with
  | zero => exact (Nat.mod_one n).symm
  | succ width ih =>
    have hb : (UInt8.ofNat n).toNat = n % 256 := UInt8.toNat_ofNat
    rw [ofNatLE, toNatLE, ih, hb, words, Nat.mod_mul]

theorem ofNatLE_toNatLE (bs : Bytes) : ofNatLE bs.length (toNatLE bs) = bs := by
  induction bs with
  | nil => rfl
  | cons b bs ih =>
    have hb := b.toNat_lt
    have hmod : (b.toNat + 256 * toNatLE bs) % 256 = b.toNat := by omega
    have hdiv : (b.toNat + 256 * toNatLE bs) / 256 = toNatLE bs := by omega
    simp only [List.length_cons, ofNatLE, toNatLE, hdiv, ih, List.cons.injEq, and_true]
    apply UInt8.toNat_inj.1
    have hb' : (UInt8.ofNat (b.toNat + 256 * toNatLE bs)).toNat = (b.toNat + 256 * toNatLE bs) % 256 :=
      UInt8.toNat_ofNat
    rw [hb', hmod]

/-- The layout of a number in `width` bytes. -/
def ofNat (order : ByteOrder) (width n : Nat) : Bytes :=
  match order with
  | .little => ofNatLE width n
  | .big => (ofNatLE width n).reverse

/-- The number that a byte string lays out. -/
def toNat (order : ByteOrder) (bs : Bytes) : Nat :=
  match order with
  | .little => toNatLE bs
  | .big => toNatLE bs.reverse

@[simp] theorem length_ofNat (order : ByteOrder) (width n : Nat) :
    (ofNat order width n).length = width := by
  cases order <;> simp [ofNat]

theorem toNat_ofNat (order : ByteOrder) (width n : Nat) :
    toNat order (ofNat order width n) = n % words width := by
  cases order <;> simp [ofNat, toNat, toNatLE_ofNatLE]

theorem ofNat_toNat (order : ByteOrder) (bs : Bytes) :
    ofNat order bs.length (toNat order bs) = bs := by
  cases order
  · exact ofNatLE_toNatLE bs
  · have h := ofNatLE_toNatLE bs.reverse
    rw [List.length_reverse] at h
    simp [ofNat, toNat, h]

theorem toNat_lt (order : ByteOrder) (bs : Bytes) : toNat order bs < words bs.length := by
  cases order
  · exact toNatLE_lt bs
  · have h := toNatLE_lt bs.reverse
    rwa [List.length_reverse] at h

end Bytes

/-- A type whose values are stored in a fixed number of bytes, as a number below `Bytes.words width`. -/
class Fixed (α : Type) where
  /-- Bytes a value takes. -/
  width : Nat
  /-- The stored number. -/
  toNat : α → Nat
  /-- The value of a stored number. -/
  ofNat : Nat → α
  toNat_lt : ∀ a, toNat a < Bytes.words width
  ofNat_toNat : ∀ a, ofNat (toNat a) = a
  toNat_ofNat : ∀ n, n < Bytes.words width → toNat (ofNat n) = n

namespace Fixed

instance : Fixed UInt8 where
  width := 1
  toNat := UInt8.toNat
  ofNat := UInt8.ofNat
  toNat_lt a := a.toNat_lt
  ofNat_toNat _ := UInt8.ofNat_toNat
  toNat_ofNat _ h := UInt8.toNat_ofNat_of_lt h

instance : Fixed UInt16 where
  width := 2
  toNat := UInt16.toNat
  ofNat := UInt16.ofNat
  toNat_lt a := a.toNat_lt
  ofNat_toNat _ := UInt16.ofNat_toNat
  toNat_ofNat _ h := UInt16.toNat_ofNat_of_lt h

instance : Fixed UInt32 where
  width := 4
  toNat := UInt32.toNat
  ofNat := UInt32.ofNat
  toNat_lt a := a.toNat_lt
  ofNat_toNat _ := UInt32.ofNat_toNat
  toNat_ofNat _ h := UInt32.toNat_ofNat_of_lt h

instance : Fixed UInt64 where
  width := 8
  toNat := UInt64.toNat
  ofNat := UInt64.ofNat
  toNat_lt a := a.toNat_lt
  ofNat_toNat _ := UInt64.ofNat_toNat
  toNat_ofNat _ h := UInt64.toNat_ofNat_of_lt h

instance : Fixed Int8 where
  width := 1
  toNat a := a.toUInt8.toNat
  ofNat n := (UInt8.ofNat n).toInt8
  toNat_lt a := a.toUInt8.toNat_lt
  ofNat_toNat a := by simp
  toNat_ofNat n h := by
    rw [UInt8.toUInt8_toInt8]
    exact UInt8.toNat_ofNat_of_lt h

instance : Fixed Int16 where
  width := 2
  toNat a := a.toUInt16.toNat
  ofNat n := (UInt16.ofNat n).toInt16
  toNat_lt a := a.toUInt16.toNat_lt
  ofNat_toNat a := by simp
  toNat_ofNat n h := by
    rw [UInt16.toUInt16_toInt16]
    exact UInt16.toNat_ofNat_of_lt h

instance : Fixed Int32 where
  width := 4
  toNat a := a.toUInt32.toNat
  ofNat n := (UInt32.ofNat n).toInt32
  toNat_lt a := a.toUInt32.toNat_lt
  ofNat_toNat a := by simp
  toNat_ofNat n h := by
    rw [UInt32.toUInt32_toInt32]
    exact UInt32.toNat_ofNat_of_lt h

instance : Fixed Int64 where
  width := 8
  toNat a := a.toUInt64.toNat
  ofNat n := (UInt64.ofNat n).toInt64
  toNat_lt a := a.toUInt64.toNat_lt
  ofNat_toNat a := by simp
  toNat_ofNat n h := by
    rw [UInt64.toUInt64_toInt64]
    exact UInt64.toNat_ofNat_of_lt h

/-- The stored form of a value. -/
def encode {α : Type} [Fixed α] (order : ByteOrder) (a : α) : Bytes :=
  Bytes.ofNat order (width α) (toNat a)

/-- The value stored in a byte string. -/
def decode (α : Type) [Fixed α] (order : ByteOrder) (bs : Bytes) : α :=
  ofNat (bs.toNat order)

@[simp] theorem length_encode {α : Type} [Fixed α] (order : ByteOrder) (a : α) :
    (encode order a).length = width α := by
  simp [encode]

@[simp] theorem decode_encode {α : Type} [Fixed α] (order : ByteOrder) (a : α) :
    decode α order (encode order a) = a := by
  simp only [decode, encode, Bytes.toNat_ofNat, Nat.mod_eq_of_lt (toNat_lt a), ofNat_toNat]

theorem encode_uint8 (order : ByteOrder) (byte : UInt8) : encode order byte = [byte] := by
  have h : UInt8.ofNat byte.toNat = byte := UInt8.ofNat_toNat
  cases order <;> simp only [encode, Bytes.ofNat, width, toNat, Bytes.ofNatLE, h, List.reverse_singleton]

theorem encode_decode {α : Type} [Fixed α] (order : ByteOrder) {bs : Bytes}
    (h : bs.length = width α) : encode order (decode α order bs) = bs := by
  have hlt : bs.toNat order < Bytes.words (width α) := h ▸ bs.toNat_lt order
  rw [encode, decode, toNat_ofNat _ hlt, ← h, Bytes.ofNat_toNat]

end Fixed

/-- The fixed-width types of the wire formats. -/
inductive ScalarType where
  | u8 | i8 | u16 | i16 | u32 | i32 | u64 | i64 | f32 | f64
  deriving DecidableEq, Repr

namespace ScalarType

/-- The values of a fixed-width type; a floating-point value is its bit pattern. -/
abbrev Value : ScalarType → Type
  | u8 => UInt8
  | i8 => Int8
  | u16 => UInt16
  | i16 => Int16
  | u32 | f32 => UInt32
  | i32 => Int32
  | u64 | f64 => UInt64
  | i64 => Int64

instance instFixedValue (t : ScalarType) : Fixed t.Value :=
  match t with
  | u8 => inferInstanceAs (Fixed UInt8)
  | i8 => inferInstanceAs (Fixed Int8)
  | u16 => inferInstanceAs (Fixed UInt16)
  | i16 => inferInstanceAs (Fixed Int16)
  | u32 | f32 => inferInstanceAs (Fixed UInt32)
  | i32 => inferInstanceAs (Fixed Int32)
  | u64 | f64 => inferInstanceAs (Fixed UInt64)
  | i64 => inferInstanceAs (Fixed Int64)

end ScalarType

end GameGateway
