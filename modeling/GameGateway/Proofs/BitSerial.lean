import GameGateway.Proofs.Checksum

/-!
# Checksums bit by bit

Both checksums divide a row of bits by a polynomial: for each bit the register moves by one, and the polynomial is added
if the bit differs from the one that left the register. The tables do this for eight bits at once
(`Checksum.eq_bit_by_bit`).

## Implementation notes

The two bit orders are images of each other: read from its other end, the register of the one is the register of the
other (`Checksum.mirror`). What a row of bits does to the register is shown for the reflected order only and carried over.
-/

namespace GameGateway

namespace Checksum

/-! ## Rows of bits -/

/-- The bits of a byte, least significant first. -/
def lowFirst (byte : UInt8) : List Bool := (List.range 8).map byte.toNat.testBit

/-- The bits of a byte, most significant first. -/
def highFirst (byte : UInt8) : List Bool := (lowFirst byte).reverse

/-- One bit of a row goes in, and one bit leaves the register at its high end. -/
def Forward.feed (register : UInt32) (bit : Bool) : UInt32 :=
  if (register &&& 0x80000000 != 0) != bit then (register <<< 1) ^^^ 0x04C11DB7 else register <<< 1

/-- The checksum of a row of bits. -/
def Forward.serial (bits : List Bool) : UInt32 := ~~~ bits.foldl feed 0xFFFFFFFF

/-- One bit of a row goes in, and one bit leaves the register at its low end. -/
def Reflected.feed (register : UInt32) (bit : Bool) : UInt32 :=
  if (register &&& 1 != 0) != bit then (register >>> 1) ^^^ 0xEDB88320 else register >>> 1

/-- The checksum of a row of bits. -/
def Reflected.serial (bits : List Bool) : UInt32 := ~~~ bits.foldl feed 0xFFFFFFFF

/-! ## The reflected order -/

namespace Reflected

theorem feed_false (r : UInt32) : feed r false = shift r := by
  rw [feed, Bool.bne_false, shift]

/-- A bit that goes in last acts as one that is added to the register before it moves. -/
theorem feed_eq (r : UInt32) (bit : Bool) : feed r bit = shift (r ^^^ UInt32.ofNat bit.toNat) := by
  cases bit with
  | false =>
    have hzero : UInt32.ofNat false.toNat = 0 := rfl
    rw [hzero, UInt32.xor_zero, feed_false]
  | true =>
    have hone : UInt32.ofNat true.toNat = 1 := rfl
    have hshift : shift 1 = 0xEDB88320 := rfl
    rw [hone, shift_xor, hshift, shift_eq, feed]
    rcases low_bit r with h | h
    · simp [h]
    · simp [h]

theorem map_testBit_succ (k n : Nat) :
    (List.range (k + 1)).map n.testBit = n.testBit 0 :: (List.range k).map (n / 2).testBit := by
  rw [List.range_succ_eq_map, List.map_cons, List.map_map]
  refine congrArg (n.testBit 0 :: ·) (List.map_congr_left fun i _ => ?_)
  exact Nat.testBit_succ n i

theorem ofNat_split (n : Nat) :
    UInt32.ofNat n = UInt32.ofNat (n.testBit 0).toNat ^^^ UInt32.ofNat (n / 2 * 2) := by
  have hsplit : n = (n.testBit 0).toNat ^^^ (n / 2 * 2) := by
    apply Nat.eq_of_testBit_eq
    intro i
    cases i with
    | zero => cases n.testBit 0 <;> simp
    | succ i =>
      rw [Nat.testBit_xor, Nat.testBit_succ, Nat.testBit_succ, Nat.testBit_succ, Nat.mul_div_cancel _ Nat.two_pos]
      cases n.testBit 0 <;> simp
  rw [← UInt32.ofNat_xor, ← hsplit]

/-- The bits of a number go in one after the other as the number goes in at once. -/
theorem foldl_feed_testBit {k n : Nat} (r : UInt32) (hk : k ≤ 32) (hn : n < 2 ^ k) :
    ((List.range k).map n.testBit).foldl feed r = shifts shift k (r ^^^ UInt32.ofNat n) := by
  induction k generalizing n r with
  | zero =>
    obtain rfl : n = 0 := Nat.lt_one_iff.1 hn
    exact (UInt32.xor_zero (a := r)).symm
  | succ k ih =>
    have hhalf : n / 2 < 2 ^ k := by
      rw [Nat.pow_succ] at hn
      omega
    have hlt : n / 2 * 2 < 2 ^ 32 := by
      have hpow : 2 ^ (k + 1) ≤ 2 ^ 32 := Nat.pow_le_pow_right (by decide) hk
      omega
    -- The rest of the number is even, so it moves down without the polynomial.
    have hmove : shift (UInt32.ofNat (n / 2 * 2)) = UInt32.ofNat (n / 2) := by
      apply UInt32.toNat_inj.1
      have hlow : (UInt32.ofNat (n / 2)).toNat = n / 2 := UInt32.toNat_ofNat_of_lt (show n / 2 < 2 ^ 32 by omega)
      rw [hlow]
      exact shifts_of_toNat 1 (UInt32.toNat_ofNat_of_lt hlt)
    rw [map_testBit_succ, List.foldl_cons, ih _ (Nat.le_of_succ_le hk) hhalf, feed_eq, shifts, ofNat_split n,
      ← UInt32.xor_assoc, shift_xor (r ^^^ _), hmove]

theorem foldl_feed_lowFirst (r : UInt32) (byte : UInt8) : (lowFirst byte).foldl feed r = bitStep r byte := by
  rw [lowFirst, foldl_feed_testBit r (by decide) byte.toNat_lt, bitStep]
  exact congrArg (fun word => shifts shift 8 (r ^^^ word)) (UInt32.ofNat_uInt8ToNat byte)

theorem bitwise_eq_serial (bytes : Bytes) : bitwise bytes = serial (bytes.flatMap lowFirst) := by
  rw [bitwise, serial, List.foldl_flatMap]
  simp only [foldl_feed_lowFirst]

end Reflected

theorem reflected_eq_bitwise (bytes : Bytes) : reflected bytes = Reflected.bitwise bytes := by
  rw [reflected, Reflected.bitwise, funext₂ Reflected.step_eq]

/-! ## The other end -/

/-- The register, read from its other end. -/
def mirror (register : UInt32) : UInt32 := ⟨register.toBitVec.reverse⟩

/-- A byte, read from its other end. -/
def mirrorByte (byte : UInt8) : UInt8 := ⟨byte.toBitVec.reverse⟩

section Mirror

variable (r s n : UInt32) (byte byte' : UInt8) (bit : Bool)

theorem getLsbD_mirror (i : Nat) : (mirror r).toBitVec.getLsbD i = r.toBitVec.getMsbD i := BitVec.getLsbD_reverse

theorem getLsbD_mirrorByte (i : Nat) : (mirrorByte byte).toBitVec.getLsbD i = byte.toBitVec.getMsbD i :=
  BitVec.getLsbD_reverse

theorem eq_of_bits {r s : UInt32} (h : ∀ i < 32, r.toBitVec.getLsbD i = s.toBitVec.getLsbD i) : r = s :=
  UInt32.toBitVec_inj.1 (BitVec.eq_of_getLsbD_eq h)

theorem byte_eq_of_bits {byte byte' : UInt8} (h : ∀ i < 8, byte.toBitVec.getLsbD i = byte'.toBitVec.getLsbD i) :
    byte = byte' :=
  UInt8.toBitVec_inj.1 (BitVec.eq_of_getLsbD_eq h)

@[simp] theorem mirror_mirror : mirror (mirror r) = r := by
  apply eq_of_bits
  intro i _
  rw [getLsbD_mirror]
  exact BitVec.getMsbD_reverse

theorem mirror_xor : mirror (r ^^^ s) = mirror r ^^^ mirror s := by
  apply eq_of_bits
  intro i _
  simp only [UInt32.toBitVec_xor, BitVec.getLsbD_xor, getLsbD_mirror, BitVec.getMsbD_xor]

theorem mirror_and : mirror (r &&& s) = mirror r &&& mirror s := by
  apply eq_of_bits
  intro i _
  simp only [UInt32.toBitVec_and, BitVec.getLsbD_and, getLsbD_mirror, BitVec.getMsbD_and]

theorem mirror_not : mirror (~~~ r) = ~~~ mirror r := by
  apply eq_of_bits
  intro i _
  simp only [UInt32.toBitVec_not, BitVec.getLsbD_not, getLsbD_mirror, BitVec.getMsbD_not]

theorem mirror_shiftLeft : mirror (r <<< n) = mirror r >>> n := by
  apply eq_of_bits
  intro i _
  simp only [UInt32.toBitVec_shiftLeft, UInt32.toBitVec_shiftRight, BitVec.shiftLeft_eq', BitVec.ushiftRight_eq',
    BitVec.getLsbD_ushiftRight, getLsbD_mirror, BitVec.getMsbD_shiftLeft, Nat.add_comm]

theorem mirrorByte_xor : mirrorByte (byte ^^^ byte') = mirrorByte byte ^^^ mirrorByte byte' := by
  apply byte_eq_of_bits
  intro i _
  simp only [UInt8.toBitVec_xor, BitVec.getLsbD_xor, getLsbD_mirrorByte, BitVec.getMsbD_xor]

theorem mirror_byte : mirror (byte.toUInt32 <<< 24) = (mirrorByte byte).toUInt32 := by
  apply eq_of_bits
  intro i hi
  simp [getLsbD_mirror, getLsbD_mirrorByte, hi, -BitVec.getLsbD_eq_getElem]

theorem mirrorByte_high : mirrorByte (r >>> 24).toUInt8 = (mirror r).toUInt8 := by
  apply byte_eq_of_bits
  intro i hi
  have hlt : i + 24 < 32 := by omega
  rw [getLsbD_mirrorByte]
  simp [getLsbD_mirror, hi, hlt, -BitVec.getLsbD_eq_getElem]

theorem lowFirst_mirrorByte : lowFirst (mirrorByte byte) = highFirst byte := by
  apply List.ext_getElem (by simp [lowFirst, highFirst])
  intro i hi _
  have hlt : i < 8 := by simpa [lowFirst] using hi
  simp only [lowFirst, highFirst, List.getElem_reverse, List.getElem_map, List.getElem_range, List.length_map,
    List.length_range]
  have hbit := getLsbD_mirrorByte byte i
  rw [BitVec.getMsbD_eq_getLsbD, decide_eq_true hlt, Bool.true_and] at hbit
  exact hbit

theorem high_bit : (r &&& 0x80000000 != 0) = (mirror r &&& 1 != 0) := by
  have hone : mirror 0x80000000 = 1 := by decide +kernel
  have hzero : mirror 0 = 0 := by decide +kernel
  rw [← hone, ← mirror_and]
  by_cases h : r &&& 0x80000000 = 0
  · rw [h, hzero]
  · have hne : mirror (r &&& 0x80000000) ≠ 0 := by
      intro hmirror
      exact h (by rw [← mirror_mirror (r &&& 0x80000000), hmirror, hzero])
    rw [bne_iff_ne.2 h, bne_iff_ne.2 hne]

theorem mirror_feed : mirror (Forward.feed r bit) = Reflected.feed (mirror r) bit := by
  have hpolynomial : mirror 0x04C11DB7 = 0xEDB88320 := by decide +kernel
  rw [Forward.feed, Reflected.feed, high_bit]
  split
  · rw [mirror_xor, mirror_shiftLeft, hpolynomial]
  · rw [mirror_shiftLeft]

theorem mirror_shift : mirror (Forward.shift r) = Reflected.shift (mirror r) := by
  have hforward : Forward.feed r false = Forward.shift r := by rw [Forward.feed, Bool.bne_false, Forward.shift]
  rw [← hforward, mirror_feed, Reflected.feed_false]

theorem mirror_shifts (k : Nat) : mirror (shifts Forward.shift k r) = shifts Reflected.shift k (mirror r) := by
  induction k generalizing r with
  | zero => rfl
  | succ k ih => rw [shifts, ih, mirror_shift, shifts]

theorem mirror_bitStep : mirror (Forward.bitStep r byte) = Reflected.bitStep (mirror r) (mirrorByte byte) := by
  rw [Forward.bitStep, Reflected.bitStep, mirror_shifts, mirror_xor, mirror_byte]

theorem get_forward_table : Forward.table.get byte.toFin = shifts Forward.shift 8 (byte.toUInt32 <<< 24) := by
  have hindex : UInt32.ofNat byte.toNat = byte.toUInt32 := UInt32.ofNat_uInt8ToNat byte
  rw [Forward.table, Vector.get_ofFn]
  exact congrArg (fun word : UInt32 => shifts Forward.shift 8 (word <<< 24)) hindex

theorem mirror_step : mirror (Forward.step r byte) = Reflected.step (mirror r) (mirrorByte byte) := by
  rw [Forward.step, Reflected.step, get_forward_table, Reflected.get_table, mirror_xor, mirror_shifts, mirror_byte,
    mirrorByte_xor, mirrorByte_high, mirror_shiftLeft]

end Mirror

/-- Steps that are images of each other give checksums that are. -/
theorem mirror_checksum {α β : Type} {f : UInt32 → α → UInt32} {g : UInt32 → β → UInt32} {m : α → β}
    (h : ∀ r a, mirror (f r a) = g (mirror r) (m a)) (row : List α) :
    mirror (~~~ row.foldl f 0xFFFFFFFF) = ~~~ (row.map m).foldl g 0xFFFFFFFF := by
  have hones : mirror 0xFFFFFFFF = 0xFFFFFFFF := by decide +kernel
  have hrow : ∀ r, mirror (row.foldl f r) = (row.map m).foldl g (mirror r) := by
    induction row with
    | nil => exact fun _ => rfl
    | cons a row ih =>
      intro r
      rw [List.foldl_cons, ih, h, List.map_cons, List.foldl_cons]
  rw [mirror_not, hrow, hones]

theorem mirror_forward (bytes : Bytes) : mirror (forward bytes) = reflected (bytes.map mirrorByte) :=
  mirror_checksum mirror_step bytes

theorem mirror_bitwise (bytes : Bytes) : mirror (Forward.bitwise bytes) = Reflected.bitwise (bytes.map mirrorByte) :=
  mirror_checksum mirror_bitStep bytes

theorem mirror_serial (bits : List Bool) : mirror (Forward.serial bits) = Reflected.serial bits := by
  have h := mirror_checksum (m := id) mirror_feed bits
  rwa [List.map_id] at h

/-- The tables change nothing: byte by byte or bit by bit, each checksum divides the bits of what it is given. -/
theorem eq_bit_by_bit (bytes : Bytes) (seed : UInt32) :
    (forward bytes = Forward.bitwise bytes ∧ forward bytes = Forward.serial (bytes.flatMap highFirst)) ∧
      (seeded seed bytes = Reflected.bitwise (Fixed.encode .little seed ++ bytes) ∧
        seeded seed bytes = Reflected.serial ((Fixed.encode .little seed ++ bytes).flatMap lowFirst)) := by
  have hinjective : Function.Injective mirror := Function.LeftInverse.injective mirror_mirror
  have hrow : (bytes.map mirrorByte).flatMap lowFirst = bytes.flatMap highFirst := by
    rw [List.flatMap_map]
    exact congrArg (bytes.flatMap ·) (funext lowFirst_mirrorByte)
  refine ⟨⟨hinjective ?_, hinjective ?_⟩, reflected_eq_bitwise _, ?_⟩
  · rw [mirror_forward, mirror_bitwise, reflected_eq_bitwise]
  · rw [mirror_forward, mirror_serial, reflected_eq_bitwise, Reflected.bitwise_eq_serial, hrow]
  · rw [seeded, reflected_eq_bitwise, Reflected.bitwise_eq_serial]

/-- The digits from 1 to 9 have the checksums that both polynomials are commonly told by. -/
example :
    let digits : Bytes := [0x31, 0x32, 0x33, 0x34, 0x35, 0x36, 0x37, 0x38, 0x39]
    Forward.serial (digits.flatMap highFirst) = 0xFC891918 ∧ Reflected.serial (digits.flatMap lowFirst) = 0xCBF43926 := by
  decide +kernel

end Checksum

end GameGateway
