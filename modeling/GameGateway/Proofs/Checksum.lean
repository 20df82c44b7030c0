import GameGateway.Proofs.Filtering
import Mathlib.Order.Bounds.Basic

/-!
# What the footer of a packet detects

The register of the packet checksum moves linearly: a byte from the table does what its eight bits do one by one
(`Checksum.Reflected.step_eq`), and eight bits lose nothing of the register. Four bytes in a row fill the register once,
so that from equal registers two different strings of at most four bytes never lead to equal ones, and no byte behind
them makes the registers equal again. A footer of four bytes therefore tells a packet from every other one that differs
from it within four bytes: `Filter.decode_burst`.
-/

namespace GameGateway

namespace Checksum

/-! ## Shifts -/

section Shifts

variable {shift : UInt32 → UInt32}

theorem shifts_xor (hlinear : ∀ a b, shift (a ^^^ b) = shift a ^^^ shift b) (n : Nat) (a b : UInt32) :
    shifts shift n (a ^^^ b) = shifts shift n a ^^^ shifts shift n b := by
  induction n generalizing a b with
  | zero => rfl
  | succ n ih => rw [shifts, hlinear, ih, shifts, shifts]

theorem shifts_injective (hinjective : Function.Injective shift) (n : Nat) : Function.Injective (shifts shift n) := by
  induction n with
  | zero => exact Function.injective_id
  | succ n ih => exact ih.comp hinjective

end Shifts

namespace Reflected

variable {r s w : UInt32}

theorem low_bit (r : UInt32) : r &&& 1 = 0 ∨ r &&& 1 = 1 := by
  have hbit : (r &&& 1).toNat = r.toNat % 2 := by
    rw [UInt32.toNat_and]
    exact Nat.and_one_is_mod r.toNat
  rcases Nat.mod_two_eq_zero_or_one r.toNat with h | h
  · left
    apply UInt32.toNat_inj.1
    rw [hbit, h]
    rfl
  · right
    apply UInt32.toNat_inj.1
    rw [hbit, h]
    rfl

/-- A shift adds the polynomial if it shifts a one out. -/
theorem shift_eq (r : UInt32) : shift r = (r >>> 1) ^^^ (if r &&& 1 = 1 then 0xEDB88320 else 0) := by
  rcases low_bit r with h | h
  · simp [shift, h]
  · simp [shift, h]

theorem shift_xor (a b : UInt32) : shift (a ^^^ b) = shift a ^^^ shift b := by
  have hlow : (a ^^^ b) &&& 1 = (a &&& 1) ^^^ (b &&& 1) := by
    apply UInt32.toBitVec_inj.1
    simp only [UInt32.toBitVec_and, UInt32.toBitVec_xor]
    ext i
    simp only [BitVec.getElem_and, BitVec.getElem_xor, Bool.and_xor_distrib_right]
  rw [shift_eq, shift_eq a, shift_eq b, hlow, UInt32.shiftRight_xor]
  generalize a >>> 1 = x
  generalize b >>> 1 = y
  rcases low_bit a with ha | ha
  · rcases low_bit b with hb | hb
    · simp [ha, hb]
    · simp [ha, hb, UInt32.xor_assoc]
  · rcases low_bit b with hb | hb
    · simp only [ha, hb]
      simp only [UInt32.xor_zero, if_true, if_neg (show (0 : UInt32) ≠ 1 by decide)]
      ac_rfl
    · -- the polynomial cancels
      have hcancel : (x ^^^ 0xEDB88320) ^^^ (y ^^^ 0xEDB88320) = x ^^^ y ^^^ (0xEDB88320 ^^^ 0xEDB88320) := by ac_rfl
      simp only [ha, hb, UInt32.xor_self, if_true, if_neg (show (0 : UInt32) ≠ 1 by decide), hcancel]

/-- A one is shifted in exactly if one is shifted out, so that the register before can be told. -/
theorem shift_injective : Function.Injective shift := by
  have hkernel : ∀ r, shift r = 0 → r = 0 := by
    intro r hr
    have hhalf : (r >>> 1).toNat = r.toNat / 2 := by
      rw [UInt32.toNat_shiftRight]
      exact Nat.shiftRight_eq_div_pow r.toNat 1
    have hlt : r.toNat < 2 ^ 32 := r.toNat_lt
    have hmod : (r &&& 1).toNat = r.toNat % 2 := by
      rw [UInt32.toNat_and]
      exact Nat.and_one_is_mod r.toNat
    rw [shift_eq] at hr
    have hsame := UInt32.xor_eq_zero_iff.1 hr
    rw [hsame] at hhalf
    apply UInt32.toNat_inj.1
    change r.toNat = 0
    rcases low_bit r with h | h
    · simp only [h, if_neg (show (0 : UInt32) ≠ 1 by decide)] at hhalf hmod
      change 0 = _ at hhalf
      change 0 = _ at hmod
      omega
    · simp only [h, if_true] at hhalf
      change 3988292384 = _ at hhalf
      omega
  intro a b hab
  have hxor : shift (a ^^^ b) = 0 := by rw [shift_xor, hab, UInt32.xor_self]
  exact UInt32.xor_eq_zero_iff.1 (hkernel _ hxor)

/-- Shifting as many zeros out as there are. -/
theorem shifts_of_toNat (n : Nat) {v : Nat} (h : r.toNat = v * 2 ^ n) : (shifts shift n r).toNat = v := by
  induction n generalizing r with
  | zero => simpa [shifts] using h
  | succ n ih =>
    rw [Nat.pow_succ, ← Nat.mul_assoc] at h
    apply ih
    have heven : r &&& 1 = 0 := by
      apply UInt32.toNat_inj.1
      rw [UInt32.toNat_and]
      change r.toNat &&& 1 = 0
      rw [Nat.and_one_is_mod, h, Nat.mul_mod_left]
    rw [shift_eq, heven, if_neg (show (0 : UInt32) ≠ 1 by decide), UInt32.xor_zero, UInt32.toNat_shiftRight]
    change r.toNat >>> 1 = _
    rw [Nat.shiftRight_eq_div_pow, h]
    exact Nat.mul_div_cancel _ (by decide)

theorem shifts_shiftLeft (h : w.toNat < 2 ^ 24) : shifts shift 8 (w <<< 8) = w := by
  apply UInt32.toNat_inj.1
  apply shifts_of_toNat
  rw [UInt32.toNat_shiftLeft]
  change w.toNat <<< 8 % 2 ^ 32 = _
  rw [Nat.shiftLeft_eq, Nat.mod_eq_of_lt (by omega)]

/-! ## Bytes -/

theorem get_table (byte : UInt8) : table.get byte.toFin = shifts shift 8 byte.toUInt32 := by
  have hindex : UInt32.ofNat byte.toNat = byte.toUInt32 := UInt32.ofNat_uInt8ToNat byte
  rw [table, Vector.get_ofFn]
  exact congrArg _ hindex

theorem xor_split (r : UInt32) (byte : UInt8) :
    r ^^^ byte.toUInt32 = (r.toUInt8 ^^^ byte).toUInt32 ^^^ (r >>> 8) <<< 8 := by
  apply UInt32.toBitVec_inj.1
  simp only [UInt32.toBitVec_xor, UInt8.toBitVec_toUInt32, UInt8.toBitVec_xor, UInt32.toBitVec_toUInt8,
    UInt32.toBitVec_shiftLeft, UInt32.toBitVec_shiftRight]
  apply BitVec.eq_of_getLsbD_eq
  intro i hi
  by_cases hlow : i < 8
  · simp [hi, hlow]
  · have hback : 8 + (i - 8) = i := by omega
    simp [hi, hlow, hback, Bool.xor_comm]

/-- A byte by the table is a byte bit by bit. -/
theorem step_eq (r : UInt32) (byte : UInt8) : step r byte = bitStep r byte := by
  have hhigh : (r >>> 8).toNat < 2 ^ 24 := by
    have hlt : r.toNat < 2 ^ 32 := r.toNat_lt
    rw [UInt32.toNat_shiftRight]
    change r.toNat >>> 8 < _
    rw [Nat.shiftRight_eq_div_pow]
    omega
  rw [step, get_table, bitStep, xor_split, shifts_xor shift_xor, shifts_shiftLeft hhigh]

theorem foldl_step_injective (bytes : Bytes) : Function.Injective fun r => bytes.foldl step r := by
  induction bytes with
  | nil => exact Function.injective_id
  | cons byte bytes ih =>
    intro r s h
    have hstep : step r byte = step s byte := ih h
    rw [step_eq, step_eq] at hstep
    exact (UInt32.xor_left_inj _).1 (shifts_injective shift_injective 8 hstep)

/-! ## Bursts -/

/-- The register into which up to four bytes are written side by side, the first one lowest. -/
def word : Bytes → UInt32
  | [] => 0
  | byte :: bytes => byte.toUInt32 ^^^ word bytes <<< 8

theorem word_lt (bytes : Bytes) : (word bytes).toNat < 2 ^ (8 * bytes.length) := by
  induction bytes with
  | nil => exact Nat.one_pos
  | cons byte bytes ih =>
    have hbyte : byte.toUInt32.toNat < 2 ^ (8 * (bytes.length + 1)) := by
      rw [UInt8.toNat_toUInt32]
      exact Nat.lt_of_lt_of_le byte.toNat_lt (Nat.pow_le_pow_right (by decide) (by omega))
    have hword : (word bytes <<< 8).toNat < 2 ^ (8 * (bytes.length + 1)) := by
      rw [UInt32.toNat_shiftLeft]
      change (word bytes).toNat <<< 8 % 2 ^ 32 < _
      have hpow : 2 ^ (8 * (bytes.length + 1)) = 2 ^ (8 * bytes.length) * 2 ^ 8 := Nat.pow_add 2 _ 8
      rw [Nat.shiftLeft_eq, hpow]
      exact Nat.lt_of_le_of_lt (Nat.mod_le _ _) (Nat.mul_lt_mul_of_pos_right ih (by decide))
    rw [word, UInt32.toNat_xor]
    exact Nat.xor_lt_two_pow hbyte hword

/-- Behind at most three bytes there is room for one more. -/
theorem shifts_word {bytes : Bytes} (h : bytes.length ≤ 3) : shifts shift 8 (word bytes <<< 8) = word bytes :=
  shifts_shiftLeft (Nat.lt_of_lt_of_le (word_lt bytes) (Nat.pow_le_pow_right (by decide) (by omega)))

theorem word_inj {a b : Bytes} (hlength : a.length = b.length) (hshort : a.length ≤ 4) (h : word a = word b) :
    a = b := by
  induction a generalizing b with
  | nil => exact (List.length_eq_zero_iff.1 hlength.symm).symm
  | cons x a ih =>
    obtain ⟨y, b, rfl⟩ := List.exists_cons_of_length_eq_add_one hlength.symm
    have hlength' : a.length = b.length := Nat.succ.inj hlength
    have hshort' : a.length ≤ 3 := Nat.le_of_succ_le_succ hshort
    have hlow : ∀ (byte : UInt8) (w : UInt32), (byte.toUInt32 ^^^ w <<< 8).toUInt8 = byte := by
      intro byte w
      apply UInt8.toBitVec_inj.1
      ext i hi
      simp
    have hbyte : x = y := by
      rw [← hlow x (word a), ← hlow y (word b)]
      exact congrArg UInt32.toUInt8 h
    subst hbyte
    have hword : word a <<< 8 = word b <<< 8 := (UInt32.xor_right_inj x.toUInt32).1 h
    have hrest : word a = word b :=
      calc
        word a = shifts shift 8 (word a <<< 8) := (shifts_word hshort').symm
        _ = shifts shift 8 (word b <<< 8) := congrArg _ hword
        _ = word b := shifts_word (hlength' ▸ hshort')
    rw [ih hlength' (Nat.le_succ_of_le hshort') hrest]

/-- Up to four bytes act on the register as the word of them does that is added to it at once. -/
theorem xor_word_of_foldl_step {a b : Bytes} (hlength : a.length = b.length) (hshort : a.length ≤ 4)
    (h : a.foldl step r = b.foldl step s) : r ^^^ word a = s ^^^ word b := by
  induction a generalizing b r s with
  | nil =>
    obtain rfl := List.length_eq_zero_iff.1 hlength.symm
    exact congrArg (· ^^^ word []) h
  | cons x a ih =>
    obtain ⟨y, b, rfl⟩ := List.exists_cons_of_length_eq_add_one hlength.symm
    have hlength' : a.length = b.length := Nat.succ.inj hlength
    have hshort' : a.length ≤ 3 := Nat.le_of_succ_le_succ hshort
    have hrest : step r x ^^^ word a = step s y ^^^ word b := ih hlength' (Nat.le_succ_of_le hshort') h
    -- the rest moves with the byte before it
    have hmove : ∀ (register : UInt32) (byte : UInt8) {bytes : Bytes}, bytes.length ≤ 3 →
        step register byte ^^^ word bytes = shifts shift 8 (register ^^^ word (byte :: bytes)) := by
      intro register byte bytes hbytes
      rw [step_eq, bitStep, word, ← UInt32.xor_assoc, shifts_xor shift_xor _ (register ^^^ _), shifts_word hbytes]
    rw [hmove r x hshort', hmove s y (hlength' ▸ hshort')] at hrest
    exact shifts_injective shift_injective 8 hrest

/-- Strings that differ within four bytes lead from one register to different ones. -/
theorem eq_of_foldl_step {a b : Bytes} {n : Nat} (hlength : a.length = b.length) (hfront : a.take n = b.take n)
    (hback : a.drop (n + 4) = b.drop (n + 4)) (h : a.foldl step r = b.foldl step r) : a = b := by
  have hcut : ∀ bytes : Bytes, bytes = bytes.take n ++ ((bytes.drop n).take 4 ++ bytes.drop (n + 4)) := by
    intro bytes
    rw [← List.drop_drop, List.take_append_drop, List.take_append_drop]
  have hmiddle : ((a.drop n).take 4).foldl step ((a.take n).foldl step r) =
      ((b.drop n).take 4).foldl step ((a.take n).foldl step r) := by
    rw [hcut a, hcut b, ← hfront, ← hback] at h
    simp only [List.foldl_append] at h
    exact foldl_step_injective _ h
  have hlength' : ((a.drop n).take 4).length = ((b.drop n).take 4).length := by
    simp only [List.length_take, List.length_drop, hlength]
  have hshort : ((a.drop n).take 4).length ≤ 4 := List.length_take_le _ _
  have hword := (UInt32.xor_right_inj _).1 (xor_word_of_foldl_step hlength' hshort hmiddle)
  rw [hcut a, hcut b, hfront, hback, word_inj hlength' hshort hword]

end Reflected

theorem eq_of_seeded {seed : UInt32} {a b : Bytes} {n : Nat} (hlength : a.length = b.length)
    (hfront : a.take n = b.take n) (hback : a.drop (n + 4) = b.drop (n + 4)) (h : seeded seed a = seeded seed b) :
    a = b := by
  simp only [seeded, reflected, List.foldl_append, UInt32.not_inj] at h
  exact Reflected.eq_of_foldl_step hlength hfront hback h

end Checksum

/-! ## Footers -/

namespace Filter

variable {params : FilterParams} {sent received : Bytes} {n k : Nat}

/-- The positions at which two byte strings differ. -/
def differing (sent received : Bytes) : Set Nat := {k | sent[k]? ≠ received[k]?}

theorem take_eq_of_differing (h : ∀ k ∈ differing sent received, n ≤ k) : sent.take n = received.take n := by
  apply List.ext_getElem?
  intro k
  by_cases hk : k < n
  · have hsame : k ∉ differing sent received := fun hmem => absurd (h k hmem) (Nat.not_le.2 hk)
    rw [List.getElem?_take_of_lt hk, List.getElem?_take_of_lt hk]
    exact not_not.1 hsame
  · rw [List.getElem?_take_eq_none (Nat.le_of_not_lt hk), List.getElem?_take_eq_none (Nat.le_of_not_lt hk)]

theorem drop_eq_of_differing (h : ∀ k ∈ differing sent received, k < n) : sent.drop n = received.drop n := by
  apply List.ext_getElem?
  intro k
  have hsame : n + k ∉ differing sent received := fun hmem => absurd (h _ hmem) (by omega)
  rw [List.getElem?_drop, List.getElem?_drop]
  exact not_not.1 hsame

theorem footer_eq (h : 4 ≤ params.crcLength) (packet : Bytes) :
    params.footerLength = 4 ∧ params.footer packet = Fixed.encode .big (Checksum.seeded params.crcSeed packet) := by
  have hlength : params.footerLength = 4 := Nat.min_eq_right (UInt8.le_iff_toNat_le.1 h)
  refine ⟨hlength, ?_⟩
  rw [FilterParams.footer, hlength]
  rfl

/-- A datagram whose footer is wrong. -/
theorem decode_of_footer_ne (codec : Codec) (h : 4 ≤ params.crcLength) (hlong : 6 ≤ received.length)
    (hne : params.footer (received.take (received.length - 4)) ≠ received.drop (received.length - 4)) :
    decode codec params received = .error (.crcMismatch
      (Checksum.seeded params.crcSeed (received.take (received.length - 4))).toNat
      (Bytes.toNat .big (received.drop (received.length - 4)))) := by
  obtain ⟨hlength, hfooter⟩ := footer_eq h (received.take (received.length - 4))
  have hvalue : ∀ crc : UInt32, Bytes.toNat .big (Fixed.encode .big crc) = crc.toNat := by
    intro crc
    rw [Fixed.encode, Bytes.toNat_ofNat, Nat.mod_eq_of_lt (Fixed.toNat_lt crc)]
    rfl
  rw [hfooter] at hne
  have hshort : ¬ received.length < 2 + 4 := Nat.not_lt.2 hlong
  simp only [decode, hlength, if_neg hshort, hfooter, if_neg hne, hvalue]

/-- Strings of one length that differ within four bytes at most and have one checksum are equal. -/
theorem eq_of_seeded_take {seed : UInt32} {first : Nat} (hlength : sent.length = received.length)
    (hburst : ∀ k ∈ differing sent received, first ≤ k ∧ k < first + 4)
    (h : Checksum.seeded seed (sent.take n) = Checksum.seeded seed (received.take n)) :
    sent.take n = received.take n := by
  have hfront : sent.take first = received.take first := take_eq_of_differing fun k hk => (hburst k hk).1
  have hback : sent.drop (first + 4) = received.drop (first + 4) := drop_eq_of_differing fun k hk => (hburst k hk).2
  refine Checksum.eq_of_seeded (n := first) ?_ ?_ ?_ h
  · rw [List.length_take, List.length_take, hlength]
  · rw [List.take_take, List.take_take, Nat.min_comm, ← List.take_take, ← List.take_take, hfront]
  · rw [List.drop_take, List.drop_take, hback]

/-- Under a footer of four bytes every datagram is refused for its checksum that is as long as one that was sent and
differs from it within four bytes, all of them before the footer or all of them in it, whatever the filter does
besides. -/
theorem decode_burst (codec : Codec) (params : FilterParams) (packet received : Bytes) (first last : Nat)
    (hcrc : 4 ≤ params.crcLength) (hpacket : 2 ≤ packet.length)
    (hlength : received.length = (encode codec params packet).length)
    (hfirst : IsLeast (differing (encode codec params packet) received) first)
    (hlast : IsGreatest (differing (encode codec params packet) received) last) (hspan : last ≤ first + 3)
    (hside : last < received.length - 4 ∨ received.length - 4 ≤ first) :
    decode codec params received = .error (.crcMismatch
      (Checksum.seeded params.crcSeed (received.take (received.length - 4))).toNat
      (Bytes.toNat .big (received.drop (received.length - 4)))) := by
  have hflagged := two_le_length_flagged codec params hpacket
  have hencode : encode codec params packet =
      flagged codec params packet ++ params.footer (flagged codec params packet) := rfl
  generalize flagged codec params packet = out at hflagged hencode
  rw [hencode] at hlength hfirst hlast
  have hfour : (params.footer out).length = 4 := by
    rw [params.length_footer]
    exact (footer_eq hcrc out).1
  have hsize : received.length - 4 = out.length := by
    rw [hlength, List.length_append, hfour, Nat.add_sub_cancel]
  have hlong : 6 ≤ received.length := by
    rw [hlength, List.length_append]
    omega
  apply decode_of_footer_ne codec hcrc hlong
  rw [hsize] at hside ⊢
  intro hfooter
  -- a footer that fits would make the two strings equal
  suffices hsame : out = received.take out.length by
    rw [← hsame] at hfooter
    have hall : out ++ params.footer out = received := by
      rw [hfooter]
      conv => lhs; lhs; rw [hsame]
      exact List.take_append_drop _ _
    exact hfirst.1 (by rw [hall])
  rcases hside with hbefore | hinside
  · have hdrop := drop_eq_of_differing fun k hk => Nat.lt_of_le_of_lt (hlast.2 hk) hbefore
    have hfooters : params.footer out = params.footer (received.take out.length) := by
      rw [hfooter, ← hdrop, List.drop_left]
    rw [(footer_eq hcrc out).2, (footer_eq hcrc _).2] at hfooters
    have hchecksum := congrArg (Fixed.decode UInt32 .big) hfooters
    rw [Fixed.decode_encode, Fixed.decode_encode] at hchecksum
    have hburst : ∀ k ∈ differing (out ++ params.footer out) received, first ≤ k ∧ k < first + 4 :=
      fun k hk => ⟨hfirst.2 hk, Nat.lt_succ_of_le (Nat.le_trans (hlast.2 hk) hspan)⟩
    have hsums : Checksum.seeded params.crcSeed ((out ++ params.footer out).take out.length) =
        Checksum.seeded params.crcSeed (received.take out.length) := by
      rwa [List.take_left]
    have htake := eq_of_seeded_take hlength.symm hburst hsums
    rwa [List.take_left] at htake
  · have htake := take_eq_of_differing fun k hk => Nat.le_trans hinside (hfirst.2 hk)
    rwa [List.take_left] at htake

/-- A flagged packet in which two bytes are overwritten on its way, the fifth and the eighth. -/
theorem decode_burst_overwritten :
    let params : FilterParams :=
      { crcSeed := 0xDEADBEEF, crcLength := 4, compression := true, compressionThreshold := 16 }
    let codec : Codec := ⟨fun _ => none, fun _ _ => none⟩
    let sent := encode codec params [0, 9, 0, 0, 0x41, 0x42, 0x43, 0x44, 0x45]
    let received := (sent.set 4 0).set 7 0
    IsLeast (differing sent received) 4 ∧ IsGreatest (differing sent received) 7 ∧
      ∃ expected actual, decode codec params received = .error (.crcMismatch expected actual) := by
  intro params codec sent received
  have hfour : 4 ∈ differing sent received := by
    change sent[4]? ≠ received[4]?
    decide +kernel
  have hseven : 7 ∈ differing sent received := by
    change sent[7]? ≠ received[7]?
    decide +kernel
  have hmem : ∀ k ∈ differing sent received, k = 4 ∨ k = 7 := by
    intro k hk
    by_contra hneither
    obtain ⟨hne, hne'⟩ := not_or.1 hneither
    apply hk
    rw [List.getElem?_set_ne (Ne.symm hne'), List.getElem?_set_ne (Ne.symm hne)]
  have hfirst : IsLeast (differing sent received) 4 := by
    refine ⟨hfour, fun k hk => ?_⟩
    rcases hmem k hk with rfl | rfl
    · exact Nat.le_refl _
    · decide
  have hlast : IsGreatest (differing sent received) 7 := by
    refine ⟨hseven, fun k hk => ?_⟩
    rcases hmem k hk with rfl | rfl
    · decide
    · exact Nat.le_refl _
  have hside : 7 < received.length - 4 := by decide +kernel
  exact ⟨hfirst, hlast, _, _, decode_burst codec params _ received 4 7 (by decide) (by decide) (by decide +kernel)
    hfirst hlast (by decide) (Or.inl hside)⟩

end Filter

end GameGateway
