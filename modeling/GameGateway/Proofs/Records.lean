import GameGateway.Proofs.Forms
import GameGateway.Proofs.Lossless

/-!
# The format of bundles

A bundle is `00 19` and a row of records, each of them a byte string behind its size. Reading a payload that opens with
this pair succeeds exactly on such rows and fails with an underflow on everything else; writing fails exactly on a
message that no size announces, and what it writes is read back: `Bundle.pack_unpack_records`.

## Implementation notes

`SizePrefix.Announces` has the two forms of a size side by side, and the long form is open to small sizes, which are
never written in it. The format is therefore wider than what `Record.encode` writes, and reading is compared with the
format only.
-/

namespace GameGateway

/-! ## Sizes -/

namespace SizePrefix

/-- The two forms of a size: one byte below 255, or the byte 255 and two bytes. -/
inductive Announces : Bytes → Nat → Prop
  | short {byte : UInt8} (small : byte.toNat < 255) : Announces [byte] byte.toNat
  | long (size : UInt16) : Announces (255 :: Fixed.encode .big size) size.toNat

variable {front bytes : Bytes} {size : Nat}

/-- The first byte says which of the two forms is read. -/
theorem run_decode_cons (byte : UInt8) (tail : Bytes) :
    decode.run (byte :: tail) =
      if byte.toNat = 255 then
        if 2 ≤ tail.length then (.ok (Fixed.decode UInt16 .big (tail.take 2)).toNat, tail.drop 2)
        else (.error (.underflow 2 tail.length), tail)
      else (.ok byte.toNat, tail) := by
  have hfirst : (Decoder.fixed UInt8 .little).run (byte :: tail) = (.ok byte, tail) := by
    rw [← List.singleton_append, ← Fixed.encode_uint8 .little, Decoder.run_fixed_encode]
  have hwidth : Fixed.width UInt16 = 2 := rfl
  rw [decode, Decoder.run_bind_ok hfirst, sentinel]
  split
  · rw [Decoder.run_bind, Decoder.run_fixed, hwidth]
    by_cases htail : 2 ≤ tail.length
    · rw [if_pos htail, if_pos htail]
      rfl
    · rw [if_neg htail, if_neg htail]
  · rfl

theorem Announces.run_decode (h : Announces front size) (rest : Bytes) :
    decode.run (front ++ rest) = (.ok size, rest) := by
  cases h with
  | short small => rw [List.singleton_append, run_decode_cons, if_neg small.ne]
  | long size =>
    have hlength : (Fixed.encode .big size).length = 2 := Fixed.length_encode ..
    have htwo : 2 ≤ (Fixed.encode .big size ++ rest).length := by
      rw [List.length_append, hlength]
      exact Nat.le_add_right ..
    rw [List.cons_append, run_decode_cons, if_pos (by decide), if_pos htwo, List.take_left' hlength,
      List.drop_left' hlength, Fixed.decode_encode]

/-- A byte string opens with a size, or it ends before its size does. -/
theorem decode_cases (bytes : Bytes) :
    (∃ front size rest, Announces front size ∧ bytes = front ++ rest) ∨
      ∃ e rest, e.IsUnderflow ∧ decode.run bytes = (.error e, rest) := by
  cases bytes with
  | nil => exact Or.inr ⟨_, [], ⟨1, 0, by decide, rfl⟩, rfl⟩
  | cons byte tail =>
    by_cases hlong : byte.toNat = 255
    · obtain rfl : byte = 255 := UInt8.toNat_inj.1 hlong
      by_cases htail : 2 ≤ tail.length
      · have hsize : Fixed.encode .big (Fixed.decode UInt16 .big (tail.take 2)) = tail.take 2 :=
          Fixed.encode_decode .big (List.length_take_of_le htail)
        refine Or.inl ⟨_, _, tail.drop 2, .long (Fixed.decode UInt16 .big (tail.take 2)), ?_⟩
        rw [hsize, List.cons_append, List.take_append_drop]
      · refine Or.inr ⟨_, tail, ⟨2, tail.length, Nat.lt_of_not_le htail, rfl⟩, ?_⟩
        rw [run_decode_cons, if_pos hlong, if_neg htail]
    · have hsmall : byte.toNat < 255 := Nat.lt_of_le_of_ne (Nat.le_of_lt_succ byte.toNat_lt) hlong
      exact Or.inl ⟨[byte], byte.toNat, tail, .short hsmall, rfl⟩

end SizePrefix

/-! ## Records -/

namespace Record

/-- A record holds the byte string behind its size. -/
def Holds (record bytes : Bytes) : Prop := ∃ front, SizePrefix.Announces front bytes.length ∧ record = front ++ bytes

variable {record held bytes rest : Bytes} {messages records : List Bytes} {e : ReadError}

theorem Holds.run_decode (h : Holds record held) (rest : Bytes) :
    decode.run (record ++ rest) = (.ok held, rest) := by
  obtain ⟨front, hfront, rfl⟩ := h
  rw [List.append_assoc, decode, Decoder.run_bind_ok (hfront.run_decode _), Decoder.run_take_append]

/-- A byte string opens with a record, or it ends before its record does. -/
theorem decode_cases (bytes : Bytes) :
    (∃ record held rest, Holds record held ∧ bytes = record ++ rest) ∨
      ∃ e rest, e.IsUnderflow ∧ decode.run bytes = (.error e, rest) := by
  rcases SizePrefix.decode_cases bytes with ⟨front, size, tail, hfront, rfl⟩ | ⟨e, rest, he, hrun⟩
  · by_cases hsize : size ≤ tail.length
    · have hlength : (tail.take size).length = size := List.length_take_of_le hsize
      refine Or.inl ⟨front ++ tail.take size, tail.take size, tail.drop size, ⟨front, ?_, rfl⟩, ?_⟩
      · rwa [hlength]
      · rw [List.append_assoc, List.take_append_drop]
    · refine Or.inr ⟨_, tail, ⟨size, tail.length, Nat.lt_of_not_le hsize, rfl⟩, ?_⟩
      rw [decode, Decoder.run_bind_ok (hfront.run_decode tail), Decoder.run_take, if_neg hsize]
  · exact Or.inr ⟨e, rest, he, by rw [decode, Decoder.run_bind_error hrun]⟩

theorem exists_holds_of_run_decode (h : decode.run bytes = (.ok held, rest)) :
    ∃ record, Holds record held ∧ bytes = record ++ rest := by
  rcases decode_cases bytes with ⟨record, held', rest', hholds, rfl⟩ | ⟨e, rest', -, hrun⟩
  · rw [hholds.run_decode] at h
    cases h
    exact ⟨record, hholds, rfl⟩
  · rw [hrun] at h
    cases h

theorem isUnderflow_of_run_decode (h : decode.run bytes = (.error e, rest)) : e.IsUnderflow := by
  rcases decode_cases bytes with ⟨record, held, rest', hholds, rfl⟩ | ⟨e', rest', he, hrun⟩
  · rw [hholds.run_decode] at h
    cases h
  · rw [hrun] at h
    cases h
    exact he

/-! ## Rows of records -/

theorem all_flatten_of_holds (h : List.Forall₂ Holds records messages) : all records.flatten = (messages, none) := by
  induction h with
  | nil => exact all_nil
  | cons hfirst _ ih => rw [List.flatten_cons, all_of_run_decode (hfirst.run_decode _), ih]

/-- All of a byte string is read exactly if it is a row of records. -/
theorem all_eq_iff :
    all bytes = (messages, none) ↔ ∃ records, bytes = records.flatten ∧ List.Forall₂ Holds records messages := by
  constructor
  · intro h
    fun_induction all bytes generalizing messages with
    | case1 bytes hempty =>
      cases h
      exact ⟨[], List.isEmpty_iff.1 hempty, .nil⟩
    | case2 bytes hempty first rest hrun hlt tail stop hall ih =>
      cases h
      obtain ⟨record, hholds, rfl⟩ := exists_holds_of_run_decode hrun
      obtain ⟨records, rfl, hrecords⟩ := ih hall
      exact ⟨record :: records, rfl, .cons hholds hrecords⟩
    | case3 => cases h
  · rintro ⟨records, rfl, hrecords⟩
    exact all_flatten_of_holds hrecords

/-- Nothing but an underflow stops the reading of records. -/
theorem isUnderflow_of_all (h : (all bytes).2 = some e) : e.IsUnderflow := by
  fun_induction all bytes with
  | case1 => cases h
  | case2 bytes hempty first rest hrun hlt tail stop hall ih =>
    rw [hall] at ih
    exact ih h
  | case3 bytes hempty found rest hrun =>
    cases h
    exact isUnderflow_of_run_decode hrun

/-- Writing records fails at the first byte string that no size announces. -/
theorem mapM_encode_eq_error_iff {e : FramingError} :
    messages.mapM encode = .error e ↔
      ∃ message, messages.find? (65535 < ·.length) = some message ∧ e = .exceedsSizePrefix message.length := by
  induction messages with
  | nil => simp [pure, Except.pure]
  | cons message messages ih =>
    rw [List.mapM_cons, List.find?_cons]
    by_cases hlarge : 65535 < message.length
    · rw [encode_eq_error hlarge, decide_eq_true hlarge]
      constructor
      · intro h
        cases h
        exact ⟨message, rfl, rfl⟩
      · rintro ⟨_, hfirst, rfl⟩
        cases hfirst
        rfl
    · have hsmall : message.length < 65536 := Nat.lt_succ_of_le (Nat.le_of_not_lt hlarge)
      obtain ⟨record, hrecord⟩ := encode_eq_ok hsmall
      rw [hrecord, decide_eq_false hlarge, ← ih]
      cases messages.mapM encode with
      | error found => rfl
      | ok records => exact iff_of_false nofun nofun

end Record

/-! ## Bundles -/

namespace Bundle

variable {messages : List Bytes} {body : Bytes} {e : FramingError}

theorem pack_eq_error_iff :
    pack messages = .error e ↔
      messages.length ≠ 1 ∧
        ∃ message, messages.find? (65535 < ·.length) = some message ∧ e = .exceedsSizePrefix message.length := by
  by_cases hone : messages.length = 1
  · obtain ⟨message, rfl⟩ := List.length_eq_one_iff.1 hone
    exact iff_of_false nofun fun h => h.1 hone
  · rw [pack_of_length_ne_one hone, ← Record.mapM_encode_eq_error_iff, and_iff_right hone]
    cases messages.mapM Record.encode with
    | error found => simp [Except.map]
    | ok records => exact iff_of_false nofun nofun

theorem exists_pack_eq_error_iff :
    (∃ e, pack messages = .error e) ↔ messages.length ≠ 1 ∧ ∃ message ∈ messages, 65535 < message.length := by
  have hfind : (∃ message, messages.find? (65535 < ·.length) = some message) ↔
      ∃ message ∈ messages, 65535 < message.length := by
    rw [← Option.isSome_iff_exists, List.find?_isSome]
    simp
  rw [← hfind]
  constructor
  · rintro ⟨e, h⟩
    obtain ⟨hone, message, hmessage, -⟩ := pack_eq_error_iff.1 h
    exact ⟨hone, message, hmessage⟩
  · rintro ⟨hone, message, hmessage⟩
    exact ⟨_, pack_eq_error_iff.2 ⟨hone, message, hmessage, rfl⟩⟩

/-- A payload that opens as a bundle is read exactly if a row of records follows. -/
theorem unpack_eq_ok_iff :
    unpack (0x00 :: 0x19 :: body) = .ok messages ↔
      ∃ records, body = records.flatten ∧ List.Forall₂ Record.Holds records messages := by
  rw [← Record.all_eq_iff, unpack]
  rcases Record.all body with ⟨found, stop⟩
  cases stop with
  | none => simp
  | some e => simp

/-- What stops the reading of a bundle is an underflow. -/
theorem isUnderflow_of_unpack {e : ReadError} (h : unpack (0x00 :: 0x19 :: body) = .error e) : e.IsUnderflow := by
  rw [unpack] at h
  rcases hall : Record.all body with ⟨found, stop⟩
  rw [hall] at h
  cases stop with
  | none => cases h
  | some e =>
    cases h
    exact Record.isUnderflow_of_all (congrArg Prod.snd hall)

/-- Messages are packed unless one of several exceeds 65535 bytes, and are read back unless there is only one and it
opens as a bundle. A payload that opens as a bundle is read as the byte strings of its records, and fails with an
underflow if it is no row of records. -/
theorem pack_unpack_records :
    (∀ messages : List Bytes,
      ((∃ e, pack messages = .error e) ↔ messages.length ≠ 1 ∧ ∃ message ∈ messages, 65535 < message.length) ∧
      (∀ e, pack messages = .error e →
        ∃ message ∈ messages, 65535 < message.length ∧ e = .exceedsSizePrefix message.length) ∧
      ∀ payload, pack messages = .ok payload →
        ((∀ body, messages ≠ [0x00 :: 0x19 :: body]) → unpack payload = .ok messages) ∧
        (messages.length ≠ 1 → payload.length =
          2 + (messages.map fun message => SizePrefix.length message.length + message.length).sum)) ∧
    ∀ body : Bytes,
      (∀ messages, unpack (0x00 :: 0x19 :: body) = .ok messages ↔
        ∃ records, body = records.flatten ∧ List.Forall₂ Record.Holds records messages) ∧
      ((∀ messages records, body = records.flatten → ¬ List.Forall₂ Record.Holds records messages) →
        ∃ e, e.IsUnderflow ∧ unpack (0x00 :: 0x19 :: body) = .error e) := by
  constructor
  · intro messages
    refine ⟨exists_pack_eq_error_iff, fun e h => ?_, fun payload h => ⟨fun hsingle => ?_, fun hone => ?_⟩⟩
    · obtain ⟨-, message, hmessage, he⟩ := pack_eq_error_iff.1 h
      exact ⟨message, List.mem_of_find?_eq_some hmessage, by simpa using List.find?_some hmessage, he⟩
    · apply unpack_pack h
      rintro message rfl ⟨body, rfl⟩
      exact hsingle body rfl
    · rw [length_pack h hone, size_eq]
      rfl
  · intro body
    refine ⟨fun messages => unpack_eq_ok_iff, fun hnone => ?_⟩
    cases hunpack : unpack (0x00 :: 0x19 :: body) with
    | error e => exact ⟨e, isUnderflow_of_unpack hunpack, rfl⟩
    | ok messages =>
      obtain ⟨records, hbody, hrecords⟩ := unpack_eq_ok_iff.1 hunpack
      exact absurd hrecords (hnone messages records hbody)

/-- Three messages, the second of them empty; the first of them behind the long form of its size; and the row without
its last byte. -/
theorem pack_unpack_records_truncated :
    let messages : List Bytes := [[1], [], [2, 3]]
    let body : Bytes := [255, 0, 1, 1, 0, 2, 2, 3]
    pack messages = .ok [0x00, 0x19, 1, 1, 0, 2, 2, 3] ∧ unpack [0x00, 0x19, 1, 1, 0, 2, 2, 3] = .ok messages ∧
      (∃ records, body = records.flatten ∧ List.Forall₂ Record.Holds records messages) ∧
      ∃ e, e.IsUnderflow ∧ unpack (0x00 :: 0x19 :: body.dropLast) = .error e := by
  intro messages body
  obtain ⟨hpacks, hunpacks⟩ := pack_unpack_records
  have hpack : pack messages = .ok [0x00, 0x19, 1, 1, 0, 2, 2, 3] := by cbv
  have hbody : unpack (0x00 :: 0x19 :: body) = .ok messages := by cbv
  have htruncated : unpack (0x00 :: 0x19 :: body.dropLast) = .error (.underflow 2 1) := by cbv
  refine ⟨hpack, ((hpacks messages).2.2 _ hpack).1 (by simp [messages]), ((hunpacks body).1 messages).1 hbody, ?_⟩
  apply (hunpacks body.dropLast).2
  intro found records hrecords hholds
  have hfound := ((hunpacks body.dropLast).1 found).2 ⟨records, hrecords, hholds⟩
  rw [htruncated] at hfound
  cases hfound

end Bundle

end GameGateway
