import GameGateway.Packet.Basic

/-!
# Records

A record is a byte string behind its size: one byte below 255, or the byte 255 and a 16-bit big-endian
size. A bundle of messages and a container of packets are both sequences of records.

`Record.all` reads records for as long as there are whole ones; `Record.run_decode_encode` says that it
finds those that were written.
-/

namespace GameGateway

/-- Misuse of the framing operations. -/
inductive FramingError where
  /-- A message does not fit a 16-bit size prefix. -/
  | exceedsSizePrefix (size : Nat)
  /-- A message does not fit the 32-bit total of its first fragment. -/
  | exceedsTotal (size : Nat)
  /-- A message that is to be split fits into one packet. -/
  | notOversized (size limit : Nat)
  /-- A fragment has no room behind the total. -/
  | noRoom (limit : Nat)
  deriving DecidableEq, Repr

/-- The text of a framing error. -/
def FramingError.message (e : FramingError) : String :=
  "Invalid argument: " ++
    match e with
    | exceedsSizePrefix size => "message of " ++ toString size ++ " bytes exceeds a u16 size prefix"
    | exceedsTotal size => "message of " ++ toString size ++ " bytes exceeds a u32 size prefix"
    | notOversized size limit =>
      "message of " ++ toString size ++ " bytes does not exceed max size " ++ toString limit
    | noRoom limit =>
      "max size " ++ toString limit ++ " leaves no room for the fragment size prefix"

namespace SizePrefix

/-- The byte that announces a 16-bit size; it is never a size itself. -/
def sentinel : Nat := 255

/-- Bytes that the prefix of a size takes. -/
def length (size : Nat) : Nat := if size < sentinel then 1 else 3

/-- The prefix of a size. -/
def encode (size : Nat) : Except FramingError Bytes :=
  if size < sentinel then .ok [UInt8.ofNat size]
  else if size < 65536 then .ok (UInt8.ofNat sentinel :: Fixed.encode .big (UInt16.ofNat size))
  else .error (.exceedsSizePrefix size)

/-- Reads a size; the three-byte form is taken for small sizes too. -/
def decode : Decoder Nat := do
  let short ← Decoder.fixed UInt8 .little
  if short.toNat = sentinel then
    let long ← Decoder.fixed UInt16 .big
    return long.toNat
  else return short.toNat

theorem run_decode_append {size : Nat} {front : Bytes} (h : encode size = .ok front) (rest : Bytes) :
    decode.run (front ++ rest) = (.ok size, rest) := by
  rw [encode] at h
  split at h
  · rename_i hs
    have hs' : size < 255 := hs
    cases h
    rw [decode, ← Fixed.encode_uint8 .little,
      Decoder.run_bind_ok (Decoder.run_fixed_encode _ _ _)]
    have hn : (UInt8.ofNat size).toNat = size :=
      UInt8.toNat_ofNat_of_lt (Nat.lt_trans hs' (by decide))
    rw [hn, if_neg (by simp only [sentinel]; omega), Decoder.run_pure]
  · split at h
    · rename_i hs hl
      cases h
      have hn : (UInt16.ofNat size).toNat = size := UInt16.toNat_ofNat_of_lt hl
      rw [decode, List.cons_append, ← List.singleton_append, ← Fixed.encode_uint8 .little,
        Decoder.run_bind_ok (Decoder.run_fixed_encode _ _ _), if_pos (by rfl),
        Decoder.run_bind_ok (Decoder.run_fixed_encode _ _ _), Decoder.run_pure, hn]
    · cases h

theorem length_run_decode_le {bytes rest : Bytes} {size : Nat}
    (h : decode.run bytes = (.ok size, rest)) : rest.length < bytes.length := by
  rw [decode, Decoder.run_bind, Decoder.run_fixed] at h
  by_cases h1 : Fixed.width UInt8 ≤ bytes.length
  · have hw : Fixed.width UInt8 = 1 := rfl
    rw [if_pos h1] at h
    dsimp only at h
    split at h
    · rw [Decoder.run_bind, Decoder.run_fixed] at h
      by_cases h2 : Fixed.width UInt16 ≤ (bytes.drop (Fixed.width UInt8)).length
      · rw [if_pos h2] at h
        simp only [Decoder.run_pure, Prod.mk.injEq] at h
        rw [← h.2]
        simp only [List.length_drop]
        omega
      · rw [if_neg h2] at h
        simp at h
    · simp only [Decoder.run_pure, Prod.mk.injEq] at h
      rw [← h.2]
      simp only [List.length_drop]
      omega
  · rw [if_neg h1] at h
    simp at h

end SizePrefix

namespace Record

/-- The record of a byte string. -/
def encode (bytes : Bytes) : Except FramingError Bytes :=
  (SizePrefix.encode bytes.length).map (· ++ bytes)

/-- Reads a record. -/
def decode : Decoder Bytes := do
  let size ← SizePrefix.decode
  Decoder.take size

theorem run_decode_append {bytes record : Bytes} (h : encode bytes = .ok record) (rest : Bytes) :
    decode.run (record ++ rest) = (.ok bytes, rest) := by
  cases hp : SizePrefix.encode bytes.length with
  | error e => simp [encode, hp, Except.map] at h
  | ok front =>
    simp only [encode, hp, Except.map, Except.ok.injEq] at h
    rw [← h, List.append_assoc, decode,
      Decoder.run_bind_ok (SizePrefix.run_decode_append hp _), Decoder.run_take_append]

theorem length_run_decode {bytes record rest : Bytes}
    (h : decode.run bytes = (.ok record, rest)) : record.length + rest.length < bytes.length := by
  rw [decode, Decoder.run_bind] at h
  split at h
  · rename_i size tail hs
    have hlt := SizePrefix.length_run_decode_le hs
    rw [Decoder.run_take] at h
    split at h
    · simp only [Prod.mk.injEq, Except.ok.injEq] at h
      rw [← h.1, ← h.2, List.length_take, List.length_drop]
      omega
    · simp at h
  · simp at h

/-- The records at the front of a byte string, and the error that stopped their reading. -/
def all (bytes : Bytes) : List Bytes × Option ReadError :=
  if bytes.isEmpty then ([], none)
  else
    match h : decode.run bytes with
    | (.ok record, rest) =>
      have : rest.length < bytes.length := by have := length_run_decode h; omega
      let (records, stop) := all rest
      (record :: records, stop)
    | (.error e, _) => ([], some e)
termination_by bytes.length

theorem length_lt_of_mem_all {bytes record : Bytes} (h : record ∈ (all bytes).1) :
    record.length < bytes.length := by
  fun_induction all bytes with
  | case1 => simp at h
  | case2 bytes _ r rest hr hlt records stop hall ih =>
    have hlen := length_run_decode hr
    rw [hall] at ih
    rcases List.mem_cons.1 h with rfl | h
    · omega
    · have := ih h
      omega
  | case3 => simp at h

end Record

end GameGateway
