import GameGateway.Deflate.Compress
import GameGateway.Deflate.Inflate
import GameGateway.Packet.Filter

/-!
# The zlib format

A zlib stream is a two-byte header, a deflated body and the body's Adler checksum. Streams with a preset
dictionary are refused, and bytes behind the stream are ignored.
-/

namespace GameGateway.Deflate

/-- The two sums of the Adler checksum. -/
def adlerSums (bytes : Bytes) : Nat × Nat :=
  bytes.foldl
    (fun (low, high) byte =>
      let low := (low + byte.toNat) % 65521
      (low, (high + low) % 65521))
    (1, 0)

/-- The Adler checksum. -/
def adler (bytes : Bytes) : UInt32 :=
  let (low, high) := adlerSums bytes
  UInt32.ofNat (high * 65536 + low)

/-- Whether two bytes open a stream: method 8, a window of at most 32 KiB, no dictionary, and a number
that 31 divides. -/
def isHeader (method flags : UInt8) : Bool :=
  method.toNat % 16 == 8 && method.toNat / 16 ≤ 7 && flags &&& 0x20 == 0 &&
    (method.toNat * 256 + flags.toNat) % 31 == 0

/-- The zlib stream of a body. -/
def zlibCompress (body : Bytes) : Bytes :=
  0x78 :: 0x9C :: (compress body ++ Fixed.encode .big (adler body))

/-- The first `most` bytes of a zlib stream's body; the checksum is read if there are fewer. -/
def zlibInflate? (most : Nat) (stream : Bytes) : Option Bytes :=
  match stream with
  | method :: flags :: rest =>
    if isHeader method flags then
      match inflate? most rest with
      | none => none
      | some (out, rest) =>
        let body := out.toList
        if most ≤ out.size then some (body.take most)
        else if rest.take 4 = Fixed.encode .big (adler body) then some body
        else none
    else none
  | _ => none

/-- The compression of packets. -/
def zlib : Codec where
  deflate body := some (zlibCompress body)
  inflate := zlibInflate?

end GameGateway.Deflate
