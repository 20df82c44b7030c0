import GameGateway.Checksum

/-!
# The packet filter

A session that has negotiated a filter sends `[opcode][body][flag][footer]`. The flag byte is there
when compression was negotiated: 1 behind a compressed body, 0 behind a plain one. The footer is the
low end of the seeded checksum of all before it, at most four bytes, big-endian. A packet of an opcode
alone has no flag.

## Implementation notes

The compression of bodies is a parameter, `Codec`: nothing here depends on how a body is compressed,
only on whether the result is shorter.
-/

namespace GameGateway

/-- A compression of byte strings. -/
structure Codec where
  /-- The compressed form of a body, if it can be produced. -/
  deflate : Bytes → Option Bytes
  /-- The first `most` bytes, or all, of the body that a stream holds; `none` if the stream is damaged
  before they are there. -/
  inflate : (most : Nat) → Bytes → Option Bytes

/-- What a session's packets go through. The default lets packets pass unchanged. -/
structure FilterParams where
  crcSeed : UInt32 := 0
  crcLength : UInt8 := 0
  compression : Bool := false
  compressionThreshold : UInt64 := 0
  deriving DecidableEq, Repr, Inhabited

/-- Why an inbound packet is dropped. -/
inductive FilterError where
  | tooShort (length needed : Nat)
  | crcMismatch (expected actual : Nat)
  | decompression
  deriving DecidableEq, Repr

/-- The text of a filter error. -/
def FilterError.message : FilterError → String
  | tooShort length needed =>
    "Packet too short: len=" ++ toString length ++ ", need at least " ++ toString needed
  | crcMismatch expected actual =>
    "CRC mismatch: expected=0x" ++ String.ofList (Nat.toDigits 16 expected) ++
      ", actual=0x" ++ String.ofList (Nat.toDigits 16 actual)
  | decompression => "Decompression failed"

namespace FilterParams

/-- The filter before the handshake. -/
def passThrough : FilterParams := {}

/-- Bytes that the filter may add to a packet. The configured length counts as it is. -/
def overhead (params : FilterParams) : Nat := params.crcLength.toNat + params.compression.toNat

/-- Bytes of the footer. -/
def footerLength (params : FilterParams) : Nat := min params.crcLength.toNat 4

/-- The footer of a packet. -/
def footer (params : FilterParams) (packet : Bytes) : Bytes :=
  (Fixed.encode .big (Checksum.seeded params.crcSeed packet)).drop (4 - params.footerLength)

end FilterParams

namespace Filter

/-- The largest body that is inflated. -/
def maxInflated : Nat := 65536

/-- The compressed form of a body that is long enough and gets shorter. -/
def compressed? (codec : Codec) (params : FilterParams) (body : Bytes) : Option Bytes :=
  if params.compressionThreshold.toNat ≤ body.length then
    (codec.deflate body).filter fun z => z.length < body.length
  else none

/-- The packet with its flag. -/
def flagged (codec : Codec) (params : FilterParams) (packet : Bytes) : Bytes :=
  if params.compression ∧ 2 < packet.length then
    packet.take 2 ++
      match compressed? codec params (packet.drop 2) with
      | some z => z ++ [1]
      | none => packet.drop 2 ++ [0]
  else packet

/-- The datagram of a packet. -/
def encode (codec : Codec) (params : FilterParams) (packet : Bytes) : Bytes :=
  let out := flagged codec params packet
  out ++ params.footer out

/-- The body of a compressed stream, if it is not too large. -/
def inflate (codec : Codec) (stream : Bytes) : Except FilterError Bytes :=
  match codec.inflate (maxInflated + 1) stream with
  | some body => if maxInflated < body.length then .error .decompression else .ok body
  | none => .error .decompression

/-- Undoes `flagged`. Only flag 1 means compressed; any other flag is dropped. -/
def unflagged (codec : Codec) (params : FilterParams) (packet : Bytes) : Except FilterError Bytes :=
  if params.compression ∧ 2 < packet.length then
    let body := (packet.drop 2).dropLast
    if packet.getLast? = some 1 then (inflate codec body).map (packet.take 2 ++ ·)
    else .ok (packet.take 2 ++ body)
  else .ok packet

/-- The packet of a datagram. -/
def decode (codec : Codec) (params : FilterParams) (datagram : Bytes) : Except FilterError Bytes :=
  let needed := 2 + params.footerLength
  if datagram.length < needed then .error (.tooShort datagram.length needed)
  else
    let size := datagram.length - params.footerLength
    let packet := datagram.take size
    let expected := params.footer packet
    let actual := datagram.drop size
    if expected = actual then unflagged codec params packet
    else .error (.crcMismatch (Bytes.toNat .big expected) (Bytes.toNat .big actual))

end Filter

end GameGateway
