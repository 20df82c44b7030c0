import GameGateway.Bytes

/-!
# Checksums

Two 32-bit cyclic redundancy checks, both started and complemented with all ones. `forward` takes the
most significant bit first (polynomial `04C11DB7`) and hashes endpoint names; `reflected` takes the
least significant bit first (polynomial `EDB88320`) and, primed with the session's seed, gives the
footer of a packet.

Each is defined twice: bit by bit, and byte by byte with a table of the 256 effects of a byte.
-/

namespace GameGateway.Checksum

/-- Repeats a step of the register. -/
def shifts (step : UInt32 → UInt32) : Nat → UInt32 → UInt32
  | 0, register => register
  | n + 1, register => shifts step n (step register)

namespace Forward

/-- One bit: the register moves towards its high end. -/
def shift (register : UInt32) : UInt32 :=
  if register &&& 0x80000000 != 0 then (register <<< 1) ^^^ 0x04C11DB7 else register <<< 1

/-- One byte, bit by bit. -/
def bitStep (register : UInt32) (byte : UInt8) : UInt32 :=
  shifts shift 8 (register ^^^ (byte.toUInt32 <<< 24))

/-- The checksum by its bits. -/
def bitwise (bytes : Bytes) : UInt32 := ~~~ bytes.foldl bitStep 0xFFFFFFFF

/-- The effect of each byte on an empty register. -/
def table : Vector UInt32 256 := Vector.ofFn fun i => shifts shift 8 (UInt32.ofNat i.val <<< 24)

/-- One byte, by the table. -/
def step (register : UInt32) (byte : UInt8) : UInt32 :=
  table.get ((register >>> 24).toUInt8 ^^^ byte).toFin ^^^ (register <<< 8)

end Forward

/-- The checksum of names. -/
def forward (bytes : Bytes) : UInt32 := ~~~ bytes.foldl Forward.step 0xFFFFFFFF

namespace Reflected

/-- One bit: the register moves towards its low end. -/
def shift (register : UInt32) : UInt32 :=
  if register &&& 1 != 0 then (register >>> 1) ^^^ 0xEDB88320 else register >>> 1

/-- One byte, bit by bit. -/
def bitStep (register : UInt32) (byte : UInt8) : UInt32 :=
  shifts shift 8 (register ^^^ byte.toUInt32)

/-- The checksum by its bits. -/
def bitwise (bytes : Bytes) : UInt32 := ~~~ bytes.foldl bitStep 0xFFFFFFFF

/-- The effect of each byte on an empty register. -/
def table : Vector UInt32 256 := Vector.ofFn fun i => shifts shift 8 (UInt32.ofNat i.val)

/-- One byte, by the table. -/
def step (register : UInt32) (byte : UInt8) : UInt32 :=
  table.get (register.toUInt8 ^^^ byte).toFin ^^^ (register >>> 8)

end Reflected

/-- The checksum of packets, without a seed. -/
def reflected (bytes : Bytes) : UInt32 := ~~~ bytes.foldl Reflected.step 0xFFFFFFFF

/-- The checksum of packets: the seed's bytes, low byte first, count as written before the packet. -/
def seeded (seed : UInt32) (bytes : Bytes) : UInt32 :=
  reflected (Fixed.encode .little seed ++ bytes)

end GameGateway.Checksum
