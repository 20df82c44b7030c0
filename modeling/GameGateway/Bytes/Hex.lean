import GameGateway.Bytes
import GameGateway.Numeral

/-!
# Bytes in hexadecimal

Two digits for each byte, the high half first. `Bytes.ofHex?_hexDigits` says that what is written reads back.
-/

namespace GameGateway.Bytes

/-- The digits of a byte string. -/
def hexDigits (bytes : Bytes) : List Char :=
  bytes.flatMap fun byte => [Nat.digitChar (byte.toNat / 16), Nat.digitChar (byte.toNat % 16)]

/-- A byte string in hexadecimal. -/
def hex (bytes : Bytes) : String := String.ofList (hexDigits bytes)

/-- The bytes that pairs of digits write. -/
def ofHex? : List Char → Option Bytes
  | [] => some []
  | [_] => none
  | high :: low :: rest => do
    let byte := UInt8.ofNat (16 * (← digitValue? 16 high) + (← digitValue? 16 low))
    return byte :: (← ofHex? rest)

theorem digitValue?_digitChar : ∀ d : Fin 16, digitValue? 16 (Nat.digitChar d) = some d.val := by
  decide

theorem ofHex?_hexDigits (bytes : Bytes) : ofHex? (hexDigits bytes) = some bytes := by
  induction bytes with
  | nil => rfl
  | cons byte bytes ih =>
    have hlt := byte.toNat_lt
    have high := digitValue?_digitChar ⟨byte.toNat / 16, by omega⟩
    have low := digitValue?_digitChar ⟨byte.toNat % 16, by omega⟩
    have whole : 16 * (byte.toNat / 16) + byte.toNat % 16 = byte.toNat := by omega
    have written : UInt8.ofNat byte.toNat = byte := UInt8.ofNat_toNat
    simp only [hexDigits] at ih
    simp only [hexDigits, List.flatMap_cons, List.cons_append, List.nil_append, ofHex?, high, low, ih,
      Option.bind_eq_bind, Option.bind_some, Option.pure_def, whole, written]

end GameGateway.Bytes
