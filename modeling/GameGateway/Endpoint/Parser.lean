import GameGateway.Endpoint
import GameGateway.Numeral

/-!
# Reading endpoints

An octet has up to three decimal digits and no leading zero, a group up to four hexadecimal digits, a
port any number of decimal digits. `::` stands for at least one group of zeros, and the last two groups
of an IPv6 address may be dotted.
-/

namespace GameGateway

/-- The pieces of a text between the occurrences of a separator. -/
def piecesBetween (separator : Char) (text : List Char) : List (List Char) :=
  text.foldr
    (fun c pieces =>
      if c = separator then [] :: pieces
      else match pieces with
        | [] => [[c]]
        | piece :: rest => (c :: piece) :: rest)
    [[]]

/-- The text before the first occurrence of a pair of characters and the text after it. -/
def splitAtPair? (a b : Char) : List Char → Option (List Char × List Char)
  | x :: y :: rest =>
    if x = a ∧ y = b then some ([], rest)
    else (splitAtPair? a b (y :: rest)).map fun (before, after) => (x :: before, after)
  | _ => none

namespace Address

/-- Reads an octet. -/
def octet? (digits : List Char) : Option UInt8 := do
  guard (digits.length ≤ 3 ∧ (digits.head? ≠ some '0' ∨ digits.length = 1))
  let value ← numeral? 10 digits
  guard (value < 256)
  return UInt8.ofNat value

/-- Reads four dotted octets. -/
def octets? (text : List Char) : Option (UInt8 × UInt8 × UInt8 × UInt8) :=
  match piecesBetween '.' text with
  | [a, b, c, d] => do return (← octet? a, ← octet? b, ← octet? c, ← octet? d)
  | _ => none

/-- Reads a hexadecimal group. -/
def group? (digits : List Char) : Option UInt16 := do
  guard (digits.length ≤ 4)
  return UInt16.ofNat (← numeral? 16 digits)

/-- Reads groups; the last piece may be four dotted octets where `dottedEnd` allows it. -/
def pieces? (dottedEnd : Bool) : List (List Char) → Option (List UInt16)
  | [] => some []
  | [last] =>
    match group? last, dottedEnd, octets? last with
    | some group, _, _ => some [group]
    | none, true, some (a, b, c, d) =>
      some [Fixed.decode UInt16 .big [a, b], Fixed.decode UInt16 .big [c, d]]
    | _, _, _ => none
  | piece :: rest => do return (← group? piece) :: (← pieces? dottedEnd rest)

/-- Reads the groups on one side of `::`. -/
def groups? (dottedEnd : Bool) (text : List Char) : Option (List UInt16) :=
  if text.isEmpty then some [] else pieces? dottedEnd (piecesBetween ':' text)

/-- The address of eight groups. -/
def ofGroups? (groups : List UInt16) (scope : UInt32) : Option Address :=
  if h : groups.toArray.size = 8 then some (.v6 ⟨groups.toArray, h⟩ scope) else none

/-- Reads an IPv6 address. -/
def v6? (text : List Char) (scope : UInt32) : Option Address :=
  match splitAtPair? ':' ':' text with
  | some (before, after) => do
    let before ← groups? false before
    let after ← groups? true after
    guard (before.length + after.length < 8)
    ofGroups? (before ++ List.replicate (8 - before.length - after.length) 0 ++ after) scope
  | none => do ofGroups? (← groups? true text) scope

end Address

namespace Endpoint

/-- Reads a port. -/
def port? (digits : List Char) : Option UInt16 := do
  let value ← numeral? 10 digits
  guard (value < 65536)
  return UInt16.ofNat value

/-- Reads a scope number. -/
def scope? (digits : List Char) : Option UInt32 := do
  let value ← numeral? 10 digits
  guard (value < 4294967296)
  return UInt32.ofNat value

/-- Reads an endpoint. -/
def parse? (text : String) : Option Endpoint :=
  match text.toList with
  | '[' :: rest =>
    match splitAtPair? ']' ':' rest with
    | some (inner, digits) => do
      let port ← port? digits
      match piecesBetween '%' inner with
      | [address] => return ⟨← Address.v6? address 0, port⟩
      | [address, scope] => return ⟨← Address.v6? address (← scope? scope), port⟩
      | _ => none
    | none => none
  | chars =>
    match piecesBetween ':' chars with
    | [address, digits] => do
      let (a, b, c, d) ← Address.octets? address
      return ⟨.v4 a b c d, ← port? digits⟩
    | _ => none

end Endpoint

end GameGateway
