import GameGateway.Numeral

/-!
# Values of plain scalars

What a plain scalar is read as when no type is expected: nothing, a truth value, an integer, a
floating-point number, or else a text. Integers are written in decimal or, behind `0x`, `0o` and `0b`, in
another base. Decimal digits after a leading zero are no number.
-/

namespace GameGateway.Yaml.Scalar

/-- The tag of truth values. -/
def booleanTag : String := "tag:yaml.org,2002:bool"

/-- The tag of integers. -/
def integerTag : String := "tag:yaml.org,2002:int"

/-- Whether a text stands for nothing. -/
def isNull (text : String) : Bool := ["", "~", "null", "Null", "NULL"].contains text

/-- The truth value that a text stands for. -/
def boolean? (text : String) : Option Bool :=
  if ["true", "True", "TRUE"].contains text then some true
  else if ["false", "False", "FALSE"].contains text then some false
  else none

/-- The characters after a sign, if one of the given signs comes first. -/
def dropSign (signs : List Char) : List Char → List Char
  | c :: rest => if signs.contains c then rest else c :: rest
  | [] => []

/-- Whether a text consists of digits after a leading zero. -/
def isPadded (text : String) : Bool :=
  match dropSign ['-', '+'] text.toList with
  | '0' :: next :: rest => (next :: rest).all Char.isDigit
  | _ => false

/-- The number that digits write behind the sign of their base, if there is one. -/
def magnitude? : List Char → Option Nat
  | '0' :: 'x' :: digits => numeral? 16 digits
  | '0' :: 'o' :: digits => numeral? 8 digits
  | '0' :: 'b' :: digits => numeral? 2 digits
  | digits => numeral? 10 digits

/-- The natural number that a text stands for. -/
def natural? (text : String) : Option Nat :=
  if isPadded text then none else magnitude? (dropSign ['+'] text.toList)

/-- Whether a text stands for an integer of at most 128 bits. -/
def isInteger (text : String) : Bool :=
  match text.toList with
  | '-' :: digits => !isPadded text && (magnitude? digits).any (· ≤ 1 <<< 127)
  | _ => (natural? text).any (· < 1 <<< 128)

/-- A number in decimal notation: `digits · 10 ^ exponent`. -/
structure Decimal where
  digits : Nat
  exponent : Int

namespace Decimal

/-- Reads the exponent behind its letter. -/
def exponent? (chars : List Char) : Option Int :=
  match chars with
  | '-' :: digits => (numeral? 10 digits).map fun n => -n
  | digits => (numeral? 10 (dropSign ['+'] digits)).map Int.ofNat

/-- Reads a number without a sign: digits around an optional point, and an optional exponent. -/
def ofChars? (chars : List Char) : Option Decimal := do
  let (whole, rest) := chars.span Char.isDigit
  let (fraction, rest) := match rest with
    | '.' :: rest => rest.span Char.isDigit
    | rest => ([], rest)
  let digits ← numeral? 10 (whole ++ fraction)
  let exponent ← match rest with
    | [] => some 0
    | e :: rest => if e = 'e' ∨ e = 'E' then exponent? rest else none
  return ⟨digits, exponent - fraction.length⟩

/-- The least number that the widest usual floating-point type rounds to infinity. -/
def floatLimit : Nat := (1 <<< 1024) - (1 <<< 970)

/-- Whether a number is small enough to be a floating-point number. The two numbers are compared only where
the place of the first digit does not decide. -/
def isFinite (number : Decimal) : Bool :=
  let places : Int := (Nat.toDigits 10 number.digits).length + number.exponent
  if number.digits = 0 ∨ places ≤ 308 then true
  else if 309 < places then false
  else if 0 ≤ number.exponent then number.digits * Nat.pow 10 number.exponent.toNat < floatLimit
  else number.digits < floatLimit * Nat.pow 10 (-number.exponent).toNat

end Decimal

/-- Whether a text stands for a floating-point number. -/
def isFloat (text : String) : Bool :=
  let unsigned := dropSign ['+', '-'] text.toList
  !isPadded text &&
    ([".inf", ".Inf", ".INF"].contains (String.ofList unsigned) ||
      [".nan", ".NaN", ".NAN"].contains text ||
      (Decimal.ofChars? unsigned).any Decimal.isFinite)

end GameGateway.Yaml.Scalar
