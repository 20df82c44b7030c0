import GameGateway.Bytes

/-!
# Decoders

A decoder reads a value from the front of a byte string. It answers the value or the reason why there
is none, and in both cases the bytes that it has not consumed: a read that fails in its second part
has consumed the first.

`Decoder.run_take` says when bytes can be taken, and `Decoder.run_bind` how decoders follow each
other; the laws of all composite reads come from these two.
-/

namespace GameGateway

/-- The reasons why a read fails. -/
inductive ReadError where
  /-- More bytes were asked for than are left. -/
  | underflow (requested available : Nat)
  /-- The bytes of a narrow text are not UTF-8. -/
  | invalidText (bytes : Nat)
  /-- The code units of a wide text are not UTF-16. -/
  | invalidWideText (units : Nat)
  deriving DecidableEq, Repr

/-- The text of a read error. -/
def ReadError.message : ReadError → String
  | underflow requested available =>
    "Buffer underflow: requested=" ++ toString requested ++ ", available=" ++ toString available
  | invalidText bytes => "Invalid string: " ++ toString bytes ++ " bytes are not valid UTF-8"
  | invalidWideText units =>
    "Invalid wide string: " ++ toString units ++ " code units are not valid UTF-16"

/-- Reads a value from the front of a byte string and answers what it left unread. -/
def Decoder (α : Type) : Type := Bytes → Except ReadError α × Bytes

namespace Decoder

variable {α β : Type}

/-- The outcome of a decoder on a byte string, with the unread rest. -/
def run (d : Decoder α) (bytes : Bytes) : Except ReadError α × Bytes := d bytes

/-- The value of a decoder on a byte string. -/
def value (d : Decoder α) (bytes : Bytes) : Except ReadError α := (d.run bytes).1

/-- The value of a decoder, if there is one. -/
def value? (d : Decoder α) (bytes : Bytes) : Option α := (d.value bytes).toOption

/-- Fails without consuming anything. -/
def fail (e : ReadError) : Decoder α := fun bytes => (.error e, bytes)

instance : Monad Decoder where
  pure a := fun bytes => (.ok a, bytes)
  bind d f := fun bytes =>
    match d bytes with
    | (.ok a, rest) => f a rest
    | (.error e, rest) => (.error e, rest)

@[simp] theorem run_pure (a : α) (bytes : Bytes) : (pure a : Decoder α).run bytes = (.ok a, bytes) :=
  rfl

@[simp] theorem run_fail (e : ReadError) (bytes : Bytes) :
    (fail e : Decoder α).run bytes = (.error e, bytes) := rfl

theorem run_bind (d : Decoder α) (f : α → Decoder β) (bytes : Bytes) :
    (d >>= f).run bytes =
      match d.run bytes with
      | (.ok a, rest) => (f a).run rest
      | (.error e, rest) => (.error e, rest) := rfl

theorem run_bind_ok {d : Decoder α} {f : α → Decoder β} {bytes rest : Bytes} {a : α}
    (h : d.run bytes = (.ok a, rest)) : (d >>= f).run bytes = (f a).run rest := by
  rw [run_bind, h]

theorem run_bind_error {d : Decoder α} {f : α → Decoder β} {bytes rest : Bytes} {e : ReadError}
    (h : d.run bytes = (.error e, rest)) : (d >>= f).run bytes = (.error e, rest) := by
  rw [run_bind, h]

/-- Takes `n` bytes; consumes nothing if there are fewer. -/
def take (n : Nat) : Decoder Bytes := fun bytes =>
  let front := bytes.take n
  if front.length = n then (.ok front, bytes.drop n)
  else (.error (.underflow n bytes.length), bytes)

theorem run_take (n : Nat) (bytes : Bytes) :
    (take n).run bytes =
      if n ≤ bytes.length then (.ok (bytes.take n), bytes.drop n)
      else (.error (.underflow n bytes.length), bytes) := by
  by_cases h : n ≤ bytes.length
  · simp [run, take, h]
  · have h' : ¬ bytes.length ≥ n := h
    simp only [run, take, List.length_take, h, if_false]
    rw [if_neg (by omega)]

theorem run_take_append (front rest : Bytes) :
    (take front.length).run (front ++ rest) = (.ok front, rest) := by
  simp [run_take]

/-- Takes all that is left. -/
def takeAll : Decoder Bytes := fun bytes => (.ok bytes, [])

/-- Reads a fixed-width value. -/
def fixed (α : Type) [Fixed α] (order : ByteOrder) : Decoder α := do
  let bytes ← take (Fixed.width α)
  return Fixed.decode α order bytes

theorem run_fixed (α : Type) [Fixed α] (order : ByteOrder) (bytes : Bytes) :
    (fixed α order).run bytes =
      if Fixed.width α ≤ bytes.length then
        (.ok (Fixed.decode α order (bytes.take (Fixed.width α))), bytes.drop (Fixed.width α))
      else (.error (.underflow (Fixed.width α) bytes.length), bytes) := by
  rw [fixed, run_bind, run_take]
  by_cases h : Fixed.width α ≤ bytes.length
  · rw [if_pos h, if_pos h]
    rfl
  · rw [if_neg h, if_neg h]

@[simp] theorem run_fixed_encode {α : Type} [Fixed α] (order : ByteOrder) (a : α) (rest : Bytes) :
    (fixed α order).run (Fixed.encode order a ++ rest) = (.ok a, rest) := by
  rw [run_fixed]
  simp

/-- Reads a fixed-width value and puts it back. -/
def peek (d : Decoder α) : Decoder α := fun bytes => (d.value bytes, bytes)

end Decoder

end GameGateway
