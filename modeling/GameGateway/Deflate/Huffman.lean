import GameGateway.Deflate.Bits

/-!
# Canonical prefix codes

A code is given by the length of each symbol's word: words of one length are consecutive numbers in the
order of their symbols, and shorter words come first. It is kept as one row of symbols for each length.
-/

namespace GameGateway.Deflate

/-- The symbols with words of 1, 2, … bits, each row in ascending order. -/
abbrev Code := List (Array Nat)

namespace Code

/-- The longest word of literals, lengths and distances. -/
def maxLength : Nat := 15

/-- The code whose word lengths are given, 0 for a symbol without a word. -/
def ofLengths (lengths : List Nat) : Code :=
  let empty : Code := List.replicate maxLength #[]
  lengths.zipIdx.foldl
    (fun code (length, symbol) =>
      if length = 0 then code else code.modify (length - 1) (·.push symbol))
    empty

/-- How many symbols have words. -/
def used (code : Code) : Nat := code.foldl (fun count row => count + row.size) 0

/-- What is left of the space of words, in units of the words of one bit more than the rows so far;
`none` if the rows need more than there is. -/
def room? : Code → Option Nat
  | rows => rows.foldlM
    (fun room row => if row.size ≤ 2 * room then some (2 * room - row.size) else none) 1

/-- Whether every bit sequence is decoded. -/
def isComplete (code : Code) : Bool := code.room? == some 0

/-- Whether a stream may use this code: it is complete or has one word at most. -/
def isUsable (code : Code) : Bool := code.isComplete || code.used ≤ 1

/-- Reads a symbol. `offset` is the number read so far less the first word of that length. -/
def symbolFrom? (offset : Nat) : Code → BitStream → Option (Nat × BitStream)
  | [], _ => none
  | row :: rows, s =>
    match s.next? with
    | none => none
    | some (bit, s) =>
      let offset := 2 * offset + bit.toNat
      if h : offset < row.size then some (row[offset], s)
      else symbolFrom? (offset - row.size) rows s

/-- Reads a symbol. -/
def symbol? (code : Code) (s : BitStream) : Option (Nat × BitStream) := symbolFrom? 0 code s

theorem size_symbolFrom? {offset symbol : Nat} {code : Code} {s t : BitStream}
    (h : symbolFrom? offset code s = some (symbol, t)) : t.size < s.size := by
  induction code generalizing offset s with
  | nil => simp [symbolFrom?] at h
  | cons row rows ih =>
    rw [symbolFrom?] at h
    split at h
    · cases h
    · rename_i bit u hu
      have hs := BitStream.size_next? hu
      dsimp only at h
      split at h
      · simp only [Option.some.injEq, Prod.mk.injEq] at h
        rw [← h.2]
        omega
      · have := ih h
        omega

theorem size_symbol? {symbol : Nat} {code : Code} {s t : BitStream}
    (h : code.symbol? s = some (symbol, t)) : t.size < s.size := size_symbolFrom? h

/-- The words of all symbols below `symbols`, most significant bit first. -/
def words (symbols : Nat) (code : Code) : Array (List Bool) :=
  let start : Nat × Nat × Array (List Bool) := (1, 0, Array.replicate symbols [])
  (code.foldl
    (fun (length, first, table) row =>
      let table := row.toList.zipIdx.foldl
        (fun table (symbol, i) =>
          table.setIfInBounds symbol (bits length (first + i)).reverse)
        table
      (length + 1, 2 * (first + row.size), table))
    start).2.2

end Code

end GameGateway.Deflate
