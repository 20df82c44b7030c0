import GameGateway.Deflate.Tables
import Std.Data.HashMap

/-!
# Deflating

A body becomes literals and copies of what came before, and these one block in the smallest of three
forms: stored, with the fixed codes, or with codes fitted to the body.

## Implementation notes

Copies are looked for among the latest places where the same three bytes stood. A copy is put off by one
byte when the next place has a longer one. Fitted codes have the least total length among codes with
words of bounded length; they come from repeatedly pairing the lightest packages of symbols.
-/

namespace GameGateway.Deflate

/-- Places at which three bytes stood, latest first. -/
abbrev Places := Std.HashMap (UInt8 × UInt8 × UInt8) (List Nat)

/-- The three bytes at a place. -/
def tripleAt? (data : Array UInt8) (i : Nat) : Option (UInt8 × UInt8 × UInt8) := do
  return (← data[i]?, ← data[i + 1]?, ← data[i + 2]?)

/-- Notes a place. -/
def Places.note (places : Places) (data : Array UInt8) (i : Nat) : Places :=
  match tripleAt? data i with
  | some triple => places.insert triple (i :: places.getD triple [])
  | none => places

/-- Notes `count` places from `i` on. -/
def Places.noteRange (data : Array UInt8) : (count i : Nat) → Places → Places
  | 0, _, places => places
  | count + 1, i, places => noteRange data count (i + 1) (places.note data i)

/-- How many bytes from two places on are equal, up to a limit. -/
def commonLength (data : Array UInt8) : (limit i j : Nat) → Nat
  | 0, _, _ => 0
  | limit + 1, i, j =>
    match data[i]?, data[j]? with
    | some a, some b => if a = b then commonLength data limit (i + 1) (j + 1) + 1 else 0
    | _, _ => 0

/-- The longest copy. -/
def maxCopy : Nat := 258

/-- The farthest copy. -/
def maxDistance : Nat := 32768

/-- How many earlier places are tried. -/
def maxTries : Nat := 128

/-- Length and distance of the longest copy that can stand at a place, (0, 0) for none. -/
def longestCopy (data : Array UInt8) (places : Places) (i : Nat) : Nat × Nat :=
  match tripleAt? data i with
  | none => (0, 0)
  | some triple =>
    ((places.getD triple []).take maxTries).foldl
      (fun best j =>
        if best.1 = maxCopy ∨ maxDistance < i - j then best
        else
          let length := commonLength data maxCopy j i
          if best.1 < length then (length, i - j) else best)
      (0, 0)

/-- The steps of a body from a place on, latest first. -/
def tokensFrom (data : Array UInt8) (i : Nat) (places : Places) (tokens : List Token) : List Token :=
  if h : i < data.size then
    let (length, distance) := longestCopy data places i
    let places := places.note data i
    if length < 3 ∨ (longestCopy data places (i + 1)).1 > length then
      tokensFrom data (i + 1) places (.literal data[i] :: tokens)
    else
      tokensFrom data (i + (length - 1) + 1) (places.noteRange data (length - 1) (i + 1))
        (.copy length distance :: tokens)
  else tokens
termination_by data.size - i

/-- The steps of a body. -/
def tokens (body : Bytes) : List Token := (tokensFrom body.toArray 0 {} []).reverse

/-- The place in a table of the range that a value falls into, with the width and value of its extra
bits. -/
def rangeOf (table : Array (Nat × Nat)) (value : Nat) : Nat × Nat × Nat :=
  let i := (table.toList.takeWhile fun row => row.1 ≤ value).length - 1
  let (base, width) := table.getD i (0, 0)
  (i, width, value - base)

/-- The symbol of a length with its extra bits. -/
def lengthSymbol (length : Nat) : Nat × Nat × Nat :=
  let (i, extra) := rangeOf lengthTable length
  (257 + i, extra)

/-- The symbol of a distance with its extra bits. -/
def distanceSymbol (distance : Nat) : Nat × Nat × Nat := rangeOf distanceTable distance

/-- The weights of the symbols below `count`. -/
def weights (count : Nat) (symbols : List Nat) : Array Nat :=
  symbols.foldl (fun table symbol => table.modify symbol (· + 1)) (Array.replicate count 0)

/-- Symbols that share a fate, with their total weight. -/
abbrev Package := Nat × List Nat

/-- Merges two lists of packages that ascend in weight. -/
def mergePackages (xs ys : List Package) : List Package :=
  List.merge xs ys fun x y => x.1 ≤ y.1

/-- Pairs neighbours; one left over is dropped. -/
def pairPackages : List Package → List Package
  | x :: y :: rest => (x.1 + y.1, x.2 ++ y.2) :: pairPackages rest
  | _ => []

/-- The packages after `n` rounds of pairing and adding the single symbols again. -/
def packageRounds (singles : List Package) : (n : Nat) → List Package
  | 0 => singles
  | n + 1 => mergePackages singles (pairPackages (packageRounds singles n))

/-- Word lengths of least total weight, none longer than `limit`. -/
def fittedLengths (limit : Nat) (weights : Array Nat) : List Nat :=
  let singles := (weights.toList.zipIdx.filterMap fun (weight, symbol) =>
    if weight = 0 then none else some (weight, [symbol])).mergeSort fun x y => x.1 ≤ y.1
  let zeros := Array.replicate weights.size 0
  match singles with
  | [] => zeros.toList
  | [(_, symbols)] => (symbols.foldl (fun table symbol => table.setIfInBounds symbol 1) zeros).toList
  | _ =>
    let chosen := (packageRounds singles (limit - 1)).take (2 * singles.length - 2)
    (chosen.foldl
      (fun table package => package.2.foldl (fun table symbol => table.modify symbol (· + 1)) table)
      zeros).toList

/-- The literal or length symbols of a block. -/
def literalSymbols (tokens : List Token) : List Nat :=
  tokens.map (fun
    | .literal byte => byte.toNat
    | .copy length _ => (lengthSymbol length).1) ++ [endOfBlock]

/-- The distance symbols of a block. -/
def distanceSymbols (tokens : List Token) : List Nat :=
  tokens.filterMap fun
    | .literal _ => none
    | .copy _ distance => some (distanceSymbol distance).1

/-- The bits of a block's steps in given codes. -/
def tokenBits (literals distances : Code) (tokens : List Token) : List Bool :=
  let literalWords := literals.words 288
  let distanceWords := distances.words 32
  tokens.flatMap (fun
    | .literal byte => literalWords.getD byte.toNat []
    | .copy length distance =>
      let (symbol, width, extra) := lengthSymbol length
      let (symbol', width', extra') := distanceSymbol distance
      literalWords.getD symbol [] ++ bits width extra ++ distanceWords.getD symbol' [] ++
        bits width' extra') ++
    literalWords.getD endOfBlock []

/-- A run of zero lengths as symbols with extra bits. -/
def zeroRun (count : Nat) : List (Nat × Nat × Nat) :=
  if 11 ≤ count then (18, 7, min count 138 - 11) :: zeroRun (count - min count 138)
  else if 3 ≤ count then [(17, 3, count - 3)]
  else List.replicate count (0, 0, 0)
termination_by count
decreasing_by omega

/-- Repetitions of the length before as symbols with extra bits. -/
def repeatRun (length count : Nat) : List (Nat × Nat × Nat) :=
  if 3 ≤ count then (16, 2, min count 6 - 3) :: repeatRun length (count - min count 6)
  else List.replicate count (length, 0, 0)
termination_by count
decreasing_by omega

/-- Word lengths as symbols with extra bits. -/
def lengthRuns (lengths : List Nat) : List (Nat × Nat × Nat) :=
  (lengths.splitBy (· == ·)).flatMap fun
    | [] => []
    | 0 :: rest => zeroRun (rest.length + 1)
    | length :: rest => (length, 0, 0) :: repeatRun length rest.length

/-- A list without its trailing zeros, but with at least `least` entries. -/
def trimZeros (least : Nat) (lengths : List Nat) : List Nat :=
  let kept := (lengths.reverse.dropWhile (· == 0)).length
  lengths.take (max least kept)

/-- The bits of a block with fitted codes. -/
def fittedBlock (tokens : List Token) : List Bool :=
  let literals := trimZeros 257 (fittedLengths 15 (weights 286 (literalSymbols tokens)))
  let distances := trimZeros 1 (fittedLengths 15 (weights 30 (distanceSymbols tokens)))
  let runs := lengthRuns (literals ++ distances)
  let short := fittedLengths 7 (weights 19 (runs.map (·.1)))
  let sent := trimZeros 4 (lengthOrder.map fun symbol => short.getD symbol 0)
  let shortWords := (Code.ofLengths short).words 19
  bits 2 2 ++ bits 5 (literals.length - 257) ++ bits 5 (distances.length - 1) ++
    bits 4 (sent.length - 4) ++ sent.flatMap (bits 3) ++
    runs.flatMap (fun (symbol, width, extra) => shortWords.getD symbol [] ++ bits width extra) ++
    tokenBits (Code.ofLengths literals) (Code.ofLengths distances) tokens

/-- The bits of a block with the fixed codes. -/
def fixedBlock (tokens : List Token) : List Bool :=
  bits 2 1 ++ tokenBits fixedCode fixedDistanceCode tokens

/-- The largest stored block. -/
def maxStored : Nat := 65535

/-- A body as stored blocks. -/
def storedBlocks (body : Bytes) : Bytes :=
  let front := body.take maxStored
  let count := UInt16.ofNat front.length
  let last : UInt8 := if body.length ≤ maxStored then 1 else 0
  last :: (Fixed.encode .little count ++ Fixed.encode .little (~~~ count)) ++ front ++
    (if maxStored < body.length then storedBlocks (body.drop maxStored) else [])
termination_by body.length
decreasing_by
  have h : 0 < maxStored := by decide
  simp only [List.length_drop]
  omega

/-- Deflates a body. -/
def compress (body : Bytes) : Bytes :=
  let steps := tokens body
  let fixed := fixedBlock steps
  let fitted := fittedBlock steps
  let packed := packBits (true :: if fitted.length < fixed.length then fitted else fixed)
  let stored := storedBlocks body
  if stored.length < packed.length then stored else packed

end GameGateway.Deflate
