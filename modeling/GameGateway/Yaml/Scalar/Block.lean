import GameGateway.Numeral
import GameGateway.Yaml.Place

/-!
# Block scalars

A block scalar is a header and the indented lines below it. Its indentation is given in the header or taken
from the first line with text. A literal scalar keeps its line breaks; a folded one joins neighbouring
lines that do not start with a blank. The header also says what becomes of the breaks at the end.
-/

namespace GameGateway.Yaml.Scalar

/-- What becomes of the line breaks at the end of a block scalar. -/
inductive Chomping where
  | strip | clip | keep
  deriving DecidableEq, Repr

/-- The chomping that a header character asks for. -/
def Chomping.ofChar? : Char → Option Chomping
  | '+' => some .keep
  | '-' => some .strip
  | _ => none

/-- The first line of a block scalar. -/
structure BlockHeader where
  chomping : Chomping := .clip
  /-- Columns that the lines stand to the right of the parent. -/
  indentation : Option Nat := none

namespace BlockHeader

/-- Reads the chomping, if there is one. -/
def chompingFrom : List Place → Option Chomping × List Place
  | [] => (none, [])
  | place :: rest =>
    match Chomping.ofChar? place.char with
    | some chomping => (some chomping, rest)
    | none => (none, place :: rest)

/-- Reads the indentation, if there is one; it is not zero. -/
def indentationFrom : List Place → Option (Option Nat × List Place)
  | [] => some (none, [])
  | place :: rest =>
    match digitValue? 10 place.char with
    | some 0 => none
    | some n => some (some n, rest)
    | none => some (none, place :: rest)

/-- Reads a header; its two parts come in either order. -/
def read (places : List Place) : Option (BlockHeader × List Place) := do
  let (before, rest) := chompingFrom places
  let (indentation, rest) ← indentationFrom rest
  let (after, rest) := if before.isNone && indentation.isSome then chompingFrom rest else (none, rest)
  return (⟨(before.or after).getD .clip, indentation⟩, ← Place.skipRemark? rest)

end BlockHeader

/-- The lines of a block scalar that have been read. -/
structure BlockLines where
  /-- The column of the lines, once it is known. -/
  margin : Option Nat
  /-- The least column that the first line with text may determine. -/
  least : Nat
  /-- Latest character first. -/
  text : List Char := []
  /-- The break of the latest line with text. -/
  lastBreak : Option Char := none
  /-- The breaks of the empty lines since, latest first. -/
  empties : List Char := []
  /-- Whether the latest line with text starts with a blank. -/
  startsBlank : Bool := false

namespace BlockLines

/-- Lines that a first character of a new line is added to. -/
def startLine (folded : Bool) (c : Char) (lines : BlockLines) : BlockLines :=
  let joins := folded && lines.lastBreak = some '\n' && !lines.startsBlank && !isBlank c
  let text :=
    if !joins then lines.lastBreak.toList ++ lines.text
    else if lines.empties.isEmpty then ' ' :: lines.text
    else lines.text
  { lines with
    text := c :: (lines.empties ++ text)
    lastBreak := none
    empties := []
    startsBlank := isBlank c }

/-- The text of the lines. -/
def close (chomping : Chomping) (lines : BlockLines) : String :=
  let text := match chomping with
    | .strip => lines.text
    | .clip => lines.lastBreak.toList ++ lines.text
    | .keep => lines.empties ++ (lines.lastBreak.toList ++ lines.text)
  String.ofList text.reverse

/-- Reads the lines of a block scalar up to the first one that is less indented; `inLine` says whether the
places start within a line with text. -/
def read (folded : Bool) : (inLine : Bool) → BlockLines → List Place → Option (BlockLines × List Place)
  | _, lines, [] => some (lines, [])
  | true, lines, place :: rest =>
    if isBreak place.char then
      read folded false { lines with lastBreak := some place.char } rest
    else read folded true { lines with text := place.char :: lines.text } rest
  | false, lines, place :: rest =>
    if isBreak place.char then
      read folded false
        { lines with empties := place.char :: lines.empties, least := max lines.least place.column } rest
    else
      let indents := lines.margin.all (place.column < ·)
      if place.char = ' ' && indents then read folded false lines rest
      else if place.char = '\t' && indents then none
      else
        let margin := lines.margin.getD (max lines.least place.column)
        if place.column = margin then
          read folded true ({ lines with margin := some margin }.startLine folded place.char) rest
        else some (lines, place :: rest)

end BlockLines

/-- Reads a block scalar after its first character. The parent is the column of the block that the scalar
stands in, if there is one. -/
def block (folded : Bool) (parent : Option Nat) (places : List Place) : Option (String × List Place) := do
  let (header, rest) ← BlockHeader.read places
  let lines : BlockLines :=
    { margin := header.indentation.map (parent.getD 0 + ·)
      least := max 1 (parent.elim 0 (· + 1)) }
  let (lines, rest) ← lines.read folded false rest
  return (lines.close header.chomping, rest)

end GameGateway.Yaml.Scalar
