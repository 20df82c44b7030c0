import GameGateway.Numeral
import GameGateway.Yaml.Place

/-!
# Scalars on lines that are folded

Plain and quoted scalars. Blanks around a line break do not count; a single break reads as a space, and of
several breaks the first is dropped.
-/

namespace GameGateway.Yaml

/-- White space between two words of a scalar, latest character first. -/
inductive Gap where
  /-- Blanks of one line. -/
  | blanks (chars : List Char)
  /-- Line breaks; the first is absent if it was escaped. -/
  | breaks (first : Option Char) (more : List Char)

namespace Gap

/-- No white space. -/
def none : Gap := .blanks []

/-- Whether there is no white space. -/
def isNone : Gap → Bool
  | .blanks chars => chars.isEmpty
  | .breaks .. => false

/-- Whether the gap goes over a line break. -/
def isBroken : Gap → Bool
  | .blanks _ => false
  | .breaks .. => true

/-- The gap with one more blank or line break. -/
def push (c : Char) : Gap → Gap
  | .blanks chars => if isBreak c then .breaks (some c) [] else .blanks (c :: chars)
  | .breaks first more => .breaks first (if isBreak c then c :: more else more)

/-- What the gap reads as, on top of a text whose latest character is first. -/
def onto (text : List Char) : Gap → List Char
  | .blanks chars => chars ++ text
  | .breaks Option.none more => more ++ text
  | .breaks (some first) more =>
    if first ≠ '\n' then more ++ first :: text
    else if more.isEmpty then ' ' :: text
    else more ++ text

end Gap

namespace Scalar

/-- Whether a plain scalar whose indentation is at least `margin` ends before a place, which holds no white
space, given the gap before it. -/
def endsPlain (inFlow : Bool) (margin : Nat) (gap : Gap) (place : Place) (rest : List Place) : Bool :=
  (!gap.isNone &&
    (place.char = '#' || Place.startsDocumentMark (place :: rest) ||
      (!inFlow && gap.isBroken && place.column < margin))) ||
  (place.char = ':' && Place.startsWithSpace rest) ||
  (inFlow && [',', '[', ']', '\x7b', '\x7d'].contains place.char)

/-- The rest of a plain scalar, given the gap and the text before, latest character first. The second result
says whether the scalar ended at a line break. -/
def plainFrom (inFlow : Bool) (margin : Nat) :
    Gap → List Char → List Place → Option (String × Bool × List Place)
  | gap, text, [] => some (String.ofList text.reverse, gap.isBroken, [])
  | gap, text, place :: rest =>
    let c := place.char
    if isBlank c || isBreak c then
      if c = '\t' && gap.isBroken && place.column < margin then none
      else plainFrom inFlow margin (gap.push c) text rest
    else if endsPlain inFlow margin gap place rest then
      some (String.ofList text.reverse, gap.isBroken, place :: rest)
    else if c = ':' && inFlow && [',', '?', '[', ']', '\x7b', '\x7d'].any (Place.startsWith · rest) then
      none
    else plainFrom inFlow margin .none (c :: gap.onto text) rest

/-- Reads a plain scalar. -/
def plain (inFlow : Bool) (margin : Nat) (places : List Place) :
    Option (String × Bool × List Place) :=
  plainFrom inFlow margin .none [] places

/-- The quotes that a scalar stands in. -/
inductive Quotes where
  | single | double
  deriving DecidableEq, Repr

/-- The character that an escape of one character stands for. -/
def escaped? : Char → Option Char
  | '0' => some '\x00'
  | 'a' => some '\x07'
  | 'b' => some '\x08'
  | 't' | '\t' => some '\t'
  | 'n' => some '\n'
  | 'v' => some '\x0B'
  | 'f' => some '\x0C'
  | 'r' => some '\r'
  | 'e' => some '\x1B'
  | ' ' => some ' '
  | '"' => some '"'
  | '/' => some '/'
  | '\\' => some '\\'
  | 'N' => some '\x85'
  | '_' => some '\xA0'
  | 'L' => some '\u2028'
  | 'P' => some '\u2029'
  | _ => none

/-- The number of digits of an escape that gives the number of a character. -/
def codeLength? : Char → Option Nat
  | 'x' => some 2
  | 'u' => some 4
  | 'U' => some 8
  | _ => none

/-- The character of a number, if it has one. -/
def charOfCode? (code : Nat) : Option Char :=
  if code.isValidChar then some (Char.ofNat code) else none

/-- The rest of a quoted scalar, given the gap and the text before, latest character first. While `left` is
not zero, that many digits of the character number `code` are to come. -/
def quotedFrom (quotes : Quotes) :
    (left code : Nat) → Gap → List Char → List Place → Option (String × List Place)
  | _, _, _, _, [] => none
  | left + 1, code, gap, text, place :: rest => do
    let code := 16 * code + (← digitValue? 16 place.char)
    if left = 0 then quotedFrom quotes 0 0 gap ((← charOfCode? code) :: text) rest
    else quotedFrom quotes left code gap text rest
  | 0, _, gap, text, place :: rest =>
    let c := place.char
    if isBlank c || isBreak c then quotedFrom quotes 0 0 (gap.push c) text rest
    else if Place.startsDocumentMark (place :: rest) then none
    else
      let text := gap.onto text
      match quotes, c, rest with
      | .single, '\'', next :: rest =>
        if next.char = '\'' then quotedFrom quotes 0 0 .none ('\'' :: text) rest
        else some (String.ofList text.reverse, next :: rest)
      | .single, '\'', [] => some (String.ofList text.reverse, [])
      | .double, '"', rest => some (String.ofList text.reverse, rest)
      | .double, '\\', next :: rest =>
        if isBreak next.char then quotedFrom quotes 0 0 (.breaks none []) text rest
        else
          match codeLength? next.char with
          | some left => quotedFrom quotes left 0 .none text rest
          | none => do quotedFrom quotes 0 0 .none ((← escaped? next.char) :: text) rest
      | _, _, rest => quotedFrom quotes 0 0 .none (c :: text) rest

/-- Reads a quoted scalar after its first quote. -/
def quoted (quotes : Quotes) (places : List Place) : Option (String × List Place) :=
  quotedFrom quotes 0 0 .none [] places

end Scalar

end GameGateway.Yaml
