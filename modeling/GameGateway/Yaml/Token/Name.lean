import GameGateway.Numeral
import GameGateway.Yaml.Place
import GameGateway.Yaml.Token

/-!
# Names in YAML texts

Anchors, tags and directives. A tag is written in full between angle brackets, or as a handle that
abbreviates its beginning, followed by the rest.
-/

namespace GameGateway.Yaml.Token

/-- Reads the longest name. -/
def readWord (places : List Place) : String × List Place :=
  let (word, rest) := places.span (isWord ·.char)
  (Place.text word, rest)

/-- Reads the name of an anchor. -/
def readAnchor (places : List Place) : Option (String × List Place) := do
  let (name, rest) := readWord places
  guard (!name.isEmpty &&
    (Place.startsWithSpace rest || ['?', ':', ',', ']', '\x7d', '%', '@', '\x60'].any (Place.startsWith · rest)))
  return (name, rest)

/-- A character that tags are made of; between brackets a few more are free. -/
def isTagChar (bracketed : Bool) (c : Char) : Bool :=
  isWord c || ";/?:@&=+$.!~*'()%".toList.contains c || (bracketed && (c = ',' || c = '[' || c = ']'))

/-- The number of bytes that follow the first byte of a character. -/
def followers? (byte : Nat) : Option Nat :=
  if byte < 0x80 then some 0
  else if byte < 0xC0 then none
  else if byte < 0xE0 then some 1
  else if byte < 0xF0 then some 2
  else if byte < 0xF8 then some 3
  else none

/-- Reads the characters of a tag, bytes given by number included; `left` bytes of a character are still
to come. -/
def readTagChars (bracketed : Bool) : (left : Nat) → List Place → Option (List Char × List Place)
  | left, [] => if left = 0 then some ([], []) else none
  | left, place :: rest =>
    if place.char = '%' then
      match rest with
      | high :: low :: rest => do
        let byte := 16 * (← digitValue? 16 high.char) + (← digitValue? 16 low.char)
        let left ← if left = 0 then followers? byte
          else if 0x80 ≤ byte ∧ byte < 0xC0 then some (left - 1) else none
        let (chars, rest) ← readTagChars bracketed left rest
        return (Char.ofNat byte :: chars, rest)
      | _ => none
    else if left ≠ 0 then none
    else if isTagChar bracketed place.char then do
      let (chars, rest) ← readTagChars bracketed 0 rest
      return (place.char :: chars, rest)
    else some ([], place :: rest)

/-- Reads what may be a handle: an exclamation mark, a name, and a second mark if there is one. -/
def readHandle (places : List Place) : Option (String × Bool × List Place) :=
  match places with
  | [] => none
  | place :: rest =>
    if place.char ≠ '!' then none
    else
      let (word, rest) := readWord rest
      match rest with
      | next :: rest =>
        if next.char = '!' then some ("!" ++ word ++ "!", true, rest)
        else some ("!" ++ word, false, next :: rest)
      | [] => some ("!" ++ word, false, [])

/-- Reads a tag between angle brackets, after the opening one. -/
def readFullTag (places : List Place) : Option (Token × List Place) := do
  let (chars, rest) ← readTagChars true 0 places
  guard (!chars.isEmpty && Place.startsWith '>' rest)
  return (.tag "" (String.ofList chars), rest.tail)

/-- Reads a tag with a handle. A lone exclamation mark is a tag of its own. -/
def readShortTag (places : List Place) : Option (Token × List Place) := do
  let (name, complete, rest) ← readHandle places
  let (chars, rest) ← readTagChars false 0 rest
  if complete then
    guard !chars.isEmpty
    return (.tag name (String.ofList chars), rest)
  else
    let written := String.ofList (name.toList.drop 1 ++ chars)
    return (if written.isEmpty then .tag "" "!" else .tag "!" written, rest)

/-- Reads a tag. -/
def readTag (inFlow : Bool) (places : List Place) : Option (Token × List Place) := do
  let (token, rest) ←
    if Place.startsWith '<' (places.drop 1) then readFullTag (places.drop 2) else readShortTag places
  guard (Place.startsWithSpace rest || (inFlow && Place.startsWith ',' rest))
  return (token, rest)

/-- Reads a part of a version. -/
def readVersionPart (places : List Place) : Option (Nat × List Place) := do
  let (digits, rest) := places.span (·.char.isDigit)
  guard (digits.length ≤ 9)
  return (← numeral? 10 (digits.map (·.char)), rest)

/-- Reads a directive after its percent sign. -/
def readDirective (places : List Place) : Option (Token × List Place) := do
  let (name, rest) := readWord places
  guard (Place.startsWithSpace rest)
  let rest := Place.skipBlanks rest
  match name with
  | "YAML" =>
    let (major, rest) ← readVersionPart rest
    guard (Place.startsWith '.' rest)
    let (minor, rest) ← readVersionPart rest.tail
    return (.version major minor, ← Place.skipRemark? rest)
  | "TAG" =>
    let (abbreviation, complete, rest) ← readHandle rest
    guard ((complete || abbreviation = "!") && !rest.isEmpty && Place.startsWithSpace rest)
    let (chars, rest) ← readTagChars true 0 (Place.skipBlanks rest)
    guard (!chars.isEmpty && Place.startsWithSpace rest)
    return (.handle abbreviation (String.ofList chars), ← Place.skipRemark? rest)
  | _ => none

end GameGateway.Yaml.Token
