/-!
# Places of a YAML text

A YAML text is read place by place: a character with its line and column, both counted from zero. A line
break is one place, and all breaks but the line and paragraph separators read as a line feed.
-/

namespace GameGateway.Yaml

/-- A line break. -/
def isBreak (c : Char) : Bool :=
  c = '\n' || c = '\r' || c = '\x85' || c = '\u2028' || c = '\u2029'

/-- White space within a line. -/
def isBlank (c : Char) : Bool := c = ' ' || c = '\t'

/-- A character of names of anchors, directives and tag handles. -/
def isWord (c : Char) : Bool := c.isAlphanum || c = '_' || c = '-'

/-- The mark that may open a line and says nothing. -/
def byteOrderMark : Char := '\uFEFF'

/-- A character that a text may contain. -/
def isAllowed (c : Char) : Bool :=
  c = '\t' || c = '\n' || c = '\r' || (' ' ≤ c && c ≤ '~') || c = '\x85' ||
    ('\xA0' ≤ c && c ≤ '\uFFFD') || 0x10000 ≤ c.toNat

/-- A character where it stands. -/
structure Place where
  char : Char
  line : Nat
  column : Nat
  deriving Repr

namespace Place

/-- The places of characters that start at a line and column. -/
def ofChars (line column : Nat) : List Char → List Place
  | [] => []
  | '\r' :: '\n' :: rest => ⟨'\n', line, column⟩ :: ofChars (line + 1) 0 rest
  | c :: rest =>
    if c = '\u2028' ∨ c = '\u2029' then ⟨c, line, column⟩ :: ofChars (line + 1) 0 rest
    else if isBreak c then ⟨'\n', line, column⟩ :: ofChars (line + 1) 0 rest
    else ⟨c, line, column⟩ :: ofChars line (column + 1) rest

/-- The places of a text, if all its characters are allowed. -/
def ofText? (text : String) : Option (List Place) :=
  if text.toList.all isAllowed then some (ofChars 0 0 text.toList) else none

/-- The text of a run of places. -/
def text (places : List Place) : String := String.ofList (places.map (·.char))

/-- Whether a run of places starts with a character. -/
def startsWith (c : Char) : List Place → Bool
  | [] => false
  | place :: _ => place.char = c

/-- Whether a blank, a line break or the end comes first. -/
def startsWithSpace : List Place → Bool
  | [] => true
  | place :: _ => isBlank place.char || isBreak place.char

/-- The places after the blanks. -/
def skipBlanks (places : List Place) : List Place := places.dropWhile (isBlank ·.char)

/-- Whether a line starts with `---` or `...` on their own. -/
def startsDocumentMark : List Place → Bool
  | a :: b :: c :: rest =>
    a.column = 0 && (a.char = '-' || a.char = '.') && b.char = a.char && c.char = a.char &&
      startsWithSpace rest
  | _ => false

/-- The places after a line that holds only blanks and a comment. -/
def skipRemark? (places : List Place) : Option (List Place) :=
  let places := skipBlanks places
  let places :=
    if startsWith '#' places then places.dropWhile (!isBreak ·.char) else places
  match places with
  | [] => some []
  | place :: rest => if isBreak place.char then some rest else none

end Place

end GameGateway.Yaml
