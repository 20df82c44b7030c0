import GameGateway.Yaml.Place
import GameGateway.Yaml.Token
import GameGateway.Yaml.Scalar.Typed

/-!
# Writing scalars

A text is written plain where it then reads as a text; otherwise in single quotes, in double quotes with
escapes, or, if it has several lines, as a literal block. Lines are never folded.
-/

namespace GameGateway.Yaml.Scalar

/-- A character that can be written as it is. -/
def isPrintable (c : Char) : Bool :=
  c = '\n' || (' ' ≤ c && c ≤ '~') || ('\xA0' ≤ c && c ≤ '\uFFFD' && c ≠ byteOrderMark) ||
    0x10000 ≤ c.toNat

/-- Words that some readers take for a truth value. -/
def truthWords : List String :=
  ["y", "Y", "yes", "Yes", "YES", "n", "N", "no", "No", "NO", "true", "True", "TRUE", "false", "False",
    "FALSE", "on", "On", "ON", "off", "Off", "OFF"]

/-- Whether a text without quotes would read as something else. -/
def isAmbiguous (text : String) : Bool :=
  truthWords.contains text || isNull text || isInteger text || isFloat text || isPadded text

/-- Whether white space or the end comes first. -/
def startsWithSpace : List Char → Bool
  | [] => true
  | c :: _ => isBlank c || isBreak c || c = '\x00'

/-- Whether a character means something else than itself at the start of a plain scalar. -/
def opensMark (c : Char) (rest : List Char) : Bool :=
  ("#,[]&*!|>'\"%@".toList ++ ['\x7b', '\x7d', '\x60']).contains c ||
    (['?', ':', '-'].contains c && startsWithSpace rest)

/-- Whether a mark stands within a plain scalar; `afterSpace` says whether white space comes before. -/
def hasMark : (afterSpace : Bool) → List Char → Bool
  | _, [] => false
  | afterSpace, c :: rest =>
    (c = ':' && startsWithSpace rest) || (c = '#' && afterSpace) || hasMark (startsWithSpace [c]) rest

/-- Whether two neighbouring characters are of given kinds. -/
def hasPair (p q : Char → Bool) : List Char → Bool
  | a :: b :: rest => (p a && q b) || hasPair p q (b :: rest)
  | _ => false

/-- Whether a text may be written plain. -/
def allowsPlain (text : List Char) : Bool :=
  text.all (fun c => isPrintable c && !isBreak c) && text.head? ≠ some ' ' && text.getLast? ≠ some ' ' &&
    text.take 3 ≠ "---".toList && text.take 3 ≠ "...".toList &&
    match text with
    | [] => true
    | c :: rest => !opensMark c rest && !hasMark (startsWithSpace [c]) rest

/-- Whether a text may be written in single quotes. -/
def allowsSingleQuotes (text : List Char) : Bool :=
  text.all isPrintable && !hasPair (· = ' ') isBreak text && !hasPair isBreak (· = ' ') text

/-- Whether a text may be written as a literal block. -/
def allowsLiteral (text : List Char) : Bool :=
  !text.isEmpty && text.all isPrintable && !hasPair (· = ' ') isBreak text && text.getLast? ≠ some ' '

/-- The style in which a text is written. -/
def styleOf (text : String) : ScalarStyle :=
  let chars := text.toList
  if chars.contains '\n' then if allowsLiteral chars then .literal else .doubleQuoted
  else if !isAmbiguous text && allowsPlain chars then .plain
  else if allowsSingleQuotes chars then .singleQuoted
  else .doubleQuoted

/-- The last digits of a number in base 16. -/
def hexDigits : (count n : Nat) → List Char
  | 0, _ => []
  | count + 1, n => hexDigits count (n / 16) ++ [(Nat.digitChar (n % 16)).toUpper]

/-- A character between double quotes. What cannot be written as it is has a number of at most 16 bits. -/
def escape (c : Char) : List Char :=
  if isPrintable c && !isBreak c && c ≠ '"' && c ≠ '\\' then [c]
  else
    match c with
    | '\x00' => ['\\', '0']
    | '\x07' => ['\\', 'a']
    | '\x08' => ['\\', 'b']
    | '\t' => ['\\', 't']
    | '\n' => ['\\', 'n']
    | '\x0B' => ['\\', 'v']
    | '\x0C' => ['\\', 'f']
    | '\r' => ['\\', 'r']
    | '\x1B' => ['\\', 'e']
    | '"' => ['\\', '"']
    | '\\' => ['\\', '\\']
    | '\x85' => ['\\', 'N']
    | '\u2028' => ['\\', 'L']
    | '\u2029' => ['\\', 'P']
    | _ =>
      if c.toNat ≤ 0xFF then '\\' :: 'x' :: hexDigits 2 c.toNat
      else '\\' :: 'u' :: hexDigits 4 c.toNat

/-- The characters of a text with an indentation before every line with text; `atStart` says whether they
start a line. -/
def indentLines (indent : Nat) : (atStart : Bool) → List Char → List Char
  | _, [] => []
  | atStart, c :: rest =>
    if isBreak c then c :: indentLines indent true rest
    else (if atStart then List.replicate indent ' ' else []) ++ c :: indentLines indent false rest

/-- A text between single quotes, where quotes are doubled. -/
def renderSingleQuoted (indent : Nat) (text : List Char) : List Char :=
  let doubled := text.flatMap fun c => if c = '\'' then ['\'', '\''] else [c]
  let closing := if text.getLast?.any isBreak then List.replicate indent ' ' else []
  '\'' :: indentLines indent false doubled ++ closing ++ ['\'']

/-- The header of a literal block. Blocks are indented by two columns, which is said where the first line
does not show it. -/
def literalHeader (text : List Char) : List Char :=
  let indentation := if text.head?.any fun c => c = ' ' || isBreak c then ['2'] else []
  let chomping :=
    match text.reverse with
    | [] => ['-']
    | last :: before =>
      if !isBreak last then ['-']
      else if before.head?.all isBreak then ['+']
      else []
  '|' :: indentation ++ chomping

/-- A literal block without the line break at its end. -/
def renderLiteral (indent : Nat) (text : List Char) : List Char :=
  literalHeader text ++ '\n' :: indentLines indent true text

/-- A text as the value of a key, up to the end of the line. -/
def renderLine (indent : Nat) (text : String) : String :=
  let chars := text.toList
  let ended (written : List Char) := String.ofList (written ++ ['\n'])
  match styleOf text with
  | .plain => ended chars
  | .singleQuoted => ended (renderSingleQuoted indent chars)
  | .doubleQuoted => ended ('"' :: chars.flatMap escape ++ ['"'])
  | .literal | .folded =>
    let written := renderLiteral indent chars
    if chars.getLast?.any isBreak then String.ofList written else ended written

end GameGateway.Yaml.Scalar
