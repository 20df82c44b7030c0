import GameGateway.Yaml.Scalar.Block
import GameGateway.Yaml.Scalar.Flow
import GameGateway.Yaml.Token.Name

/-!
# Reading tokens

Tokens are read from left to right. In block context the column of a token closes the blocks that are
indented more. A key is known as one only at the colon behind it: until then it is pending, and the colon
inserts the tokens that belong before it. A pending key lapses at the end of its line and after 1024
characters; a key that its column requires may not lapse.
-/

namespace GameGateway.Yaml

/-- A token that turns out to be a key if a colon follows. -/
structure PendingKey where
  /-- Tokens before it. -/
  index : Nat
  line : Nat
  column : Nat
  /-- Whether nothing but a key may stand there. -/
  required : Bool
  deriving Repr

/-- A text of which some tokens have been read. -/
structure Lexer where
  rest : List Place
  tokens : Array Token := #[]
  /-- The columns of the open blocks, innermost first. -/
  columns : List Nat := []
  /-- The pending key in each open bracket and outside of all, innermost first. -/
  keys : List (Option PendingKey) := [none]
  /-- Whether a key may start here. -/
  keyAllowed : Bool := true

namespace Lexer

/-- The length at which a pending key lapses. -/
def maxKeyLength : Nat := 1024

/-- Whether a bracket is open. -/
def inFlow (lexer : Lexer) : Bool := 1 < lexer.keys.length

/-- The least column of what belongs to the innermost block. -/
def margin (lexer : Lexer) : Nat := lexer.columns.head?.elim 0 (· + 1)

/-- The lexer after a token. -/
def push (lexer : Lexer) (token : Token) (rest : List Place) : Lexer :=
  { lexer with tokens := lexer.tokens.push token, rest }

/-- Skips white space and comments. A line break outside of brackets allows a key. -/
def skipFrom (inFlow : Bool) : (keyAllowed inComment : Bool) → List Place → Bool × List Place
  | keyAllowed, _, [] => (keyAllowed, [])
  | keyAllowed, inComment, place :: rest =>
    let c := place.char
    if isBreak c then skipFrom inFlow (keyAllowed || !inFlow) false rest
    else if inComment || c = ' ' || (c = '\t' && (inFlow || !keyAllowed)) ||
        (c = byteOrderMark && place.column = 0) then
      skipFrom inFlow keyAllowed inComment rest
    else if c = '#' then skipFrom inFlow keyAllowed true rest
    else (keyAllowed, place :: rest)

/-- The lexer before its next token. -/
def skip (lexer : Lexer) : Lexer :=
  let (keyAllowed, rest) := skipFrom lexer.inFlow lexer.keyAllowed false lexer.rest
  { lexer with keyAllowed, rest }

/-! ## Pending keys -/

/-- The key that is still pending at a place. -/
def lapse (place : Place) : Option PendingKey → Option (Option PendingKey)
  | none => some none
  | some key =>
    if key.line = place.line ∧ place.column ≤ key.column + maxKeyLength then some (some key)
    else if key.required then none
    else some none

/-- Drops the keys that have lapsed. -/
def lapseKeys (place : Place) (lexer : Lexer) : Option Lexer := do
  return { lexer with keys := ← lexer.keys.mapM (lapse place) }

/-- Drops the innermost pending key. -/
def dropKey (lexer : Lexer) : Option Lexer :=
  match lexer.keys with
  | some key :: outer => if key.required then none else some { lexer with keys := none :: outer }
  | _ => some lexer

/-- Makes the token that starts at a place a pending key, where a key is allowed. -/
def offerKey (place : Place) (lexer : Lexer) : Option Lexer :=
  if lexer.keyAllowed then do
    let lexer ← lexer.dropKey
    let key : PendingKey :=
      { index := lexer.tokens.size
        line := place.line
        column := place.column
        required := !lexer.inFlow && lexer.columns.head? = some place.column }
    return { lexer with keys := some key :: lexer.keys.tail }
  else some lexer

/-! ## Blocks -/

/-- Closes the innermost blocks whose columns are all of a kind. -/
def closeWhile (p : Nat → Bool) (lexer : Lexer) : Lexer :=
  if lexer.inFlow then lexer
  else
    let (closed, columns) := lexer.columns.span p
    { lexer with columns, tokens := lexer.tokens ++ Array.replicate closed.length .blockEnd }

/-- Closes all blocks. -/
def closeAll (lexer : Lexer) : Lexer := lexer.closeWhile fun _ => true

/-- Opens a block at a column, unless the innermost one is at least as much indented. Its first token goes to
the given index. -/
def openBlock (column index : Nat) (token : Token) (lexer : Lexer) : Lexer :=
  if !lexer.inFlow && lexer.columns.head?.all (· < column) then
    { lexer with
      columns := column :: lexer.columns
      tokens := lexer.tokens.insertIdxIfInBounds index token }
  else lexer

/-- Opens a block for an entry, where one may start. -/
def openEntry (place : Place) (token : Token) (lexer : Lexer) : Option Lexer :=
  if lexer.inFlow then some lexer
  else if lexer.keyAllowed then some (lexer.openBlock place.column lexer.tokens.size token)
  else none

/-! ## Tokens -/

/-- A mark that separates or closes. -/
def readMark (token : Token) (keyAllowed : Bool) (rest : List Place) (lexer : Lexer) : Option Lexer := do
  return { (← lexer.dropKey).push token rest with keyAllowed }

/-- A mark between documents. -/
def readDocumentMark (token : Token) (rest : List Place) (lexer : Lexer) : Option Lexer :=
  lexer.closeAll.readMark token false rest

/-- An opening bracket. -/
def readOpening (token : Token) (place : Place) (rest : List Place) (lexer : Lexer) : Option Lexer := do
  let lexer := (← lexer.offerKey place).push token rest
  return { lexer with keys := none :: lexer.keys, keyAllowed := true }

/-- A closing bracket. -/
def readClosing (token : Token) (rest : List Place) (lexer : Lexer) : Option Lexer := do
  let lexer ← lexer.readMark token false rest
  return if lexer.inFlow then { lexer with keys := lexer.keys.tail } else lexer

/-- The mark of a sequence entry. -/
def readEntry (place : Place) (rest : List Place) (lexer : Lexer) : Option Lexer := do
  (← lexer.openEntry place .blockSequence).readMark .blockEntry true rest

/-- The mark of an explicit key. -/
def readKey (place : Place) (rest : List Place) (lexer : Lexer) : Option Lexer := do
  (← lexer.openEntry place .blockMapping).readMark .key (!lexer.inFlow) rest

/-- The colon before a value. -/
def readValue (place : Place) (rest : List Place) (lexer : Lexer) : Option Lexer :=
  match lexer.keys with
  | some key :: outer =>
    let lexer := { lexer with
      keys := none :: outer
      keyAllowed := false
      tokens := lexer.tokens.insertIdxIfInBounds key.index .key }
    some ((lexer.openBlock key.column key.index .blockMapping).push .value rest)
  | _ => do
    let lexer ← lexer.openEntry place .blockMapping
    return { lexer.push .value rest with keyAllowed := !lexer.inFlow }

/-- A token that may be a key, given what is read at its place. -/
def readKeyable (place : Place) (found : Option (Token × List Place)) (lexer : Lexer) : Option Lexer := do
  let lexer ← lexer.offerKey place
  let (token, rest) ← found
  return { lexer.push token rest with keyAllowed := false }

/-- A quoted scalar. -/
def readQuoted (quotes : Scalar.Quotes) (style : ScalarStyle) (place : Place) (rest : List Place)
    (lexer : Lexer) : Option Lexer :=
  lexer.readKeyable place <| (Scalar.quoted quotes rest).map fun (text, rest) => (.scalar text style, rest)

/-- A block scalar. -/
def readBlockScalar (folded : Bool) (rest : List Place) (lexer : Lexer) : Option Lexer := do
  let (text, rest) ← Scalar.block folded lexer.columns.head? rest
  lexer.readMark (.scalar text (if folded then .folded else .literal)) true rest

/-- A plain scalar. One that ends at a line break allows a key. -/
def readPlain (place : Place) (rest : List Place) (lexer : Lexer) : Option Lexer := do
  let (text, keyAllowed, rest) ← Scalar.plain lexer.inFlow lexer.margin (place :: rest)
  return { (← lexer.offerKey place).push (.scalar text .plain) rest with keyAllowed }

/-- The lexer after the token that starts at a place. -/
def read (place : Place) (rest : List Place) (lexer : Lexer) : Option Lexer :=
  if place.column = 0 ∧ place.char = '%' then do
    let (token, rest) ← Token.readDirective rest
    lexer.readDocumentMark token rest
  else if Place.startsDocumentMark (place :: rest) then
    lexer.readDocumentMark (if place.char = '-' then .documentStart else .documentEnd) (rest.drop 2)
  else
    match place.char with
    | '[' => lexer.readOpening .flowSequence place rest
    | '\x7b' => lexer.readOpening .flowMapping place rest
    | ']' => lexer.readClosing .flowSequenceEnd rest
    | '\x7d' => lexer.readClosing .flowMappingEnd rest
    | ',' => lexer.readMark .flowEntry true rest
    | '-' => if Place.startsWithSpace rest then lexer.readEntry place rest else lexer.readPlain place rest
    | '?' =>
      if lexer.inFlow || Place.startsWithSpace rest then lexer.readKey place rest
      else lexer.readPlain place rest
    | ':' =>
      if lexer.inFlow || Place.startsWithSpace rest then lexer.readValue place rest
      else lexer.readPlain place rest
    | '*' => lexer.readKeyable place <| (Token.readAnchor rest).map fun (name, rest) => (.alias name, rest)
    | '&' => lexer.readKeyable place <| (Token.readAnchor rest).map fun (name, rest) => (.anchor name, rest)
    | '!' => lexer.readKeyable place (Token.readTag lexer.inFlow (place :: rest))
    | '|' => if lexer.inFlow then none else lexer.readBlockScalar false rest
    | '>' => if lexer.inFlow then none else lexer.readBlockScalar true rest
    | '\'' => lexer.readQuoted .single .singleQuoted place rest
    | '"' => lexer.readQuoted .double .doubleQuoted place rest
    | '\t' | '%' | '@' | '\x60' => none
    | _ => lexer.readPlain place rest

/-- Reads tokens up to the end, at most as many as the fuel says. -/
def run : (fuel : Nat) → Lexer → Option (List Token)
  | 0, _ => none
  | fuel + 1, lexer =>
    let lexer := lexer.skip
    match lexer.rest with
    | [] => do return (← lexer.closeAll.dropKey).tokens.toList
    | place :: rest => do
      let lexer ← lexer.lapseKeys place
      run fuel (← (lexer.closeWhile (place.column < ·)).read place rest)

end Lexer

/-- The tokens of a text. Every token takes at least one place. -/
def Token.ofText? (text : String) : Option (List Token) := do
  let places ← Place.ofText? text
  Lexer.run (places.length + 1) { rest := places }

end GameGateway.Yaml
