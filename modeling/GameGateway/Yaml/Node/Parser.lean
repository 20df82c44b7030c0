import GameGateway.Yaml.Node
import GameGateway.Yaml.Token.Lexer

/-!
# Reading documents

The grammar of YAML documents over tokens. A text holds exactly one document. Keys, values and entries may be
left out, and read as nothing.
-/

namespace GameGateway.Yaml

namespace Node

/-- What is known while a document is read. -/
structure Reading where
  tokens : List Token
  /-- What the handles of tags abbreviate. -/
  handles : List (String × String)
  /-- The numbers of anchors by name. A number counts the names before it. -/
  names : List (String × Nat) := []
  /-- The nodes that have been read for anchors, the one that starts last first. -/
  anchored : List (Nat × Node) := []

/-- A reader of a part of a document. -/
abbrev Reader := StateT Reading Option

namespace Reader

/-- The next token. -/
def peek : Reader (Option Token) := do return (← get).tokens.head?

/-- Drops the next token. -/
def skip : Reader Unit := modify fun reading => { reading with tokens := reading.tokens.tail }

/-- Whether one of the given tokens comes next. -/
def nextIs (tokens : List Token) : Reader Bool := do
  return (← peek).any tokens.contains

/-- The anchor of a node that is being read: its number, and how many nodes with anchors end before the node
starts. -/
structure OpenAnchor where
  number : Nat
  before : Nat

/-- Reads an anchor, if there is one, and numbers it. A name that is used again means the later node. -/
def anchor : Reader (Option OpenAnchor) := do
  match ← peek with
  | some (.anchor name) =>
    skip
    let reading ← get
    let number := reading.names.length
    set { reading with names := (name, number) :: reading.names.filter (·.1 ≠ name) }
    return some ⟨number, reading.anchored.length⟩
  | _ => return none

/-- Reads a tag, if there is one, and writes it in full. -/
def tag : Reader (Option String) := do
  match ← peek with
  | some (.tag handle rest) =>
    skip
    if handle.isEmpty then return some rest
    let expansion ← (← get).handles.lookup handle
    return some (expansion ++ rest)
  | _ => return none

/-- Reads an anchor and a tag in either order. -/
def properties : Reader (Option OpenAnchor × Option String) := do
  match ← anchor with
  | some anchor => return (some anchor, ← tag)
  | none =>
    let tag ← tag
    return (← anchor, tag)

/-- Notes the node of an anchor. -/
def note (anchor : Option OpenAnchor) (node : Node) : Reader Node := do
  if let some anchor := anchor then
    modify fun reading =>
      let inside := reading.anchored.length - anchor.before
      { reading with
        anchored := reading.anchored.take inside ++ (anchor.number, node) :: reading.anchored.drop inside }
  return node

mutual

/-- Reads a node. Blocks may start only where `inBlock` says so, and entries of a sequence that is not
indented only where `atKey` does. -/
def node : (fuel : Nat) → (inBlock atKey : Bool) → Reader Node
  | 0, _, _ => failure
  | fuel + 1, inBlock, atKey => do
    if let some (.alias name) ← peek then
      skip
      return .alias (← (← get).names.lookup name)
    let (anchor, tag) ← properties
    let next ← peek
    match next, inBlock, atKey with
    | some (.scalar text style), _, _ =>
      skip
      note anchor (.scalar text style tag)
    | some .flowSequence, _, _ =>
      skip
      note anchor (.sequence (← flowItems fuel true))
    | some .flowMapping, _, _ =>
      skip
      note anchor (.mapping (← flowPairs fuel true))
    | some .blockSequence, true, _ =>
      skip
      note anchor (.sequence (← blockItems fuel))
    | some .blockMapping, true, _ =>
      skip
      note anchor (.mapping (← blockPairs fuel))
    | some .blockEntry, _, true => note anchor (.sequence (← entries fuel))
    | _, _, _ =>
      if anchor.isNone && tag.isNone then failure
      note anchor (.scalar "" .plain tag)

/-- Reads a node, or nothing if one of the given tokens comes next. -/
def nodeUnless : (fuel : Nat) → List Token → (inBlock atKey : Bool) → Reader Node
  | 0, _, _, _ => failure
  | fuel + 1, tokens, inBlock, atKey => do
    if ← nextIs tokens then return .empty
    node fuel inBlock atKey

/-- Reads what follows a colon, or nothing if there is no colon. -/
def valueUnless : (fuel : Nat) → List Token → (inBlock : Bool) → Reader Node
  | 0, _, _ => failure
  | fuel + 1, tokens, inBlock => do
    if ← nextIs [.value] then
      skip
      nodeUnless fuel tokens inBlock inBlock
    else return .empty

/-- Reads the entries of an indented sequence and its end. -/
def blockItems : (fuel : Nat) → Reader (List Node)
  | 0 => failure
  | fuel + 1 => do
    match ← peek with
    | some .blockEntry =>
      skip
      let item ← nodeUnless fuel [.blockEntry, .blockEnd] true false
      return item :: (← blockItems fuel)
    | some .blockEnd =>
      skip
      return []
    | _ => failure

/-- Reads the entries of a sequence that is not indented. -/
def entries : (fuel : Nat) → Reader (List Node)
  | 0 => failure
  | fuel + 1 => do
    if ← nextIs [.blockEntry] then
      skip
      let item ← nodeUnless fuel [.blockEntry, .key, .value, .blockEnd] true false
      return item :: (← entries fuel)
    else return []

/-- Reads the pairs of an indented mapping and its end. -/
def blockPairs : (fuel : Nat) → Reader (List (Node × Node))
  | 0 => failure
  | fuel + 1 => do
    match ← peek with
    | some .key =>
      skip
      let key ← nodeUnless fuel [.key, .value, .blockEnd] true true
      let value ← valueUnless fuel [.key, .value, .blockEnd] true
      return (key, value) :: (← blockPairs fuel)
    | some .blockEnd =>
      skip
      return []
    | _ => failure

/-- Reads the items of a bracketed sequence and its end. A pair among the items is a mapping; where its key is
missing, the token there is dropped. -/
def flowItems : (fuel : Nat) → (first : Bool) → Reader (List Node)
  | 0, _ => failure
  | fuel + 1, first => do
    if ← nextIs [.flowSequenceEnd] then
      skip
      return []
    if !first then
      if !(← nextIs [.flowEntry]) then failure
      skip
    match ← peek with
    | some .key =>
      skip
      let key ←
        if ← nextIs [.value, .flowEntry, .flowSequenceEnd] then
          skip
          pure .empty
        else node fuel false false
      let value ← valueUnless fuel [.flowEntry, .flowSequenceEnd] false
      return .mapping [(key, value)] :: (← flowItems fuel false)
    | some .flowSequenceEnd =>
      skip
      return []
    | _ =>
      let item ← node fuel false false
      return item :: (← flowItems fuel false)

/-- Reads the pairs of a bracketed mapping and its end. A key without a mark has no value. -/
def flowPairs : (fuel : Nat) → (first : Bool) → Reader (List (Node × Node))
  | 0, _ => failure
  | fuel + 1, first => do
    if ← nextIs [.flowMappingEnd] then
      skip
      return []
    if !first then
      if !(← nextIs [.flowEntry]) then failure
      skip
    match ← peek with
    | some .key =>
      skip
      let key ← nodeUnless fuel [.value, .flowEntry, .flowMappingEnd] false false
      let value ← valueUnless fuel [.flowEntry, .flowMappingEnd] false
      return (key, value) :: (← flowPairs fuel false)
    | some .flowMappingEnd =>
      skip
      return []
    | _ =>
      let key ← node fuel false false
      return (key, .empty) :: (← flowPairs fuel false)

end

end Reader

end Node

namespace Document

/-- The handles that every document knows. -/
def standardHandles : List (String × String) := [("!", "!"), ("!!", "tag:yaml.org,2002:")]

/-- Reads the directives of a document: at most one version, and no handle twice. -/
def directives (versioned : Bool) (handles : List (String × String)) :
    List Token → Option (List (String × String) × List Token)
  | .version major minor :: rest => do
    guard (!versioned && major = 1 && (minor = 1 || minor = 2))
    directives true handles rest
  | .handle name expansion :: rest => do
    guard (handles.lookup name).isNone
    directives versioned ((name, expansion) :: handles) rest
  | rest => some (handles, rest)

/-- Whether a document starts with a mark or a directive. -/
def startsExplicitly : List Token → Bool
  | .version .. :: _ | .handle .. :: _ | .documentStart :: _ => true
  | _ => false

/-- Reads the node of a document; one that starts with a mark may be empty. -/
def readRoot (tokens : List Token) : Node.Reader Node := do
  let fuel := 4 * tokens.length + 4
  if startsExplicitly tokens then
    match ← (directives false [] tokens : Option _) with
    | (handles, .documentStart :: rest) =>
      set ({ tokens := rest, handles := handles ++ standardHandles } : Node.Reading)
      if rest.isEmpty || rest.head? = some .documentEnd || startsExplicitly rest then return .empty
      Node.Reader.node fuel true false
    | _ => failure
  else Node.Reader.node fuel true false

/-- The only document of a sequence of tokens. -/
def ofTokens? (tokens : List Token) : Option Document := do
  let (root, reading) ← (readRoot tokens).run { tokens, handles := standardHandles }
  guard (reading.tokens.all (· = .documentEnd))
  return ⟨root, reading.anchored⟩

/-- The only document of a text. -/
def ofText? (text : String) : Option Document := do ofTokens? (← Token.ofText? text)

end Document

end GameGateway.Yaml
