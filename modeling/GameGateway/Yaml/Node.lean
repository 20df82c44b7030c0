import GameGateway.Yaml.Token

/-!
# Nodes of a YAML document

What a YAML document says: scalars, sequences and mappings. A node with an anchor can be named again later,
even inside itself, so an alias is the number of an anchor and the document knows what it stands for.
-/

namespace GameGateway.Yaml

/-- A node of a document. -/
inductive Node where
  | scalar (text : String) (style : ScalarStyle) (tag : Option String)
  | sequence (items : List Node)
  | mapping (pairs : List (Node × Node))
  /-- The node with the anchor of the given number. -/
  | alias (anchor : Nat)

/-- A document. -/
structure Document where
  root : Node
  /-- The nodes with anchors, by number. -/
  anchored : List (Nat × Node)

namespace Node

/-- What stands where nothing is written. -/
def empty : Node := .scalar "" .plain none

end Node

namespace Document

/-- The node that an alias stands for; any other node stands for itself. -/
def resolve? (document : Document) : Node → Option Node
  | .alias anchor => document.anchored.lookup anchor
  | node => some node

/-- The items of a sequence. Nothing is an empty sequence. -/
def items? (document : Document) (node : Node) : Option (List Node) :=
  match document.resolve? node with
  | some (.sequence items) => some items
  | some (.scalar "" .plain _) => some []
  | _ => none

/-- The pairs of a mapping. Nothing is an empty mapping. -/
def pairs? (document : Document) (node : Node) : Option (List (Node × Node)) :=
  match document.resolve? node with
  | some (.mapping pairs) => some pairs
  | some (.scalar "" .plain _) => some []
  | _ => none

/-- The text of a scalar. -/
def text? (document : Document) (node : Node) : Option String :=
  match document.resolve? node with
  | some (.scalar text _ _) => some text
  | _ => none

/-- The text of a scalar that may be a value of the type with the given tag: a plain one, or a literal one
with that tag. -/
def typedText? (document : Document) (tag : String) (node : Node) : Option String :=
  match document.resolve? node with
  | some (.scalar text .plain _) => some text
  | some (.scalar text .literal (some found)) => if found = tag then some text else none
  | _ => none

end Document

end GameGateway.Yaml
