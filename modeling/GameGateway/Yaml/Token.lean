/-!
# Tokens of a YAML text

The units that a YAML text consists of: marks that are written, such as brackets, and marks that the
indentation stands for, such as the end of a block.
-/

namespace GameGateway.Yaml

/-- How a scalar is written. -/
inductive ScalarStyle where
  | plain | singleQuoted | doubleQuoted | literal | folded
  deriving DecidableEq, Repr

/-- A unit of a YAML text. -/
inductive Token where
  /-- The version of YAML that the text is written in. -/
  | version (major minor : Nat)
  /-- A handle and what it abbreviates. -/
  | handle (name expansion : String)
  | documentStart
  | documentEnd
  | blockSequence
  | blockMapping
  | blockEnd
  | flowSequence
  | flowSequenceEnd
  | flowMapping
  | flowMappingEnd
  | blockEntry
  | flowEntry
  | key
  | value
  | alias (name : String)
  | anchor (name : String)
  /-- A tag; without a handle it is written in full. -/
  | tag (handle rest : String)
  | scalar (text : String) (style : ScalarStyle)
  deriving DecidableEq, Repr

end GameGateway.Yaml
